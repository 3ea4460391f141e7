import QueryGate.Text.Numeral

/-!
# What decimal numerals denote

The numerals of an unsigned and of a signed number, said without the functions that
read them, and that these read exactly the numerals.
-/

namespace QueryGate.Text

/-- The text is a run of ASCII digits that denotes the number. -/
structure IsDigits (text : List Char) (value : Nat) : Prop where
  ne_nil : text ≠ []
  digits : ∀ char ∈ text, char.isDigit = true
  value_eq : Nat.ofDigitChars 10 text 0 = value

/-- The text is a numeral of the number: digits with an optional plus sign. -/
inductive DenotesNat : List Char → Nat → Prop where
  | digits {text : List Char} {value : Nat} : IsDigits text value → DenotesNat text value
  | plus {text : List Char} {value : Nat} : IsDigits text value → DenotesNat ('+' :: text) value

/-- The text is a numeral of the integer: digits with an optional sign. -/
inductive DenotesInt : List Char → Int → Prop where
  | nat {text : List Char} {value : Nat} : DenotesNat text value → DenotesInt text value
  | minus {text : List Char} {value : Nat} :
      IsDigits text value → DenotesInt ('-' :: text) (-(value : Int))

theorem natOfDigits?_eq_some_iff {text : List Char} {value : Nat} :
    natOfDigits? text = some value ↔ IsDigits text value := by
  rw [natOfDigits?]
  constructor
  · intro read
    split at read
    · rename_i shape
      rw [Bool.and_eq_true, Bool.not_eq_true', List.isEmpty_eq_false_iff,
        List.all_eq_true] at shape
      exact ⟨shape.1, shape.2, Option.some.inj read⟩
    · cases read
  · rintro ⟨written, digits, rfl⟩
    rw [if_pos]
    simpa [written] using digits

theorem IsDigits.head_isDigit {first : Char} {rest : List Char} {value : Nat}
    (digits : IsDigits (first :: rest) value) : first.isDigit = true :=
  digits.digits first List.mem_cons_self

theorem natOfText?_eq_some_iff {text : List Char} {value : Nat} :
    natOfText? text = some value ↔ DenotesNat text value := by
  constructor
  · intro read
    unfold natOfText? at read
    split at read
    · exact .plus (natOfDigits?_eq_some_iff.mp read)
    · exact .digits (natOfDigits?_eq_some_iff.mp read)
  · intro denotes
    cases denotes with
    | plus digits => exact natOfDigits?_eq_some_iff.mpr digits
    | digits digits =>
        unfold natOfText?
        split
        · cases digits.head_isDigit
        · exact natOfDigits?_eq_some_iff.mpr digits

theorem intOfText?_eq_some_iff {text : List Char} {value : Int} :
    intOfText? text = some value ↔ DenotesInt text value := by
  constructor
  · intro read
    unfold intOfText? at read
    split at read <;> simp only [Option.map_eq_some_iff, bind, Option.bind_eq_some_iff,
      pure, Option.some.injEq, natOfDigits?_eq_some_iff] at read
    · rcases read with ⟨_, ⟨magnitude, digits, rfl⟩, rfl⟩
      exact .minus digits
    · rcases read with ⟨magnitude, digits, rfl⟩
      exact .nat (.plus digits)
    · rcases read with ⟨magnitude, digits, rfl⟩
      exact .nat (.digits digits)
  · intro denotes
    cases denotes with
    | minus digits => rw [intOfText?, natOfDigits?_eq_some_iff.mpr digits]; rfl
    | nat natural =>
        cases natural with
        | plus digits => rw [intOfText?, natOfDigits?_eq_some_iff.mpr digits]; rfl
        | digits digits =>
            unfold intOfText?
            split
            · cases digits.head_isDigit
            · cases digits.head_isDigit
            · rw [natOfDigits?_eq_some_iff.mpr digits]; rfl

/-- The digits of a number are a numeral of it. -/
theorem isDigits_digitsOf (value : Nat) : IsDigits (digitsOf value) value where
  ne_nil := Nat.toDigits_ne_nil
  digits := fun _ member => Nat.isDigit_of_mem_toDigits (by decide) (by decide) member
  value_eq := Nat.ofDigitChars_toDigits (by decide) (by decide)

theorem denotesInt_textOfInt (value : Int) : DenotesInt (textOfInt value) value := by
  cases value with
  | ofNat magnitude => exact .nat (.digits (isDigits_digitsOf magnitude))
  | negSucc predecessor => exact .minus (isDigits_digitsOf (predecessor + 1))

theorem textOfInt_eq_toList (value : Int) : textOfInt value = (toString value).toList := by
  cases value with
  | ofNat magnitude => simp [textOfInt, digitsOf, toString, Int.repr, Nat.repr]
  | negSucc predecessor => simp [textOfInt, digitsOf, toString, Int.repr, Nat.repr]

end QueryGate.Text
