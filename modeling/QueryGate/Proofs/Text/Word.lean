import QueryGate.Proofs.Text.Numeral

/-!
# Numerals read into 64 bits

A machine reads a numeral digit by digit into a word of 64 bits and gives up where the number
no longer fits. It reads exactly the numerals of the integers that fit, of any length, since
leading zeros do not make a number greater.
-/

namespace QueryGate.Text

/-- Digits read one by one behind a number, as long as it stays within the greatest one. -/
def digitsWithin? (greatest : Nat) : Nat → List Char → Option Nat
  | value, [] => some value
  | value, digit :: rest =>
      let longer := 10 * value + (digit.toNat - '0'.toNat)
      if digit.isDigit ∧ longer ≤ greatest then digitsWithin? greatest longer rest else none

/-- A non-empty run of digits read into a word that holds numbers up to the greatest one. -/
def wordOfDigits? (greatest : Nat) (digits : List Char) : Option Nat :=
  if digits = [] then none else digitsWithin? greatest 0 digits

/-- A numeral read into 64 bits without a sign. -/
def nat64OfText? : List Char → Option Nat
  | '+' :: digits => wordOfDigits? greatestNat64 digits
  | digits => wordOfDigits? greatestNat64 digits

/-- A numeral read into 64 bits with a sign. There is one negative number more. -/
def int64OfText? : List Char → Option Int
  | '-' :: digits => (wordOfDigits? (greatestInt64.toNat + 1) digits).map Int.negOfNat
  | '+' :: digits => (wordOfDigits? greatestInt64.toNat digits).map Int.ofNat
  | digits => (wordOfDigits? greatestInt64.toNat digits).map Int.ofNat

/-- A text without the sign that it starts with, if it starts with one. -/
def withoutSign : List Char → List Char
  | '-' :: digits => digits
  | '+' :: digits => digits
  | digits => digits

/-- Whether the text is one of digits with an optional sign. -/
def isInteger (text : List Char) : Bool :=
  withoutSign text != [] && (withoutSign text).all Char.isDigit

/-- Whether the text starts with a minus sign. -/
def startsMinus (text : List Char) : Bool := text.head? == some '-'

variable {greatest value number : Nat} {digits text : List Char}

theorem DenotesNat.unique {other : Nat} (denotes : DenotesNat text number)
    (again : DenotesNat text other) : number = other := by
  rw [← natOfText?_eq_some_iff] at denotes again
  exact Option.some.inj (denotes.symm.trans again)

theorem DenotesInt.unique {integer other : Int} (denotes : DenotesInt text integer)
    (again : DenotesInt text other) : integer = other := by
  rw [← intOfText?_eq_some_iff] at denotes again
  exact Option.some.inj (denotes.symm.trans again)

/-- More digits never make a number smaller. -/
theorem le_ofDigitChars (digits : List Char) (value : Nat) :
    value ≤ Nat.ofDigitChars 10 digits value := by
  induction digits generalizing value with
  | nil => exact Nat.le_of_eq Nat.ofDigitChars_nil.symm
  | cons digit rest hypothesis =>
      have longer := hypothesis (10 * value + (digit.toNat - '0'.toNat))
      rw [Nat.ofDigitChars_cons]
      omega

/-- Reading stops early only where the whole number does not fit either. -/
theorem digitsWithin?_eq_some_iff (fits : value ≤ greatest) :
    digitsWithin? greatest value digits = some number ↔
      (∀ char ∈ digits, char.isDigit = true) ∧ Nat.ofDigitChars 10 digits value = number ∧
        number ≤ greatest := by
  induction digits generalizing value with
  | nil =>
      rw [digitsWithin?, Nat.ofDigitChars_nil, Option.some.injEq]
      constructor
      · rintro rfl
        exact ⟨by simp, rfl, fits⟩
      · exact fun read => read.2.1
  | cons digit rest hypothesis =>
      rw [digitsWithin?, Nat.ofDigitChars_cons, List.forall_mem_cons]
      split
      · rename_i step
        rw [hypothesis step.2]
        simp [step.1]
      · rename_i stopped
        have whole := le_ofDigitChars rest (10 * value + (digit.toNat - '0'.toNat))
        constructor
        · rintro ⟨⟩
        · rintro ⟨⟨isDigit, -⟩, rfl, wholeFits⟩
          exact absurd ⟨isDigit, Nat.le_trans whole wholeFits⟩ stopped

theorem wordOfDigits?_eq_some_iff :
    wordOfDigits? greatest digits = some number ↔ IsDigits digits number ∧ number ≤ greatest := by
  rw [wordOfDigits?]
  split
  · rename_i empty
    constructor
    · rintro ⟨⟩
    · rintro ⟨read, -⟩
      exact absurd empty read.ne_nil
  · rename_i written
    rw [digitsWithin?_eq_some_iff (Nat.zero_le greatest)]
    constructor
    · rintro ⟨allDigits, denoted, fits⟩
      exact ⟨⟨written, allDigits, denoted⟩, fits⟩
    · rintro ⟨read, fits⟩
      exact ⟨read.digits, read.value_eq, fits⟩

/-- The numerals that are read into 64 bits without a sign are those of the numbers that fit. -/
theorem nat64OfText?_eq_some_iff :
    nat64OfText? text = some number ↔ DenotesNat text number ∧ number ≤ greatestNat64 := by
  constructor
  · intro read
    unfold nat64OfText? at read
    split at read <;> rw [wordOfDigits?_eq_some_iff] at read
    · exact ⟨.plus read.1, read.2⟩
    · exact ⟨.digits read.1, read.2⟩
  · rintro ⟨denotes, fits⟩
    cases denotes with
    | plus digits => exact wordOfDigits?_eq_some_iff.mpr ⟨digits, fits⟩
    | digits digits =>
        unfold nat64OfText?
        split
        · cases digits.head_isDigit
        · exact wordOfDigits?_eq_some_iff.mpr ⟨digits, fits⟩

/-- The numerals that are read into 64 bits with a sign are those of the integers that fit. -/
theorem int64OfText?_eq_some_iff {integer : Int} :
    int64OfText? text = some integer ↔
      DenotesInt text integer ∧ leastInt64 ≤ integer ∧ integer ≤ greatestInt64 := by
  constructor
  · intro read
    unfold int64OfText? at read
    split at read <;> simp only [Option.map_eq_some_iff, wordOfDigits?_eq_some_iff] at read
    · obtain ⟨magnitude, ⟨digits, fits⟩, rfl⟩ := read
      rw [Int.negOfNat_eq]
      refine ⟨.minus digits, ?_⟩
      simp [leastInt64, greatestInt64] at fits ⊢
      omega
    · obtain ⟨magnitude, ⟨digits, fits⟩, rfl⟩ := read
      refine ⟨.nat (.plus digits), ?_⟩
      simp [leastInt64, greatestInt64] at fits ⊢
      omega
    · obtain ⟨magnitude, ⟨digits, fits⟩, rfl⟩ := read
      refine ⟨.nat (.digits digits), ?_⟩
      simp [leastInt64, greatestInt64] at fits ⊢
      omega
  · rintro ⟨denotes, atLeast, atMost⟩
    cases denotes with
    | @minus text value digits =>
        have fits : value ≤ greatestInt64.toNat + 1 := by
          simp only [leastInt64, greatestInt64] at atLeast ⊢
          omega
        rw [int64OfText?, wordOfDigits?_eq_some_iff.mpr ⟨digits, fits⟩, Option.map_some,
          Int.negOfNat_eq]
        rfl
    | @nat _ value natural =>
        have fits : value ≤ greatestInt64.toNat := by omega
        cases natural with
        | plus digits =>
            rw [int64OfText?, wordOfDigits?_eq_some_iff.mpr ⟨digits, fits⟩]
            rfl
        | digits digits =>
            unfold int64OfText?
            split
            · cases digits.head_isDigit
            · cases digits.head_isDigit
            · rw [wordOfDigits?_eq_some_iff.mpr ⟨digits, fits⟩]
              rfl

/-- A text is one of digits with an optional sign exactly when it denotes an integer. -/
theorem isInteger_iff : isInteger text = true ↔ ∃ integer, DenotesInt text integer := by
  rw [isInteger, Bool.and_eq_true, bne_iff_ne, List.all_eq_true]
  constructor
  · rintro ⟨written, allDigits⟩
    have digits : IsDigits (withoutSign text) _ := ⟨written, allDigits, rfl⟩
    unfold withoutSign at digits
    split at digits
    · exact ⟨_, .minus digits⟩
    · exact ⟨_, .nat (.plus digits)⟩
    · exact ⟨_, .nat (.digits digits)⟩
  · rintro ⟨integer, denotes⟩
    cases denotes with
    | minus digits => exact ⟨digits.ne_nil, digits.digits⟩
    | nat natural =>
        cases natural with
        | plus digits => exact ⟨digits.ne_nil, digits.digits⟩
        | digits digits =>
            unfold withoutSign
            split
            · cases digits.head_isDigit
            · cases digits.head_isDigit
            · exact ⟨digits.ne_nil, digits.digits⟩

/-- A numeral with a minus sign denotes no positive integer. -/
theorem nonpos_of_startsMinus {integer : Int} (denotes : DenotesInt text integer)
    (minus : startsMinus text = true) : integer ≤ 0 := by
  cases denotes with
  | minus _ => omega
  | nat natural =>
      cases natural with
      | plus _ => cases minus
      | @digits text value digits =>
          cases text with
          | nil => cases minus
          | cons first rest =>
              have sign : first = '-' := by simpa [startsMinus] using minus
              rw [sign] at digits
              cases digits.head_isDigit

/-- A numeral without a minus sign is one of a natural number. -/
theorem exists_denotesNat_of_startsMinus {integer : Int} (denotes : DenotesInt text integer)
    (plain : startsMinus text = false) : ∃ natural : Nat, DenotesNat text natural ∧
      integer = natural := by
  cases denotes with
  | minus _ => cases plain
  | nat natural => exact ⟨_, natural, rfl⟩

end QueryGate.Text
