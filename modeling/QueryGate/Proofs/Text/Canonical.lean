import Mathlib.Data.List.Basic
import Mathlib.Data.List.Induction
import QueryGate.Proofs.Text.Numeral

/-!
# Canonical numerals

Of all numerals of an integer one is canonical: it has no leading zeros and no sign that could
be left out. It is the one that the integer is written with.
-/

namespace QueryGate.Text

/-- The text is the canonical numeral of the number, with no leading zeros. -/
structure IsCanonical (text : List Char) (value : Nat) : Prop extends IsDigits text value where
  unpadded : text.head? = some '0' → text = ['0']

/-- The text is the canonical numeral of the integer: no leading zeros, no plus sign, and no minus
sign in front of zero. -/
inductive CanonicalInt : List Char → Int → Prop where
  | nat {text : List Char} {value : Nat} : IsCanonical text value → CanonicalInt text value
  | minus {text : List Char} {value : Nat} :
      IsCanonical text value → value ≠ 0 → CanonicalInt ('-' :: text) (-(value : Int))

variable {text front : List Char} {last char : Char} {value : Nat}

/-- The digits of a number start with a zero only for zero. -/
theorem unpadded_digitsOf (value : Nat) :
    (digitsOf value).head? = some '0' → digitsOf value = ['0'] := by
  induction value using Nat.strongRecOn with
  | ind value hypothesis =>
      intro zero
      by_cases single : value < 10
      · rw [digitsOf, Nat.toDigits_of_lt_base single] at zero ⊢
        rw [Option.some.inj zero]
      · have whole : digitsOf value = digitsOf (value / 10) ++ [(value % 10).digitChar] :=
          Nat.toDigits_of_base_le (by decide) (by omega)
        obtain ⟨written, -, denoted⟩ := isDigits_digitsOf (value / 10)
        have headed : (digitsOf (value / 10)).head? = some '0' := by
          rwa [whole, List.head?_append_of_ne_nil _ written] at zero
        rw [hypothesis (value / 10) (by omega) headed] at denoted
        have isZero : 0 = value / 10 := denoted
        omega

theorem isCanonical_digitsOf (value : Nat) : IsCanonical (digitsOf value) value where
  toIsDigits := isDigits_digitsOf value
  unpadded := unpadded_digitsOf value

theorem exists_digitChar (digit : char.isDigit = true) :
    ∃ value < 10, char = value.digitChar ∧ char.toNat - '0'.toNat = value := by
  obtain ⟨atLeast, atMost⟩ := Char.isDigit_iff_toNat.mp digit
  have zero : '0'.toNat = 48 := rfl
  have nine : '9'.toNat = 57 := rfl
  have small : char.toNat - '0'.toNat < 10 := by omega
  refine ⟨_, small, ?_, rfl⟩
  have same := Nat.toNat_digitChar_of_lt_ten small
  rw [← Char.toNat_inj]
  omega

/-- A number has only one canonical numeral. -/
theorem digitsOf_eq_of_isCanonical (canonical : IsCanonical text value) :
    digitsOf value = text := by
  -- Digits are printed from the last to the first, so the induction takes off the last one.
  induction text using List.reverseRecOn generalizing value with
  | nil => exact absurd rfl canonical.ne_nil
  | append_singleton front last hypothesis =>
      obtain ⟨digit, small, rfl, value_eq⟩ :=
        exists_digitChar (canonical.digits last (by simp))
      have denoted := canonical.value_eq
      rw [Nat.ofDigitChars_append, Nat.ofDigitChars_cons, Nat.ofDigitChars_nil, value_eq] at denoted
      by_cases single : front = []
      · subst single
        have denoted : digit = value := by simpa using denoted
        rw [← denoted, digitsOf, Nat.toDigits_of_lt_base small, List.nil_append]
      · have unpadded : front.head? ≠ some '0' := by
          intro zero
          have alone := canonical.unpadded (by rwa [List.head?_append_of_ne_nil _ single])
          have shorter := congrArg List.length alone
          simp [single] at shorter
        have shorter : digitsOf (Nat.ofDigitChars 10 front 0) = front := by
          refine hypothesis ⟨⟨single, ?_, rfl⟩, fun zero => absurd zero unpadded⟩
          intro char member
          exact canonical.digits char (List.mem_append_left _ member)
        have positive : 0 < Nat.ofDigitChars 10 front 0 := by
          by_contra none
          rw [Nat.eq_zero_of_not_pos none] at shorter
          rw [← shorter] at unpadded
          exact unpadded rfl
        calc digitsOf value
            = digitsOf (10 * Nat.ofDigitChars 10 front 0 + digit) := by rw [denoted]
          _ = digitsOf (Nat.ofDigitChars 10 front 0) ++ digitsOf digit :=
              (Nat.toDigits_append_toDigits (by decide) positive small).symm
          _ = front ++ [digit.digitChar] := by
              rw [shorter, digitsOf, Nat.toDigits_of_lt_base small]

/-- The canonical numeral of an integer is the text that it is written with. -/
theorem textOfInt_eq_iff {integer : Int} :
    textOfInt integer = text ↔ CanonicalInt text integer := by
  constructor
  · rintro rfl
    cases integer with
    | ofNat magnitude => exact .nat (isCanonical_digitsOf magnitude)
    | negSucc predecessor =>
        exact .minus (isCanonical_digitsOf (predecessor + 1)) (Nat.succ_ne_zero predecessor)
  · intro canonical
    cases canonical with
    | nat canonical => exact digitsOf_eq_of_isCanonical canonical
    | @minus text value canonical positive =>
        obtain ⟨predecessor, rfl⟩ := Nat.exists_eq_succ_of_ne_zero positive
        exact congrArg ('-' :: ·) (digitsOf_eq_of_isCanonical canonical)

theorem CanonicalInt.denotesInt {integer : Int} (canonical : CanonicalInt text integer) :
    DenotesInt text integer := by
  rw [← textOfInt_eq_iff.mpr canonical]
  exact denotesInt_textOfInt integer

end QueryGate.Text
