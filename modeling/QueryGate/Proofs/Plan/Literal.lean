import Mathlib
import QueryGate.Number.Extended
import QueryGate.Plan.Literal
import QueryGate.Proofs.Text.Canonical
import QueryGate.Proofs.Text.Word

/-!
# The types of literals

A literal is an integer if it is the canonical numeral of one with at most 64 bits. No literal
loses anything by its type: its text can be read off its value. A machine finds the type with
three readers in turn, for integers with a sign, for integers without one and for doubles, and
compares the number's text with the literal; since the text of a double has a point or an
exponent, that comes to the same.
-/

namespace QueryGate

open Text

/-! ## The texts of numbers -/

namespace Double

/-- The text of a decimal has a point or an exponent. -/
theorem mark_mem_text_decimal (decimal : Decimal) (layout : Layout) :
    '.' ∈ decimal.text layout ∨ 'e' ∈ decimal.text layout := by
  rw [Decimal.text]
  split
  · left
    unfold plainText
    split
    · simp
    · split <;> simp
    · simp
  · right
    unfold scientificText
    cases decimal.point - 1 <;> simp

/-- The text of a double has a point or an exponent. -/
theorem mark_mem_text (number : Double) : '.' ∈ number.text ∨ 'e' ∈ number.text := by
  have magnitude : ∀ text : List Char, '.' ∈ text ∨ 'e' ∈ text →
      '.' ∈ (if number.negative then '-' :: text else text) ∨
        'e' ∈ (if number.negative then '-' :: text else text) := by
    intro text marked
    cases number.negative <;> simpa using marked
  apply magnitude
  split
  · simp
  · exact mark_mem_text_decimal number.shortest layout

end Double

variable {text : List Char} {raw : String} {integer : Int} {double : Double}

/-- A numeral of an integer has only digits and signs. -/
theorem isDigit_or_sign_of_denotesInt (denotes : DenotesInt text integer) :
    ∀ char ∈ text, char.isDigit = true ∨ char = '-' ∨ char = '+' := by
  intro char member
  cases denotes with
  | minus digits =>
      obtain rfl | member := List.mem_cons.mp member
      · exact .inr (.inl rfl)
      · exact .inl (digits.digits char member)
  | nat natural =>
      cases natural with
      | digits digits => exact .inl (digits.digits char member)
      | plus digits =>
          obtain rfl | member := List.mem_cons.mp member
          · exact .inr (.inr rfl)
          · exact .inl (digits.digits char member)

theorem exactInt?_eq_some_iff :
    exactInt? text = some integer ↔
      CanonicalInt text integer ∧ leastInt64 ≤ integer ∧ integer ≤ (greatestNat64 : Int) := by
  rw [exactInt?, Option.bind_eq_bind, Option.bind_eq_some_iff]
  constructor
  · rintro ⟨other, -, exact⟩
    split at exact
    · rename_i shape
      obtain ⟨atLeast, atMost, written⟩ := shape
      cases exact
      exact ⟨textOfInt_eq_iff.mp written, atLeast, atMost⟩
    · cases exact
  · rintro ⟨canonical, atLeast, atMost⟩
    refine ⟨integer, intOfText?_eq_some_iff.mpr canonical.denotesInt, ?_⟩
    rw [if_pos ⟨atLeast, atMost, textOfInt_eq_iff.mpr canonical⟩]

theorem exactDouble?_eq_some_iff :
    exactDouble? text = some double ↔ Double.ofText? text = some double ∧ double.text = text := by
  rw [exactDouble?, Option.bind_eq_bind, Option.bind_eq_some_iff]
  constructor
  · rintro ⟨other, read, exact⟩
    split at exact
    · rename_i written
      cases exact
      exact ⟨read, written⟩
    · cases exact
  · rintro ⟨read, written⟩
    exact ⟨double, read, if_pos written⟩

/-- A numeral of an integer is not the text of a double. -/
theorem exactDouble?_of_denotesInt (denotes : DenotesInt text integer) :
    exactDouble? text = none := by
  have plain := isDigit_or_sign_of_denotesInt denotes
  rw [Option.eq_none_iff_forall_ne_some]
  intro double exact
  obtain ⟨-, written⟩ := exactDouble?_eq_some_iff.mp exact
  have marked := double.mark_mem_text
  rw [written] at marked
  obtain point | exponent := marked
  · exact absurd (plain '.' point) (by decide)
  · exact absurd (plain 'e' exponent) (by decide)

/-! ## The value of a literal -/

/-- What a literal can come to: a constant, a number whose text it is, or itself. -/
theorem typedLiteral_cases (raw : String) :
    (raw = "true" ∧ typedLiteral raw = .bool true) ∨
      (raw = "false" ∧ typedLiteral raw = .bool false) ∨
      (raw = "null" ∧ typedLiteral raw = .null) ∨
      (∃ integer, exactInt? raw.toList = some integer ∧
        typedLiteral raw = .number (.int integer)) ∨
      (∃ double, exactInt? raw.toList = none ∧ exactDouble? raw.toList = some double ∧
        typedLiteral raw = .number (.double double)) ∨
      (exactInt? raw.toList = none ∧ exactDouble? raw.toList = none ∧
        typedLiteral raw = .string raw) := by
  rw [typedLiteral]
  split
  · rename_i same
    exact .inl ⟨same, rfl⟩
  · split
    · rename_i same
      exact .inr (.inl ⟨same, rfl⟩)
    · split
      · rename_i same
        exact .inr (.inr (.inl ⟨same, rfl⟩))
      · cases exact : exactInt? raw.toList with
        | some integer => exact .inr (.inr (.inr (.inl ⟨integer, rfl, rfl⟩)))
        | none =>
            cases exactDouble : exactDouble? raw.toList with
            | some double => exact .inr (.inr (.inr (.inr (.inl ⟨double, rfl, rfl, rfl⟩))))
            | none => exact .inr (.inr (.inr (.inr (.inr ⟨rfl, rfl, rfl⟩))))

theorem not_denotesInt_constant :
    ∀ word ∈ ["true", "false", "null"], ¬∃ integer, DenotesInt word.toList integer := by
  simp only [← isInteger_iff]
  decide

/-- A numeral of an integer is no constant and the text of no double. -/
theorem typedLiteral_of_denotesInt (denotes : DenotesInt raw.toList integer) :
    typedLiteral raw =
      (exactInt? raw.toList).elim (.string raw) fun value => .number (.int value) := by
  obtain ⟨rfl, -⟩ | ⟨rfl, -⟩ | ⟨rfl, -⟩ | ⟨other, exact, typed⟩ | ⟨double, -, exact, -⟩ |
      ⟨exact, -, typed⟩ := typedLiteral_cases raw
  · exact absurd ⟨integer, denotes⟩ (not_denotesInt_constant "true" (by simp))
  · exact absurd ⟨integer, denotes⟩ (not_denotesInt_constant "false" (by simp))
  · exact absurd ⟨integer, denotes⟩ (not_denotesInt_constant "null" (by simp))
  · rw [typed, exact, Option.elim_some]
  · cases exact.symm.trans (exactDouble?_of_denotesInt denotes)
  · rw [typed, exact, Option.elim_none]

theorem typedLiteral_eq_int_iff :
    typedLiteral raw = .number (.int integer) ↔ exactInt? raw.toList = some integer := by
  constructor
  · intro same
    obtain ⟨-, typed⟩ | ⟨-, typed⟩ | ⟨-, typed⟩ | ⟨other, found, typed⟩ | ⟨_, -, -, typed⟩ |
        ⟨-, -, typed⟩ := typedLiteral_cases raw
    all_goals cases same.symm.trans typed
    exact found
  · intro exact
    have denotes := (exactInt?_eq_some_iff.mp exact).1.denotesInt
    rw [typedLiteral_of_denotesInt denotes, exact, Option.elim_some]

/-- The text of a literal can be read off its value. -/
theorem literalText_typedLiteral (raw : String) : literalText (typedLiteral raw) = some raw := by
  obtain ⟨rfl, typed⟩ | ⟨rfl, typed⟩ | ⟨rfl, typed⟩ | ⟨integer, exact, typed⟩ |
      ⟨double, -, exact, typed⟩ | ⟨-, -, typed⟩ := typedLiteral_cases raw
  all_goals rw [typed]
  · rfl
  · rfl
  · rfl
  · have written := textOfInt_eq_iff.mpr (exactInt?_eq_some_iff.mp exact).1
    rw [literalText, Number.text, written, String.ofList_toList]
  · have written := (exactDouble?_eq_some_iff.mp exact).2
    rw [literalText, Number.text, written, String.ofList_toList]
  · rfl

/-- A literal is an integer exactly if it is the canonical numeral of one that 64 bits can hold,
with a sign or without one. The text of every literal can be read off its value, so no two
literals have the same. -/
theorem typedLiteral_lossless (raw : String) :
    (∀ integer : Int, typedLiteral raw = .number (.int integer) ↔
      CanonicalInt raw.toList integer ∧ -2 ^ 63 ≤ integer ∧ integer ≤ 2 ^ 64 - 1) ∧
      literalText (typedLiteral raw) = some raw ∧
      ∀ other, typedLiteral other = typedLiteral raw → other = raw := by
  refine ⟨?_, literalText_typedLiteral raw, ?_⟩
  · intro integer
    rw [typedLiteral_eq_int_iff, exactInt?_eq_some_iff]
    rfl
  · intro other same
    have texts := literalText_typedLiteral other
    rw [same, literalText_typedLiteral raw] at texts
    exact (Option.some.inj texts).symm

/-! ## Three readers in turn -/

/-- The number that the first of three readers finds in a text. -/
def numberInTurn? (text : List Char) : Option Number :=
  match int64OfText? text with
  | some integer => some (.int integer)
  | none =>
      match nat64OfText? text with
      | some value => some (.int value)
      | none =>
          match ExtendedDouble.ofText? text with
          | some (.finite double) => some (.double double)
          | _ => none

/-- The value of a literal, read by three readers in turn. -/
def typedInTurn (raw : String) : Json :=
  if raw = "true" then .bool true
  else if raw = "false" then .bool false
  else if raw = "null" then .null
  else
    match numberInTurn? raw.toList with
    | some number => if number.text = raw.toList then .number number else .string raw
    | none => .string raw

theorem extendedOfText?_eq_finite_iff :
    ExtendedDouble.ofText? text = some (.finite double) ↔ Double.ofText? text = some double := by
  rw [ExtendedDouble.ofText?, Double.ofText?]
  cases Double.Scientific.ofText? text with
  | some decimal =>
      simp only [Option.bind_some, ExtendedDouble.ofScientific]
      cases Double.ofScientific? decimal <;> simp
  | none =>
      simp only [ExtendedDouble.ofWord?, Option.bind_none, reduceCtorEq, iff_false]
      split <;> simp

theorem exactInt?_of_denotesInt (denotes : DenotesInt text integer)
    (atLeast : leastInt64 ≤ integer) (atMost : integer ≤ (greatestNat64 : Int)) :
    exactInt? text = if textOfInt integer = text then some integer else none := by
  rw [exactInt?, intOfText?_eq_some_iff.mpr denotes]
  simp [atLeast, atMost]

/-- Where both integer readers fail, no integer of 64 bits has that numeral. -/
theorem exactInt?_of_unread (signed : int64OfText? text = none)
    (unsigned : nat64OfText? text = none) : exactInt? text = none := by
  rw [Option.eq_none_iff_forall_ne_some]
  intro integer exact
  obtain ⟨canonical, atLeast, atMost⟩ := exactInt?_eq_some_iff.mp exact
  by_cases fits : integer ≤ greatestInt64
  · rw [int64OfText?_eq_some_iff.mpr ⟨canonical.denotesInt, atLeast, fits⟩] at signed
    cases signed
  · cases canonical.denotesInt with
    | nat natural =>
        rw [nat64OfText?_eq_some_iff.mpr ⟨natural, by omega⟩] at unsigned
        cases unsigned
    | minus => exact fits (by simp only [greatestInt64]; omega)

/-- The reader of doubles reads infinities and words as well, which no literal has as its value. -/
theorem exactDouble?_eq_bind (text : List Char) :
    exactDouble? text =
      match ExtendedDouble.ofText? text with
      | some (.finite double) => if double.text = text then some double else none
      | _ => none := by
  cases read : Double.ofText? text with
  | some double =>
      rw [exactDouble?, read, extendedOfText?_eq_finite_iff.mpr read]
      rfl
  | none =>
      rw [exactDouble?, read]
      split
      · rename_i double found
        cases read.symm.trans (extendedOfText?_eq_finite_iff.mp found)
      · rfl

/-- The readers in turn find the value of the literal. -/
theorem typedInTurn_eq (raw : String) : typedInTurn raw = typedLiteral raw := by
  have ofInteger : ∀ {integer : Int}, DenotesInt raw.toList integer → leastInt64 ≤ integer →
      integer ≤ (greatestNat64 : Int) →
      (if (Number.int integer).text = raw.toList then Json.number (.int integer)
        else .string raw) = typedLiteral raw := by
    intro integer denotes atLeast atMost
    rw [typedLiteral_of_denotesInt denotes, exactInt?_of_denotesInt denotes atLeast atMost,
      Number.text]
    split <;> rfl
  by_cases isTrue : raw = "true"
  · rw [typedInTurn, typedLiteral, if_pos isTrue, if_pos isTrue]
  by_cases isFalse : raw = "false"
  · rw [typedInTurn, typedLiteral, if_neg isTrue, if_neg isTrue, if_pos isFalse, if_pos isFalse]
  by_cases isNull : raw = "null"
  · rw [typedInTurn, typedLiteral, if_neg isTrue, if_neg isTrue, if_neg isFalse, if_neg isFalse,
      if_pos isNull, if_pos isNull]
  rw [typedInTurn, if_neg isTrue, if_neg isFalse, if_neg isNull, numberInTurn?]
  cases signed : int64OfText? raw.toList with
  | some integer =>
      obtain ⟨denotes, atLeast, atMost⟩ := int64OfText?_eq_some_iff.mp signed
      have within : greatestInt64 ≤ (greatestNat64 : Int) := by decide
      exact ofInteger denotes atLeast (Int.le_trans atMost within)
  | none =>
      cases unsigned : nat64OfText? raw.toList with
      | some value =>
          obtain ⟨denotes, atMost⟩ := nat64OfText?_eq_some_iff.mp unsigned
          have within : leastInt64 ≤ 0 := by decide
          exact ofInteger (.nat denotes) (Int.le_trans within (by omega)) (by omega)
      | none =>
          rw [typedLiteral, if_neg isTrue, if_neg isFalse, if_neg isNull,
            exactInt?_of_unread signed unsigned, exactDouble?_eq_bind]
          cases ExtendedDouble.ofText? raw.toList with
          | none => rfl
          | some read =>
              cases read with
              | finite double =>
                  dsimp only
                  rw [Number.text]
                  split <;> rfl
              | infinite => rfl
              | nan => rfl

end QueryGate
