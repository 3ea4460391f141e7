import QueryGate.Number.Double
import QueryGate.Text.Numeral

/-!
# Reading decimals as doubles

A decimal text denotes the nearest double. Its shape is an optional sign, digits
with at most one point among them, and an optional exponent.
-/

namespace QueryGate.Double

open Text

/-- The parts of a decimal text: sign, digits before and after the point, exponent. -/
structure Scientific where
  negative : Bool
  whole : List Char
  fraction : List Char
  exponent : Int
  deriving DecidableEq, Repr

/-- Cuts a sign off the front of a text. -/
def cutSign : List Char → Bool × List Char
  | '-' :: rest => (true, rest)
  | '+' :: rest => (false, rest)
  | rest => (false, rest)

/-- The exponent that the end of a decimal text denotes. -/
def exponentOfText? : List Char → Option Int
  | [] => some 0
  | mark :: rest => if mark = 'e' ∨ mark = 'E' then intOfText? rest else none

/-- Cuts a decimal text into its parts; it needs a digit before or after the point. -/
def Scientific.ofText? (text : List Char) : Option Scientific := do
  let (negative, rest) := cutSign text
  let whole := rest.takeWhile Char.isDigit
  let (fraction, rest) :=
    match rest.dropWhile Char.isDigit with
    | '.' :: rest => (rest.takeWhile Char.isDigit, rest.dropWhile Char.isDigit)
    | rest => ([], rest)
  if whole.isEmpty && fraction.isEmpty then none
  else
    let exponent ← exponentOfText? rest
    some ⟨negative, whole, fraction, exponent⟩

/-- The double nearest to a decimal, `none` when that is not finite. -/
def ofScientific? (decimal : Scientific) : Option Double :=
  ofDecimal? decimal.negative (Nat.ofDigitChars 10 (decimal.whole ++ decimal.fraction) 0)
    (decimal.exponent - decimal.fraction.length)

/-- The finite double that a text denotes. -/
def ofText? (text : List Char) : Option Double :=
  (Scientific.ofText? text).bind ofScientific?

end QueryGate.Double
