import QueryGate.Number.Reader

/-!
# Doubles with infinities

Every decimal text denotes a double when the infinities are among them, and so do
the words for the infinities and for what is no number.
-/

namespace QueryGate

/-- A double, which need not be finite. -/
inductive ExtendedDouble where
  | finite (value : Double)
  | infinite (negative : Bool)
  /-- What is no number. -/
  | nan
  deriving DecidableEq, Repr

namespace ExtendedDouble

/-- The number that a word denotes; ASCII letters may have either case. -/
def ofWord? (negative : Bool) (word : List Char) : Option ExtendedDouble :=
  match String.ofList (word.map Char.toLower) with
  | "inf" | "infinity" => some (infinite negative)
  | "nan" => some nan
  | _ => none

/-- The double nearest to a decimal. One that is too great for any is infinite. -/
def ofScientific (decimal : Double.Scientific) : ExtendedDouble :=
  match Double.ofScientific? decimal with
  | some value => finite value
  | none => infinite decimal.negative

/-- The double that a text denotes: a decimal, or a word behind an optional sign. -/
def ofText? (text : List Char) : Option ExtendedDouble :=
  match Double.Scientific.ofText? text with
  | some decimal => some (ofScientific decimal)
  | none =>
      let (negative, word) := Double.cutSign text
      ofWord? negative word

end ExtendedDouble

end QueryGate
