import QueryGate.Json.Basic

/-!
# Bounds

An inclusive range that numbers are forced into.
-/

namespace QueryGate

/-- An inclusive range of integers of 64 bits. -/
structure Bound where
  min : Int
  max : Int
  deriving DecidableEq, Repr

namespace Bound

/-- The integer of the range that is nearest to a value. -/
def clamp (bound : Bound) (value : Int) : Int :=
  if value < bound.min then bound.min
  else if bound.max < value then bound.max
  else value

/-- The integer of the range that is nearest to a value, if the range has any. -/
def clamp? (bound : Bound) (value : Int) : Option Int :=
  if bound.min ≤ bound.max then some (bound.clamp value) else none

/-- A double forced into the range; one that lies in it stays as it is. The ends
of the range are rounded to doubles for this. -/
def clampDouble (bound : Bound) (value : Double) : Double :=
  match Double.ofInt? bound.min, Double.ofInt? bound.max with
  | some low, some high =>
      if value.lt low then low
      else if high.lt value then high
      else value
  | _, _ => value

/-- A double forced into the range, with the infinities beyond either end of it. What
is no number stays so. -/
def clampExtended (bound : Bound) : ExtendedDouble → ExtendedDouble
  | .finite value => .finite (bound.clampDouble value)
  | .infinite negative =>
      match Double.ofInt? (if negative then bound.min else bound.max) with
      | some limit => .finite limit
      | none => .infinite negative
  | .nan => .nan

/-- A number forced into the range. An integer stays an integer and a double a double. -/
def clampNumber (bound : Bound) : Number → Number
  | .int value => .int (bound.clamp value)
  | .double value => .double (bound.clampDouble value)

/-- A JSON value forced into the range, if it is a number. -/
def clampJson (bound : Bound) : Json → Json
  | .number value => .number (bound.clampNumber value)
  | value => value

theorem clamp?_eq_some_iff (bound : Bound) (value result : Int) :
    bound.clamp? value = some result ↔ bound.min ≤ bound.max ∧ bound.clamp value = result := by
  simp [clamp?]

end Bound

end QueryGate
