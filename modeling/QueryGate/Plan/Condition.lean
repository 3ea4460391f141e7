import QueryGate.Json.Basic

/-!
# Conditions

What a plan demands of rows, with typed values. A condition is either about the
field that it stands under, or combines conditions on several fields.
-/

namespace QueryGate

/-- A condition of a plan. -/
inductive Condition where
  | equals (value : Json)
  | not (operand : Condition)
  | like (pattern : String)
  | notLike (pattern : String)
  | oneOf (values : List Json)
  | and (operands : List Condition)
  | or (operands : List Condition)
  | between (low high : Json)
  /-- Conditions on fields, all of which have to hold. -/
  | fields (rows : List (String × Condition))
  /-- The operands of the connective that this condition stands under. -/
  | operands (items : List Condition)
  deriving Repr, Inhabited

namespace Condition

mutual

/-- A condition as a value: an equality as the bare value, conditions on fields as
an object, operands as an array, and all others as an object with one member. -/
def toJson : Condition → Json
  | equals value => value
  | not operand => .single "not" (toJson operand)
  | like pattern => .single "like" (.string pattern)
  | notLike pattern => .single "notLike" (.string pattern)
  | oneOf values => .single "in" (.array values)
  | and items => .single "and" (.array (toJsonItems items))
  | or items => .single "or" (.array (toJsonItems items))
  | between low high => .single "between" (.array [low, high])
  | fields rows => .object (toJsonFields rows)
  | operands items => .array (toJsonItems items)

/-- The conditions of a list as values. -/
def toJsonItems : List Condition → List Json
  | [] => []
  | item :: rest => toJson item :: toJsonItems rest

/-- The conditions on fields as members. -/
def toJsonFields : List (String × Condition) → List (String × Json)
  | [] => []
  | (field, condition) :: rest => (field, toJson condition) :: toJsonFields rest

end

end Condition

end QueryGate
