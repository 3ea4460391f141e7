import QueryGate.Json.Number
import QueryGate.Number.Extended
import QueryGate.Table

/-!
# JSON values

Values whose objects list each name once. The order of an object's members is the
order in which they are printed: values that were read have it sorted, values that
are built for printing have it as they are built.
-/

namespace QueryGate

/-- A JSON value. -/
inductive Json where
  | null
  | bool (value : Bool)
  | number (value : Number)
  | string (value : String)
  | array (items : List Json)
  | object (members : List (String × Json))
  deriving Repr, Inhabited

namespace Json

/-- The object with one member. -/
def single (name : String) (value : Json) : Json := object [(name, value)]

/-- The array of the given texts. -/
def strings (items : List String) : Json := array (items.map string)

/-- A natural number as a value. -/
def nat (value : Nat) : Json := number (.int value)

/-- An integer as a value. -/
def int (value : Int) : Json := number (.int value)

/-- A double as a value; where it is not finite, JSON has only null for it. -/
def extended : ExtendedDouble → Json
  | .finite value => number (.double value)
  | .infinite _ | .nan => null

/-- A number, or null where there is none. -/
def natOrNull : Option Nat → Json
  | some value => nat value
  | none => null

/-- A text, or null where there is none. -/
def stringOrNull : Option String → Json
  | some value => string value
  | none => null

/-- The object with a member for each row of a table. -/
def ofTable {α : Type} (image : α → Json) (rows : Table String α) : Json :=
  object (Table.mapValues image rows)

/-- The value of a member, when the value is an object that has it. -/
def member? (name : String) : Json → Option Json
  | object members => members.lookup name
  | _ => none

end Json

end QueryGate
