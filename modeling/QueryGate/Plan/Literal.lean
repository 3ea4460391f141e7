import QueryGate.Json.Basic

/-!
# The types of literals

Literals of a query are plain text. One that is the exact text of a JSON constant
or number has that type; every other one is a string, so that texts such as `01234`
or `+5` are kept as they are.
-/

namespace QueryGate

open Text

/-- The integer of at most 64 bits whose shortest text this is. -/
def exactInt? (text : List Char) : Option Int := do
  let value ← intOfText? text
  if leastInt64 ≤ value ∧ value ≤ (greatestNat64 : Int) ∧ textOfInt value = text then some value
  else none

/-- The double whose shortest text this is. -/
def exactDouble? (text : List Char) : Option Double := do
  let value ← Double.ofText? text
  if value.text = text then some value else none

/-- The value that a literal stands for. -/
def typedLiteral (raw : String) : Json :=
  if raw = "true" then .bool true
  else if raw = "false" then .bool false
  else if raw = "null" then .null
  else
    match exactInt? raw.toList with
    | some value => .number (.int value)
    | none =>
        match exactDouble? raw.toList with
        | some value => .number (.double value)
        | none => .string raw

/-- The text that a literal's value was read from. -/
def literalText : Json → Option String
  | .bool true => some "true"
  | .bool false => some "false"
  | .null => some "null"
  | .number value => some (String.ofList value.text)
  | .string raw => some raw
  | _ => none

end QueryGate
