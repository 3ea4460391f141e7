import QueryGate.Json.Written

/-!
# Decoding JSON

Decoders turn a text as written into values of a type. Rules that all of them share:

- A record is an object with its fields in any order, or an array of its fields in
  their declared order. Unknown fields are passed over, whatever they hold; a field
  given twice is an error.
- A map is an object; of two members with one name the later counts.
- A word is a string, or an object whose one member has the word as its name and
  holds null.
- Arrays and objects may be nested at most `maxNesting` deep. The argument `room`
  of a decoder says how many levels are still allowed.
-/

namespace QueryGate.Written

open Text

/-- How deep arrays and objects that are decoded may be nested. -/
def maxNesting : Nat := 127

/-- Decodes a string. -/
def text? : Written → Option String
  | string value => value
  | _ => none

/-- Decodes an integer of 64 bits with a sign. -/
def int64? : Written → Option Int
  | number (some (.int value)) => if fitsInt64 value then some value else none
  | _ => none

/-- Decodes an integer of 64 bits without a sign. -/
def nat64? : Written → Option Nat
  | number (some (.int value)) => if 0 ≤ value then some value.toNat else none
  | _ => none

/-- Decodes each item of an array. -/
def items? {α : Type} (item? : Written → Option α) : Written → Option (List α)
  | array items => items.mapM item?
  | _ => none

/-- Decodes each member of an object. -/
def members? {κ α : Type} (name? : String → Option κ) (value? : Written → Option α) :
    Written → Option (List (κ × α))
  | object members =>
      members.mapM fun (name, value) => do
        let name ← name
        some (← name? name, ← value? value)
  | _ => none

/-- Decodes an array. -/
def list? {α : Type} (item? : (room : Nat) → Written → Option α) :
    (room : Nat) → Written → Option (List α)
  | 0, _ => none
  | room + 1, written => items? (item? room) written

/-- Decodes the rows of a map, as they are written. -/
def rows? {κ α : Type} (name? : String → Option κ)
    (value? : (room : Nat) → Written → Option α) :
    (room : Nat) → Written → Option (List (κ × α))
  | 0, _ => none
  | room + 1, written => members? name? (value? room) written

/-- Decodes a map. -/
def table? {κ α : Type} [Ord κ] (name? : String → Option κ)
    (value? : (room : Nat) → Written → Option α) (room : Nat) (written : Written) :
    Option (Table κ α) :=
  (rows? name? value? room written).map Table.ofRows

/-- Decodes a word by the meanings that words have. -/
def word? {α : Type} (meaning? : String → Option α) : (room : Nat) → Written → Option α
  | _, string value => value.bind meaning?
  | 0, _ => none
  | _ + 1, object [(name, null)] => name.bind meaning?
  | _ + 1, _ => none

/-- The one value of a field among the members of a record, if it is there. -/
def field? (members : List (Option String × Written)) (name : String) :
    Option (Option Written) :=
  match members.filter fun member => member.1 == some name with
  | [] => some none
  | [member] => some (some member.2)
  | _ => none

/-- The values of a record's fields, in the order of the names. -/
def fields? (names : List String) : (room : Nat) → Written → Option (List (Option Written))
  | 0, _ => none
  | _ + 1, object members =>
      if members.all fun member => member.1.isSome then names.mapM (field? members)
      else none
  | _ + 1, array items =>
      if items.length ≤ names.length then
        some (items.map some ++ List.replicate (names.length - items.length) none)
      else none
  | _ + 1, _ => none

/-- Decodes a field that has a default. -/
def orDefault {α : Type} (value? : Written → Option α) (default : α) :
    Option Written → Option α
  | none => some default
  | some written => value? written

/-- Decodes a field that may be null or absent. -/
def orNull {α : Type} (value? : Written → Option α) : Option Written → Option (Option α)
  | none => some none
  | some null => some none
  | some written => (value? written).map some

mutual

/-- Decodes any value. -/
def json? (room : Nat) : Written → Option Json
  | null => some .null
  | bool value => some (.bool value)
  | number value => value.map .number
  | string value => value.map .string
  | array items =>
      match room with
      | 0 => none
      | room + 1 => (jsonItems? room items).map .array
  | object members =>
      match room with
      | 0 => none
      | room + 1 => (jsonMembers? room members).map fun rows => .object (Table.ofRows rows)

/-- Decodes the items of an array of any values. -/
def jsonItems? (room : Nat) : List Written → Option (List Json)
  | [] => some []
  | item :: rest => do
      let item ← json? room item
      let rest ← jsonItems? room rest
      some (item :: rest)

/-- Decodes the members of an object of any values. -/
def jsonMembers? (room : Nat) : List (Option String × Written) → Option (List (String × Json))
  | [] => some []
  | (name, value) :: rest => do
      let name ← name
      let value ← json? room value
      let rest ← jsonMembers? room rest
      some ((name, value) :: rest)

end

end QueryGate.Written

namespace QueryGate.Json

/-- Reads a text that holds one JSON value. -/
def read? (text : String) : Option Json :=
  (Written.read? text).bind (Written.json? Written.maxNesting)

end QueryGate.Json
