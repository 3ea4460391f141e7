import QueryGate.Json.Basic

/-!
# Expressions

What a query says about one field, or about several fields joined by a connective.
All text in an expression is raw: what type a literal has is decided against a
filter, when a plan is made.
-/

namespace QueryGate

/-- An expression of the query language. -/
inductive Expression where
  | literal (text : String)
  | and (operands : List Expression)
  | or (operands : List Expression)
  | not (operand : Expression)
  | like (pattern : String)
  | notLike (pattern : String)
  | oneOf (items : List String)
  /-- Part of the vocabulary of plans; no query text denotes it. -/
  | between (low high : String)
  /-- Conditions on fields, all of which have to hold. -/
  | group (fields : List (String × Expression))
  deriving Repr, Inhabited

namespace Expression

mutual

/-- An expression as an object with one member, named for its kind. -/
def toJson : Expression → Json
  | literal text => .single "literal" (.string text)
  | and operands => .single "and" (.array (toJsonItems operands))
  | or operands => .single "or" (.array (toJsonItems operands))
  | not operand => .single "not" (toJson operand)
  | like pattern => .single "like" (.string pattern)
  | notLike pattern => .single "not_like" (.string pattern)
  | oneOf items => .single "in" (.strings items)
  | between low high => .single "between" (.strings [low, high])
  | group fields => .single "group" (.object (toJsonFields fields))

/-- The expressions of a list as values. -/
def toJsonItems : List Expression → List Json
  | [] => []
  | operand :: rest => toJson operand :: toJsonItems rest

/-- The conditions of a group as members. -/
def toJsonFields : List (String × Expression) → List (String × Json)
  | [] => []
  | (field, condition) :: rest => (field, toJson condition) :: toJsonFields rest

end

end Expression

end QueryGate
