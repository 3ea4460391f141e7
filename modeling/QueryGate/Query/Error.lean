import QueryGate.Vocabulary

/-!
# Errors in query text

Every error has a position: the number of characters of the decoded query text
before the place it is about.
-/

namespace QueryGate

/-- A part of a query that must not be empty. -/
inductive Part where
  | parameterName
  | parameterValue
  | relationName
  | clause (directive : Clause)
  | name
  | fieldList
  | fieldName
  | functionList
  | functionCall
  | functionName
  | functionArgument
  | operatorArgument
  | itemList
  | item
  | group
  | groupValue
  deriving DecidableEq, Repr

/-- What a part is called in messages. -/
def Part.text : Part → String
  | parameterName => "parameter name"
  | parameterValue => "parameter value"
  | relationName => "relation name"
  | clause directive => directive.name
  | name => "name"
  | fieldList => "field list"
  | fieldName => "field name"
  | functionList => "function list"
  | functionCall => "function call"
  | functionName => "function name"
  | functionArgument => "function argument"
  | operatorArgument => "operator argument"
  | itemList => "in-list"
  | item => "in-list item"
  | group => "predicate group"
  | groupValue => "predicate value"

/-- What is wrong at a place of a query text. -/
inductive Fault where
  /-- The character there cannot stand there. -/
  | unexpected (found : Char)
  /-- A part is missing there. -/
  | empty (part : Part)
  /-- The text ends there, before a bracket is closed. -/
  | unclosed (expected : Char)
  /-- A relation is included a second time although that is forbidden. -/
  | repeatedInclude (name : String)
  /-- Relations or brackets are nested deeper than the limit. -/
  | tooDeep (limit : Nat)
  deriving DecidableEq, Repr

/-- What a fault is called in messages. -/
def Fault.text : Fault → String
  | unexpected found => s!"unexpected character '{found}'"
  | empty part => s!"empty {part.text}"
  | unclosed expected => s!"missing closing '{expected}'"
  | repeatedInclude name => s!"include '{name}' requested more than once"
  | tooDeep limit => s!"expression nested deeper than {limit} levels"

/-- An error in query text: a fault and its place. -/
structure QueryError where
  position : Nat
  fault : Fault
  deriving DecidableEq, Repr

namespace QueryError

/-- The wording of the error. -/
def message (error : QueryError) : String :=
  s!"{error.fault.text} at position {error.position}"

/-- The error of a character that cannot stand at its place. -/
def unexpected (position : Nat) (found : Char) : QueryError := ⟨position, .unexpected found⟩

/-- The error of a part that is missing. -/
def empty (position : Nat) (part : Part) : QueryError := ⟨position, .empty part⟩

/-- The error of a bracket that is not closed. -/
def unclosed (position : Nat) (expected : Char) : QueryError := ⟨position, .unclosed expected⟩

end QueryError

end QueryGate
