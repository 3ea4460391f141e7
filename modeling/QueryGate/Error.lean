import QueryGate.Filter.Error
import QueryGate.Plan.Error
import QueryGate.Query.Error
import QueryGate.Text.Percent

/-!
# Errors

Everything that can go wrong on the way from a query's text to its plan. Each error
has a code, which does not change with the wording of its message.
-/

namespace QueryGate

/-- What went wrong. -/
inductive Error where
  /-- The percent coding of the text. -/
  | decoding (error : DecodeError)
  /-- The grammar of the decoded text. -/
  | query (error : QueryError)
  /-- What the query asks for. -/
  | plan (error : PlanError)
  /-- The configuration, or the choice of an entity. -/
  | config (error : ConfigError)
  deriving DecidableEq, Repr

/-- The code of a fault in query text. -/
def Fault.code : Fault → String
  | unexpected _ => "UnexpectedCharacter"
  | empty _ => "EmptyExpression"
  | unclosed _ => "MissingClosingToken"
  | repeatedInclude _ => "DuplicateInclude"
  | tooDeep _ => "NestingTooDeep"

/-- The code of the reason for a rejection. -/
def PlanError.code : PlanError → String
  | fieldNotAvailable .. => "FieldNotAvailable"
  | relationNotAvailable .. => "RelationNotAvailable"
  | targetNotAvailable .. => "FunctionTargetUnavailable"
  | unknownFunction .. => "UnknownFunction"
  | emptyProjection .. => "EmptyProjection"
  | invalidValue .. => "InvalidValue"

namespace Error

/-- The code of the error. -/
def code : Error → String
  | decoding _ => "DecodeError"
  | query error => error.fault.code
  | plan error => error.code
  | config _ => "ConfigurationError"

/-- The wording of the error. -/
def message : Error → String
  | decoding error => error.message
  | query error => error.message
  | plan error => error.message
  | config error => error.message

end Error

end QueryGate
