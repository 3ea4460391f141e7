/-!
# Configuration errors

What can be wrong with a configuration: with its file, with its text, or with a
filter that does not fit the schema.
-/

namespace QueryGate

/-- Why a bound cannot be used. -/
inductive BoundFault where
  | minAboveMax
  | negative
  deriving DecidableEq, Repr

/-- What the fault of a bound is called in messages. -/
def BoundFault.text : BoundFault → String
  | minAboveMax => "min is greater than max"
  | negative => "clause bounds must not be negative"

/-- What is wrong with a configuration. -/
inductive ConfigError where
  | unknownEntity (entity : String)
  | unknownRelation (entity relation : String)
  | unknownAttribute (entity name : String)
  | invalidBound (entity name : String) (min max : Int) (fault : BoundFault)
  /-- The file cannot be read, or is not UTF-8. -/
  | unreadable
  /-- The text is not JSON, or not that of a configuration. -/
  | malformed
  deriving DecidableEq, Repr

/-- The wording of the error. -/
def ConfigError.message : ConfigError → String
  | unknownEntity entity => s!"unknown entity '{entity}'"
  | unknownRelation entity relation => s!"entity '{entity}' has no relation '{relation}'"
  | unknownAttribute entity name => s!"entity '{entity}' has no attribute '{name}'"
  | invalidBound entity name min max fault =>
      s!"bound {min}..={max} for '{name}' on '{entity}' is invalid: {fault.text}"
  | unreadable => "cannot read config file"
  | malformed => "cannot parse config file"

end QueryGate
