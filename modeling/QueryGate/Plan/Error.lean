/-!
# Why a request is rejected

A request is rejected when it asks for something that its filter does not permit,
or when a value in it, or in the filter, cannot be used.
-/

namespace QueryGate

/-- Why a value cannot be used. -/
inductive ValueFault where
  | negative
  | outOfRange
  | notInteger
  | notCount
  | unknownOrder
  | notConditions
  deriving DecidableEq, Repr

/-- What the fault of a value is called in messages. -/
def ValueFault.text : ValueFault → String
  | negative => "must not be negative"
  | outOfRange => "out of range"
  | notInteger => "expected an integer"
  | notCount => "expected a non-negative integer"
  | unknownOrder => "unknown order direction"
  | notConditions => "expected field conditions"

/-- Why there is no plan for a request. -/
inductive PlanError where
  | fieldNotAvailable (entity field : String)
  | relationNotAvailable (entity relation : String)
  | targetNotAvailable (entity function target : String)
  | unknownFunction (function : String)
  | emptyProjection (entity : String)
  | invalidValue (target value : String) (fault : ValueFault)
  deriving DecidableEq, Repr

namespace PlanError

/-- Whether the request asks for something that is not permitted. -/
def isViolation : PlanError → Bool
  | invalidValue .. => false
  | _ => true

/-- The wording of the error. -/
def message : PlanError → String
  | fieldNotAvailable entity field => s!"field '{field}' is not available on '{entity}'"
  | relationNotAvailable entity relation =>
      s!"relation '{relation}' is not available on '{entity}'"
  | targetNotAvailable entity function target =>
      s!"function '{function}' cannot target '{target}' on '{entity}'"
  | unknownFunction function => s!"unknown function '{function}'"
  | emptyProjection entity => s!"no fields left to project on '{entity}'"
  | invalidValue target value fault => s!"invalid value '{value}' for {target}: {fault.text}"

end PlanError

end QueryGate
