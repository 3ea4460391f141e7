import QueryGate.Filter.Basic
import QueryGate.Json.Printer
import QueryGate.Plan.Basic
import QueryGate.Plan.Error
import QueryGate.Plan.Literal
import QueryGate.Query.Request

/-!
# Predicates

How the conditions of a request become the predicate of a plan. A condition stands
under a name. Under the name of a permitted attribute it is about that attribute,
whatever the name; under the word of a connective it is a group.
-/

namespace QueryGate

/-- The part that an expression plays where it stands. -/
inductive Role where
  /-- It is about the value of a field. -/
  | value (field : String)
  /-- It is a group, which stands under the word of its connective. -/
  | group (key : String)
  /-- It is one operand of a group that stands under that word. -/
  | operand (key : String)
  deriving DecidableEq, Repr

namespace Filter

/-- The value of a literal that is about a field, forced into the field's bound. -/
def literal (filter : Filter) (field raw : String) : Json :=
  match filter.attributeBound? field with
  | some bound => bound.clampJson (typedLiteral raw)
  | none => typedLiteral raw

/-- The part that the expression under a name plays, if it may stand there. -/
def roleOf (filter : Filter) (name : String) : Except PlanError Role :=
  if filter.allowsAttribute name then .ok (.value name)
  else if (Connective.ofWord? name).isSome then .ok (.group name)
  else .error (.fieldNotAvailable filter.entity name)

/-- The error of a group that holds something other than conditions on fields. -/
def notConditions {α : Type} (key : String) (expression : Expression) : Except PlanError α :=
  .error (.invalidValue key expression.toJson.compact .notConditions)

/-- The operands of a connective, as a condition that names the connective. -/
def nested (connective : Connective) (condition : Condition) : Condition :=
  .fields [(connective.word, condition)]

mutual

/-- The condition that an expression means in its role. -/
def resolve (filter : Filter) : Expression → Role → Except PlanError Condition
  | .literal raw, .value field => .ok (.equals (filter.literal field raw))
  | .not operand, .value field => (resolve filter operand (.value field)).map .not
  | .and operands, .value field => (resolveAll filter operands (.value field)).map .and
  | .or operands, .value field => (resolveAll filter operands (.value field)).map .or
  | .like pattern, .value _ => .ok (.like pattern)
  | .notLike pattern, .value _ => .ok (.notLike pattern)
  | .oneOf items, .value field => .ok (.oneOf (items.map (filter.literal field)))
  | .between low high, .value field =>
      .ok (.between (filter.literal field low) (filter.literal field high))
  | .group fields, .value _ => (resolveFields filter fields).map .fields
  | .and operands, .group key => (resolveAll filter operands (.operand key)).map .operands
  | .or operands, .group key => (resolveAll filter operands (.operand key)).map .operands
  | .not operand, .group key => resolve filter operand (.operand key)
  | .and operands, .operand _ =>
      (resolveAll filter operands (.operand Connective.and.word)).map fun conditions =>
        nested .and (.operands conditions)
  | .or operands, .operand _ =>
      (resolveAll filter operands (.operand Connective.or.word)).map fun conditions =>
        nested .or (.operands conditions)
  | .not operand, .operand _ =>
      (resolve filter operand (.operand Connective.not.word)).map (nested .not)
  | .group fields, .operand _ => (resolveFields filter fields).map .fields
  | expression, .group key => notConditions key expression
  | expression, .operand key => notConditions key expression

/-- The conditions that several expressions mean in one role. -/
def resolveAll (filter : Filter) : List Expression → Role → Except PlanError (List Condition)
  | [], _ => .ok []
  | expression :: rest, role => do
      let condition ← resolve filter expression role
      let conditions ← resolveAll filter rest role
      return condition :: conditions

/-- The conditions that expressions mean under their names. -/
def resolveFields (filter : Filter) :
    List (String × Expression) → Except PlanError (List (String × Condition))
  | [] => .ok []
  | (name, expression) :: rest => do
      let role ← filter.roleOf name
      let condition ← resolve filter expression role
      let conditions ← resolveFields filter rest
      return (name, condition) :: conditions

end

/-- What is demanded, and in place of it what the filter forces. -/
def force (filter : Filter) (demanded : Table String Condition) : Table String Condition :=
  Table.override demanded (Table.mapValues .equals filter.statics.attributes)

/-- The predicate of a plan: what the request demands and the filter forces. There is
none when that is nothing. -/
def predicate (filter : Filter) (predicates : Table String Expression) :
    Except PlanError (Option (Table String Condition)) := do
  let demanded ← filter.resolveFields predicates
  let rows := filter.force demanded
  return if rows.isEmpty then none else some rows

end Filter

end QueryGate
