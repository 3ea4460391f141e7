import QueryGate.Plan.Paging
import QueryGate.Plan.Predicate

/-!
# Making plans

A plan is made of a request node by node, each against the filter that belongs to
it. The first thing that is not permitted ends the work; there are no partial plans.
-/

namespace QueryGate

namespace Filter

/-- The fields to return: those that are asked for, or else all that may be used. -/
def projection (filter : Filter) (fields : List String) : Except PlanError (List String) :=
  let projection := if fields.isEmpty then filter.attributes else fields
  match projection.find? fun field => !filter.allowsAttribute field with
  | some field => .error (.fieldNotAvailable filter.entity field)
  | none =>
      if projection.isEmpty then .error (.emptyProjection filter.entity)
      else .ok projection

/-- The computation that a function call stands for. The only function counts rows,
or those of a relation that may be included. -/
def computation (filter : Filter) (call : FunctionCall) : Except PlanError Computation :=
  if call.name ≠ "count" then .error (.unknownFunction call.name)
  else
    let unavailable : Except PlanError Computation :=
      .error (.targetNotAvailable filter.entity call.name (",".intercalate call.arguments))
    match call.arguments with
    | [] => .ok ⟨call.name, [], "count"⟩
    | [relation] =>
        if (filter.include? relation).isSome then
          .ok ⟨call.name, [relation], relation ++ "_count"⟩
        else unavailable
    | _ => unavailable

/-- Checks that each relation may be included. -/
def checkIncludes (filter : Filter) : List Request → Except PlanError Unit
  | [] => .ok ()
  | request :: rest =>
      if (filter.include? request.name).isSome then filter.checkIncludes rest
      else .error (.relationNotAvailable filter.entity request.name)

end Filter

mutual

/-- The plan of a request under a filter. -/
def Request.plan (options : PlanOptions) (filter : Filter) : Request → Except PlanError Plan
  | ⟨_, _, terms, includes⟩ => do
      filter.checkIncludes includes
      let projection ← filter.projection terms.fields
      let functions ← terms.functions.mapM filter.computation
      let paging ← Paging.ofClauses filter terms.clauses
      let order ← paging.rowOrder options
      let children ← Request.planIncludes options filter includes
      let predicate ← filter.predicate terms.predicates
      return {
        entity := filter.entity
        projection := projection
        predicate := predicate
        includes := children
        order := order
        limit := paging.limit
        offset := paging.offset
        functions := functions }

/-- The plans of the relations that a request includes. -/
def Request.planIncludes (options : PlanOptions) (filter : Filter) :
    List Request → Except PlanError (List (String × Plan))
  | [] => .ok []
  | request :: rest =>
      match filter.include? request.name with
      | none => .error (.relationNotAvailable filter.entity request.name)
      | some child => do
          let plan ← request.plan options child
          let plans ← Request.planIncludes options filter rest
          return (request.name, plan) :: plans

end

end QueryGate
