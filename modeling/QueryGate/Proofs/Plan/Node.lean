import QueryGate.Plan.Build
import QueryGate.Proofs.Request.Every
import QueryGate.Proofs.Result

/-!
# Nodes of plans

Every node of a plan is reached by a path of relation names. The filter and the node
of the request that are reached by the same path are the ones that it was made of,
so that a statement about every node of a plan is one about the making of a node.
-/

namespace QueryGate

/-- The filter at the end of a path of relations that may be included. -/
def Filter.at? (filter : Filter) : Path → Option Filter
  | [] => some filter
  | relation :: path => (filter.include? relation).bind fun child => child.at? path

theorem Filter.isSome_include?_iff {filter : Filter} {relation : String} :
    (filter.include? relation).isSome ↔ relation ∈ Table.keys filter.includes :=
  Table.isSome_get?_iff

/-- The nodes of a plan at the end of a path of relations. -/
inductive Plan.Node : Plan → Path → Plan → Prop where
  | root (plan : Plan) : Node plan [] plan
  | child {plan child node : Plan} {relation : String} {path : Path} :
      (relation, child) ∈ plan.includes → Node child path node →
      Node plan (relation :: path) node

/-- What makes a plan the plan of a request under a filter, part by part. -/
structure Request.PlannedAs (options : PlanOptions) (filter : Filter) (request : Request)
    (plan : Plan) : Prop where
  entity : plan.entity = filter.entity
  included : filter.checkIncludes request.includes = .ok ()
  projection : filter.projection request.terms.fields = .ok plan.projection
  functions : request.terms.functions.mapM filter.computation = .ok plan.functions
  paging : ∃ paging, Paging.ofClauses filter request.terms.clauses = .ok paging ∧
    paging.rowOrder options = .ok plan.order ∧
    paging.limit = plan.limit ∧ paging.offset = plan.offset
  children : Request.planIncludes options filter request.includes = .ok plan.includes
  predicate : filter.predicate request.terms.predicates = .ok plan.predicate

variable {options : PlanOptions} {filter : Filter} {request : Request} {plan : Plan}

/-- A request has a plan exactly when each part of the plan can be made. -/
theorem plan_eq_ok_iff :
    request.plan options filter = .ok plan ↔ request.PlannedAs options filter plan := by
  rcases request with ⟨number, name, terms, includes⟩
  simp only [Request.plan, bind_eq_ok_iff, pure_eq_ok_iff]
  constructor
  · rintro ⟨_, included, projection, projected, functions, computed, paging, paged, order,
      ordered, children, planned, predicate, resolved, rfl⟩
    exact ⟨rfl, included, projected, computed, ⟨paging, paged, ordered, rfl, rfl⟩, planned,
      resolved⟩
  · intro made
    rcases plan with ⟨entity, projection, predicate, children, order, limit, offset, functions⟩
    rcases made with
      ⟨rfl, included, projected, computed, ⟨paging, paged, ordered, rfl, rfl⟩, planned, resolved⟩
    exact ⟨(), included, projection, projected, functions, computed, paging, paged, order,
      ordered, children, planned, predicate, resolved, rfl⟩

/-- Includes are planned one by one, each under the filter of its relation. -/
theorem planIncludes_eq_ok_iff {includes : List Request} {children : List (String × Plan)} :
    Request.planIncludes options filter includes = .ok children ↔
      List.Forall₂ (fun child row => row.1 = child.name ∧ ∃ own,
        filter.include? child.name = some own ∧ child.plan options own = .ok row.2)
        includes children := by
  induction includes generalizing children with
  | nil =>
      rw [Request.planIncludes, List.forall₂_nil_left_iff, Except.ok.injEq]
      exact eq_comm
  | cons child rest hypothesis =>
      rw [Request.planIncludes, List.forall₂_cons_left_iff]
      cases available : filter.include? child.name with
      | none => simp
      | some own =>
          simp only [bind_eq_ok_iff, pure_eq_ok_iff, hypothesis]
          constructor
          · rintro ⟨plan, planned, others, later, rfl⟩
            exact ⟨_, _, ⟨rfl, own, rfl, planned⟩, later, rfl⟩
          · rintro ⟨⟨name, plan⟩, others, ⟨same, other, equal, planned⟩, later, rfl⟩
            cases equal
            cases same
            exact ⟨plan, planned, others, later, rfl⟩

/-- Each included plan is that of a child of its name, under the relation's filter. -/
theorem exists_of_mem_planIncludes {includes : List Request} {children : List (String × Plan)}
    (planned : Request.planIncludes options filter includes = .ok children)
    {row : String × Plan} (member : row ∈ children) :
    ∃ child ∈ includes, row.1 = child.name ∧ ∃ own,
      filter.include? row.1 = some own ∧ child.plan options own = .ok row.2 := by
  rcases exists_of_mem_right (planIncludes_eq_ok_iff.mp planned) member with
    ⟨child, childMember, same, own, available, plannedChild⟩
  exact ⟨child, childMember, same, own, same ▸ available, plannedChild⟩

/-- Every node of a plan is the plan of a node of the request, under the filter that
is reached by the same relations. -/
theorem origin_of_node (planned : request.plan options filter = .ok plan) {path : Path}
    {node : Plan} (reached : plan.Node path node) :
    ∃ own source, filter.at? path = some own ∧ request.Node path source ∧
      source.plan options own = .ok node := by
  induction reached generalizing request filter with
  | root => exact ⟨filter, request, rfl, .root request, planned⟩
  | child member _ hypothesis =>
      rcases exists_of_mem_planIncludes (plan_eq_ok_iff.mp planned).children member with
        ⟨child, childMember, same, childFilter, available, plannedChild⟩
      rcases hypothesis plannedChild with ⟨own, source, found, reachedSource, made⟩
      refine ⟨own, source, ?_, ?_, made⟩
      · rw [Filter.at?, available]
        exact found
      · cases same
        exact .child childMember reachedSource

/-- Every node of a request that has a plan comes to a node of the plan, under the filter
that is reached by the same relations. -/
theorem exists_node_of_plan (planned : request.plan options filter = .ok plan) {path : Path}
    {source : Request} (reached : request.Node path source) :
    ∃ own node, filter.at? path = some own ∧ plan.Node path node ∧
      source.plan options own = .ok node := by
  induction reached generalizing plan filter with
  | root => exact ⟨filter, plan, rfl, .root plan, planned⟩
  | child member _ hypothesis =>
      have pairs := planIncludes_eq_ok_iff.mp (plan_eq_ok_iff.mp planned).children
      rcases exists_of_mem_right pairs.flip member with
        ⟨⟨relation, childPlan⟩, rowMember, same, childFilter, available, plannedChild⟩
      rcases hypothesis plannedChild with ⟨own, node, found, reachedNode, made⟩
      refine ⟨own, node, ?_, ?_, made⟩
      · rw [Filter.at?, available]
        exact found
      · cases same
        exact .child rowMember reachedNode

/-- A filter of articles, of which only published ones are served, with their comments. -/
def Filter.articles : Filter where
  entity := "articles"
  attributes := ["id", "title", "author"]
  clauses := Clause.all
  includes := [
    ("comments", {
      entity := "comments"
      attributes := ["author"]
      clauses := [.limit]
      includes := []
      bounds := {}
      statics := .none })]
  bounds := { clauses := [(.limit, ⟨1, 10⟩)] }
  statics := .ofRows [("published", .bool true)] []

end QueryGate
