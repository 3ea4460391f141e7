import Mathlib
import QueryGate.Proofs.Filter.Build
import QueryGate.Proofs.Plan.Paging
import QueryGate.Proofs.Scanner.WellFormed

/-!
# Relations to at most one row

A limit can come from three sources: a clause of the request, a value that the filter forces,
and the bound on the clause. The filter of a relation to at most one row has lost all three,
so that no plan of such a relation has a limit, wherever it is included.
-/

namespace QueryGate

variable {options : PlanOptions}

/-- The plan of a node has no limit under a filter that serves at most one row. -/
theorem limit_eq_none_of_serving {filter : Filter} {request : Request} {plan : Plan}
    (wellFormed : request.terms.WellFormed)
    (planned : request.plan options (filter.serving true) = .ok plan) : plan.limit = none := by
  rcases (plan_eq_ok_iff.mp planned).paging with ⟨paging, made, _, same, _⟩
  have unforced : Table.get? (filter.serving true).statics.clauses .limit = none := by
    rw [Filter.staticsClauses_serving, Table.get?_filter (Clause.serves true)]
    rfl
  have unasked : Table.get? ((filter.serving true).heeded request.terms.clauses) .limit = none := by
    rw [Filter.get?_heeded, Filter.allowsClause, Filter.clauses_serving]
    simp [Clause.serves]
  have unbounded : (filter.serving true).clauseBound? .limit = none := by
    rw [Filter.clauseBound?, Filter.boundsClauses_serving, Table.get?_filter (Clause.serves true)]
    rfl
  rw [← same, Paging.limit_of_unset wellFormed.clauses_sorted made unforced unasked, unbounded]
  rfl

/-- Each relation that a filter includes is one of its entity, and is served accordingly. -/
theorem Filter.exists_relation_of_include? {schema : Schema} {name : String} {spec : Spec}
    {filter : Filter} (built : Filter.build schema name spec = .ok filter) {path : Path}
    {own : Filter} (found : filter.at? path = some own) {relation : String} {child : Filter}
    (available : own.include? relation = some child) :
    ∃ entity declared inner, schema.entity? own.entity = some entity ∧
      entity.relation? relation = some declared ∧
      child = Filter.serving inner declared.cardinality.isSingular := by
  rcases exists_build_of_include? built found available with
    ⟨entity, declared, _, inner, ownEntity, known, _, same⟩
  exact ⟨entity, declared, inner, ownEntity, known, same⟩

/-- Every relation that a plan includes is one of the entity that the filter of the node is
for; and where the relation leads to at most one row, the included plan has no limit. -/
theorem limit_eq_none_of_singular {schema : Schema} {name : String} {spec : Spec} {filter : Filter}
    (built : Filter.build schema name spec = .ok filter) {scanning : ScanOptions} {text : String}
    {request : Request} (scanned : scan scanning text = .ok request) {planning : PlanOptions}
    {plan : Plan} (planned : request.plan planning filter = .ok plan) {path : Path} {node : Plan}
    (reached : plan.Node path node) {relation : String} {child : Plan}
    (included : (relation, child) ∈ node.includes) :
    ∃ own entity declared, filter.at? path = some own ∧ schema.entity? own.entity = some entity ∧
      entity.relation? relation = some declared ∧
      (declared.cardinality = .hasOne ∨ declared.cardinality = .belongsTo → child.limit = none) := by
  rcases origin_of_node planned reached with ⟨own, source, found, reachedSource, made⟩
  rcases exists_of_mem_planIncludes (plan_eq_ok_iff.mp made).children included with
    ⟨request, member, _, childFilter, available, plannedChild⟩
  rcases Filter.exists_relation_of_include? built found available with
    ⟨entity, declared, inner, ownEntity, known, rfl⟩
  refine ⟨own, entity, declared, found, ownEntity, known, ?_⟩
  intro singular
  have every := (scan_every Terms.WellFormed.kept scanned).at_node reachedSource
  have serves : declared.cardinality.isSingular = true := by
    rcases singular with equal | equal <;> rw [equal] <;> rfl
  rw [serves] at plannedChild
  exact limit_eq_none_of_serving (every.children request member).terms plannedChild

/-- A query that asks for as many authors as for comments. -/
theorem limit_eq_none_of_singular_author :
    ∃ filter request plan author comments, Filter.build .blog "posts" .posts = .ok filter ∧
      scan {} "includes=author(limit=9),comments(limit=9)" = .ok request ∧
      request.plan {} filter = .ok plan ∧
      plan.includes = [("author", author), ("comments", comments)] ∧
      comments.limit = some 5 ∧
      ∃ own entity declared, filter.at? [] = some own ∧
        Schema.blog.entity? own.entity = some entity ∧ entity.relation? "author" = some declared ∧
        (declared.cardinality = .hasOne ∨ declared.cardinality = .belongsTo →
          author.limit = none) := by
  let bounded : Bounds := { clauses := [(.limit, ⟨1, 5⟩)] }
  let filter : Filter :=
    ⟨"posts", ["title", "id"], Clause.all,
      [("author", ⟨"users", ["id", "name"], [.skip, .order, .orderBy], [], {}, .none⟩),
        ("comments", ⟨"comments", ["id", "text"], Clause.all, [], bounded, .none⟩)], {}, .none⟩
  let request : Request :=
    ⟨0, "root", {},
      [⟨1, "author", { clauses := [(.limit, "9")] }, []⟩,
        ⟨2, "comments", { clauses := [(.limit, "9")] }, []⟩]⟩
  let author : Plan := ⟨"users", ["id", "name"], none, [], none, none, none, []⟩
  let comments : Plan := ⟨"comments", ["id", "text"], none, [], none, some 5, none, []⟩
  let plan : Plan :=
    ⟨"posts", ["title", "id"], none, [("author", author), ("comments", comments)], none, none,
      none, []⟩
  have built : Filter.build .blog "posts" .posts = .ok filter := by rfl
  have scanned : scan {} "includes=author(limit=9),comments(limit=9)" = .ok request := by cbv
  have planned : request.plan {} filter = .ok plan := by cbv
  exact ⟨filter, request, plan, author, comments, built, scanned, planned, rfl, rfl,
    limit_eq_none_of_singular built scanned planned (.root plan) List.mem_cons_self⟩

end QueryGate
