import Mathlib
import QueryGate.Proofs.Plan.Meaning
import QueryGate.Proofs.Request.Numbering
import QueryGate.Proofs.Scanner.Groups

/-!
# What groups side by side demand

A query of several groups has the plan of any one of them with another predicate. The predicate
holds when those of all the groups hold that no later group of the same connective follows: a
later one is kept in place of an earlier one, under the word that they share.
-/

namespace QueryGate

/-! ### Rows of a predicate one by one -/

namespace Filter

variable {filter : Filter}

theorem Resolves.unique {row : String × Expression} {result other : String × Condition}
    (resolves : filter.Resolves row result) (otherwise : filter.Resolves row other) :
    result = other := by
  obtain ⟨same, role, placed, resolved⟩ := resolves
  obtain ⟨sameOther, roleOther, placedOther, resolvedOther⟩ := otherwise
  rw [placed, Except.ok.injEq] at placedOther
  rw [← placedOther, resolved, Except.ok.injEq] at resolvedOther
  exact Prod.ext (same.trans sameOther.symm) resolvedOther

/-- There is a predicate exactly when each row resolves. -/
theorem exists_predicate_iff_resolves {predicates : Table String Expression} :
    (∃ predicate, filter.predicate predicates = .ok predicate) ↔
      ∀ row ∈ predicates, ∃ result, filter.Resolves row result := by
  rw [← exists_forall₂_iff]
  simp only [predicate_eq_ok_iff, ← resolveFields_eq_ok_iff]
  constructor
  · rintro ⟨_, demanded, resolved, -⟩
    exact ⟨demanded, resolved⟩
  · rintro ⟨demanded, resolved⟩
    exact ⟨_, demanded, resolved, rfl⟩

/-- What a row of a request demands holds, unless something else is forced in its place. -/
def Upholds (filter : Filter) (truth : Assignment) (row : String × Expression) : Prop :=
  filter.forcesAttribute row.1 = false →
    ∀ result, filter.Resolves row result → result.2.holds truth row.1 = true

/-- A predicate holds when each of its rows does, and everything that is forced. -/
theorem holds_iff_upholds {predicates : Table String Expression} (sorted : predicates.Sorted)
    {plan : Plan} (made : filter.predicate predicates = .ok plan.predicate) (truth : Assignment) :
    plan.holds truth = true ↔ (∀ row ∈ predicates, filter.Upholds truth row) ∧
      filter.statics.attributes.all fun row => truth row.1 (.equals row.2) := by
  obtain ⟨demanded, resolved, rows⟩ := rows_of_predicate made
  have pairs := resolveFields_eq_ok_iff.mp resolved
  rw [Plan.holds_eq_rowsHold, rows, rowsHold_force (sorted_of_resolveFields resolved sorted),
    Bool.and_eq_true, Condition.rowsHold_eq_all, List.all_map, List.all_eq_true]
  apply and_congr_left'
  constructor
  · intro every row member unforced result resolves
    obtain ⟨found, inDemanded, resolvesFound⟩ := exists_of_mem_right pairs.flip member
    cases resolves.unique resolvesFound
    have kept := every result (List.mem_filter.mpr ⟨inDemanded, by simp [resolves.1, unforced]⟩)
    rwa [Function.comp_apply, id, resolves.1] at kept
  · intro every result member
    obtain ⟨inDemanded, unforced⟩ := List.mem_filter.mp member
    obtain ⟨row, inPredicates, resolves⟩ := exists_of_mem_right pairs inDemanded
    rw [resolves.1, Bool.not_eq_true'] at unforced
    rw [Function.comp_apply, id, resolves.1]
    exact every row inPredicates unforced result resolves

end Filter

/-- With other predicates a request has the plan that differs in nothing but these. -/
theorem Request.plan_of_predicates {planning : PlanOptions} {filter : Filter} {number : Nat}
    {name : String} {terms : Terms} {includes : List Request} {plan : Plan}
    (planned : (⟨number, name, terms, includes⟩ : Request).plan planning filter = .ok plan)
    {others : Table String Expression} {predicate : Option (Table String Condition)}
    (made : filter.predicate others = .ok predicate) :
    (⟨number, name, { terms with predicates := others }, includes⟩ : Request).plan planning filter =
      .ok { plan with predicate := predicate } := by
  have parts := plan_eq_ok_iff.mp planned
  exact plan_eq_ok_iff.mpr ⟨parts.entity, parts.included, parts.projection, parts.functions,
    parts.paging, parts.children, made⟩

/-! ### Groups that have plans -/

/-- A group that by itself is a query that has a plan. -/
structure PlannedGroup (scanning : ScanOptions) (planning : PlanOptions) (filter : Filter)
    extends ScannedGroup scanning where
  plan : Plan
  planned : request.plan planning filter = .ok plan

namespace PlannedGroup

variable {scanning : ScanOptions} {planning : PlanOptions} {filter : Filter}

/-- The query in which the groups stand side by side. -/
def query (groups : List (PlannedGroup scanning planning filter)) : String :=
  ScannedGroup.query (groups.map toScannedGroup)

theorem plan_ofPredicates (group : PlannedGroup scanning planning filter) :
    (Request.ofPredicates [group.row]).plan planning filter = .ok group.plan := by
  obtain ⟨request, scanned, same⟩ := ScannedGroup.exists_scan_query [group.toScannedGroup]
  have single : ScannedGroup.query [group.toScannedGroup] = group.text := by
    simp [ScannedGroup.query]
  rw [single, group.scanned, Except.ok.injEq] at scanned
  have alone : Table.ofRows [group.row] = [group.row] := rfl
  rw [← scanned, List.map_singleton, alone] at same
  rw [← same, Request.plan_unnumbered, group.planned]

theorem predicate_row (group : PlannedGroup scanning planning filter) :
    filter.predicate [group.row] = .ok group.plan.predicate :=
  (plan_eq_ok_iff.mp group.plan_ofPredicates).predicate

/-- A query of groups has a plan, whose predicate is made of the last group of each
connective. -/
theorem exists_plan_query {groups : List (PlannedGroup scanning planning filter)}
    (written : groups ≠ []) :
    ∃ request plan, scan scanning (query groups) = .ok request ∧
      request.plan planning filter = .ok plan ∧
      filter.predicate (Table.ofRows (groups.map fun group => group.row)) = .ok plan.predicate := by
  obtain ⟨request, scanned, same⟩ :=
    ScannedGroup.exists_scan_query (groups.map toScannedGroup)
  rw [List.map_map] at same
  obtain ⟨group, -⟩ := List.exists_mem_of_ne_nil groups written
  have resolves : ∃ predicate,
      filter.predicate (Table.ofRows (groups.map fun group => group.row)) = .ok predicate := by
    apply Filter.exists_predicate_iff_resolves.mpr
    intro row member
    obtain ⟨other, -, rfl⟩ := List.mem_map.mp (Table.mem_ofRows member)
    exact Filter.exists_predicate_iff_resolves.mp ⟨_, other.predicate_row⟩ _
      List.mem_cons_self
  obtain ⟨predicate, made⟩ := resolves
  refine ⟨request, { group.plan with predicate := predicate }, scanned, ?_, made⟩
  rw [← Request.plan_unnumbered, same]
  exact Request.plan_of_predicates group.plan_ofPredicates made

/-- The rows that are kept of groups are those of the last group of each connective. -/
theorem forall_mem_ofRows_iff {groups : List (PlannedGroup scanning planning filter)}
    {Good : String × Expression → Prop} :
    (∀ row ∈ Table.ofRows (groups.map fun group => group.row), Good row) ↔
      ∀ group, Lasts (fun group => group.joining) groups group → Good group.row := by
  have words (group : PlannedGroup scanning planning filter) :
      Lasts (Prod.fst ∘ fun group => group.row) groups group ↔
        Lasts (fun group => group.joining) groups group :=
    Lasts.comp_iff Connective.word_injective
  simp only [Table.mem_ofRows_iff, Lasts.map_iff, words]
  constructor
  · intro every group lasts
    exact every _ ⟨group, lasts, rfl⟩
  · rintro every _ ⟨group, lasts, rfl⟩
    exact every group lasts

end PlannedGroup

/-- Groups that have plans by themselves have one as a query, and its predicate holds exactly
when those of all groups do that no later group of the same connective follows. Where no two
groups have the same connective, these are all the groups. -/
theorem holds_of_groups {scanning : ScanOptions} {planning : PlanOptions} {filter : Filter}
    {groups : List (PlannedGroup scanning planning filter)} (written : groups ≠ []) :
    ∃ request plan, scan scanning (PlannedGroup.query groups) = .ok request ∧
      request.plan planning filter = .ok plan ∧ ∀ truth,
        (plan.holds truth = true ↔
          ∀ group, Lasts (fun group => group.joining) groups group →
            group.plan.holds truth = true) ∧
        ((groups.map fun group => group.joining).Nodup →
          (plan.holds truth = true ↔ ∀ group ∈ groups, group.plan.holds truth = true)) := by
  obtain ⟨request, plan, scanned, planned, made⟩ := PlannedGroup.exists_plan_query written
  refine ⟨request, plan, scanned, planned, fun truth => ?_⟩
  have lasts : plan.holds truth = true ↔
      ∀ group, Lasts (fun group => group.joining) groups group →
        group.plan.holds truth = true := by
    have each (group : PlannedGroup scanning planning filter) :=
      Filter.holds_iff_upholds (List.pairwise_singleton _ group.row) group.predicate_row truth
    simp only [Filter.holds_iff_upholds (Table.sorted_ofRows _) made truth, each,
      List.forall_mem_singleton, PlannedGroup.forall_mem_ofRows_iff]
    constructor
    · rintro ⟨upheld, forced⟩ group last
      exact ⟨upheld group last, forced⟩
    · intro every
      have some : ∃ group, Lasts (fun group => group.joining) groups group :=
        Lasts.exists_of_ne_nil written
      obtain ⟨group, last⟩ := some
      exact ⟨fun other lastOther => (every other lastOther).1, (every group last).2⟩
  refine ⟨lasts, fun distinct => lasts.trans ⟨?_, ?_⟩⟩
  · intro every group member
    exact every group (.of_nodup distinct member)
  · intro every group last
    exact every group last.mem

/-- A filter of posts, which may be asked for by their numbers and titles. -/
def Filter.posts : Filter where
  entity := "posts"
  attributes := ["id", "title"]
  clauses := Clause.all
  includes := []
  bounds := {}
  statics := .none

namespace PlannedGroup

/-- A disjunction of one condition on numbers. -/
def byNumber : PlannedGroup {} {} .posts where
  text := "or(id=1)"
  joining := .or
  expression := .or [.group [("id", .literal "1")]]
  request := ⟨0, "root", { predicates := [("or", .or [.group [("id", .literal "1")]])] }, []⟩
  plan := ⟨"posts", ["id", "title"],
    some [("or", .operands [.fields [("id", .equals (.number (.int 1)))]])], [],
    none, none, none, []⟩
  read := by cbv
  scanned := by cbv
  planned := by cbv

/-- A disjunction of one condition on titles. -/
def byTitle : PlannedGroup {} {} .posts where
  text := "or(title=x)"
  joining := .or
  expression := .or [.group [("title", .literal "x")]]
  request := ⟨0, "root", { predicates := [("or", .or [.group [("title", .literal "x")]])] }, []⟩
  plan := ⟨"posts", ["id", "title"],
    some [("or", .operands [.fields [("title", .equals (.string "x"))]])], [],
    none, none, none, []⟩
  read := by cbv
  scanned := by cbv
  planned := by cbv

/-- A negation of one condition on titles, by the other word for it. -/
def exceptTitle : PlannedGroup {} {} .posts where
  text := "!(title=a)"
  joining := .not
  expression := .not (.group [("title", .literal "a")])
  request := ⟨0, "root", { predicates := [("not", .not (.group [("title", .literal "a")]))] }, []⟩
  plan := ⟨"posts", ["id", "title"],
    some [("not", .fields [("title", .equals (.string "a"))])], [],
    none, none, none, []⟩
  read := by cbv
  scanned := by cbv
  planned := by cbv

end PlannedGroup

open PlannedGroup

/-- A disjunction and a negation, and another disjunction in place of the first. -/
theorem holds_of_groups_posts :
    [byNumber, exceptTitle, byTitle] ≠ [] ∧
      ∃ request plan, scan {} "or(id=1)&!(title=a)&or(title=x)" = .ok request ∧
        request.plan {} .posts = .ok plan ∧ ∀ truth, plan.holds truth = true ↔
          ∀ group, Lasts (fun group => group.joining) [byNumber, exceptTitle, byTitle] group →
            group.plan.holds truth = true := by
  have written : [byNumber, exceptTitle, byTitle] ≠ [] := List.cons_ne_nil _ _
  obtain ⟨request, plan, scanned, planned, holds⟩ := holds_of_groups written
  exact ⟨written, request, plan, scanned, planned, fun truth => (holds truth).1⟩

/-- Of two disjunctions, the first does not constrain the result of the query. -/
theorem exists_group_passed_over :
    Filter.posts.KeepsConnectives ∧ Filter.posts.statics = .none ∧
      ∃ request plan, scan {} "or(id=1)&or(title=x)" = .ok request ∧
        request.plan {} .posts = .ok plan ∧
        ∃ truth, plan.holds truth = true ∧ byTitle.plan.holds truth = true ∧
          byNumber.plan.holds truth = false := by
  have free : Filter.posts.KeepsConnectives := by
    intro joining
    cases joining <;> decide
  have scanned : scan {} "or(id=1)&or(title=x)" = .ok byTitle.request := by cbv
  exact ⟨free, rfl, byTitle.request, byTitle.plan, scanned, byTitle.planned,
    fun field _ => field == "title", by decide, by decide, by decide⟩

end QueryGate
