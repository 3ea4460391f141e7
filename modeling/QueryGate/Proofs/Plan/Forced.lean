import Mathlib
import QueryGate.Proofs.Plan.Node
import QueryGate.Proofs.Plan.Paging
import QueryGate.Proofs.Plan.Resolve
import QueryGate.Query.Scanner

/-!
# What is beyond the reach of a request

Two statements on pairs of requests. What a filter forces is the same in both plans,
at every node. And requests that differ only in clauses that the filters pass over
have the same plan, or are rejected for the same reason.
-/

namespace QueryGate

/-- What a filter forces stands in a plan as the filter says. -/
structure Plan.Obeys (options : PlanOptions) (own : Filter) (node : Plan) : Prop where
  attributes : ∀ {name value}, Table.get? own.statics.attributes name = some value →
    node.condition? name = some (.equals value)
  limit : ∀ {value}, Table.get? own.statics.clauses .limit = some value →
    node.limit = staticCount? value
  offset : ∀ {value}, Table.get? own.statics.clauses .skip = some value →
    node.offset = staticCount? value
  order : ∀ {word column}, Table.get? own.statics.clauses .order = some word →
    Table.get? own.statics.clauses .orderBy = some column →
    node.order = RowOrder.ofWord? options.aggregates (staticText column) (staticText word)

/-- Two plans have in common what a filter forces. -/
structure Plan.ForcedAlike (first : Plan) (own : Filter) (second : Plan) : Prop where
  attributes : ∀ name value, Table.get? own.statics.attributes name = some value →
    first.condition? name = some (.equals value) ∧ second.condition? name = some (.equals value)
  limit : (Table.get? own.statics.clauses .limit).isSome → first.limit = second.limit
  offset : (Table.get? own.statics.clauses .skip).isSome → first.offset = second.offset
  order : (Table.get? own.statics.clauses .order).isSome →
    (Table.get? own.statics.clauses .orderBy).isSome → first.order = second.order

variable {options : PlanOptions} {filter : Filter}

/-- Every plan of a node obeys the filter that it was made under. -/
theorem obeys_of_plan {request : Request} {node : Plan}
    (made : request.plan options filter = .ok node) : node.Obeys options filter := by
  have parts := plan_eq_ok_iff.mp made
  rcases parts.paging with ⟨paging, paged, placed, limited, skipped⟩
  constructor
  · intro name value forced
    rcases Filter.rows_of_predicate parts.predicate with ⟨demanded, _, rows⟩
    rw [Plan.condition?_eq_get?, rows, Filter.get?_force, forced]
    rfl
  · intro value forced
    rw [← limited, Paging.limit_of_forced paged forced]
  · intro value forced
    rw [← skipped, Paging.offset_of_forced paged forced]
  · intro word column forcedWord forcedColumn
    rw [Paging.rowOrder, Paging.order_of_forced paged forcedWord,
      Paging.orderBy_of_forced paged forcedColumn] at placed
    simp only [Option.isNone_some, Bool.and_self, Bool.false_eq_true, ↓reduceIte,
      Option.getD_some] at placed
    split at placed
    · rename_i read
      rw [← Except.ok.inj placed, read]
    · cases placed

theorem forcedAlike_of_obeys {own : Filter} {first second : Plan}
    (obeysFirst : first.Obeys options own) (obeysSecond : second.Obeys options own) :
    first.ForcedAlike own second := by
  constructor
  · intro name value forced
    exact ⟨obeysFirst.attributes forced, obeysSecond.attributes forced⟩
  · intro forced
    rcases Option.isSome_iff_exists.mp forced with ⟨value, found⟩
    rw [obeysFirst.limit found, obeysSecond.limit found]
  · intro forced
    rcases Option.isSome_iff_exists.mp forced with ⟨value, found⟩
    rw [obeysFirst.offset found, obeysSecond.offset found]
  · intro forcedWord forcedColumn
    rcases Option.isSome_iff_exists.mp forcedWord with ⟨word, foundWord⟩
    rcases Option.isSome_iff_exists.mp forcedColumn with ⟨column, foundColumn⟩
    rw [obeysFirst.order foundWord foundColumn, obeysSecond.order foundWord foundColumn]

/-! ## Clauses that are passed over -/

/-- The terms differ at most in clauses that the filter passes over. -/
structure Terms.AskAlike (filter : Filter) (first second : Terms) : Prop where
  fields : first.fields = second.fields
  clauses : filter.heeded first.clauses = filter.heeded second.clauses
  predicates : first.predicates = second.predicates
  functions : first.functions = second.functions

mutual

/-- The nodes of two requests differ at most in clauses that their filters pass over. -/
def Request.AskAlike (filter : Filter) : Request → Request → Prop
  | ⟨_, _, terms, includes⟩, ⟨_, _, others, otherIncludes⟩ =>
      terms.AskAlike filter others ∧ Request.AskAlikeAll filter includes otherIncludes

/-- The relations of two requests are the same, and their nodes differ in no more. -/
def Request.AskAlikeAll (filter : Filter) : List Request → List Request → Prop
  | [], [] => True
  | child :: rest, other :: others =>
      child.name = other.name ∧
        (∀ own, filter.include? child.name = some own → child.AskAlike own other) ∧
        Request.AskAlikeAll filter rest others
  | _, _ => False

end

theorem ofClauses_eq_of_heeded {first second : Table Clause String}
    (alike : filter.heeded first = filter.heeded second) :
    Paging.ofClauses filter first = Paging.ofClauses filter second := by
  rw [Paging.ofClauses, Paging.ofClauses, Paging.foldlM_heeded first, Paging.foldlM_heeded second,
    alike]

theorem checkIncludes_eq_of_askAlikeAll {includes others : List Request}
    (alike : Request.AskAlikeAll filter includes others) :
    filter.checkIncludes includes = filter.checkIncludes others := by
  induction includes generalizing others with
  | nil =>
      cases others with
      | nil => rfl
      | cons other others => cases alike
  | cons child rest hypothesis =>
      cases others with
      | nil => cases alike
      | cons other others =>
          rcases alike with ⟨same, _, later⟩
          rw [Filter.checkIncludes, Filter.checkIncludes, same, hypothesis later]

mutual

/-- Clauses that are passed over change neither a plan nor an error. -/
theorem plan_eq_of_askAlike (options : PlanOptions) (filter : Filter) :
    ∀ first second : Request, first.AskAlike filter second →
      first.plan options filter = second.plan options filter
  | ⟨_, _, terms, includes⟩, ⟨_, _, others, otherIncludes⟩, alike => by
      rcases alike with ⟨termsAlike, includesAlike⟩
      rw [Request.plan, Request.plan, checkIncludes_eq_of_askAlikeAll includesAlike,
        termsAlike.fields, termsAlike.functions, ofClauses_eq_of_heeded termsAlike.clauses,
        termsAlike.predicates, planIncludes_eq_of_askAlikeAll options filter _ _ includesAlike]

theorem planIncludes_eq_of_askAlikeAll (options : PlanOptions) (filter : Filter) :
    ∀ includes others : List Request, Request.AskAlikeAll filter includes others →
      Request.planIncludes options filter includes = Request.planIncludes options filter others
  | [], [], _ => rfl
  | child :: rest, other :: others, alike => by
      rcases alike with ⟨same, childAlike, later⟩
      rw [Request.planIncludes, Request.planIncludes, ← same,
        planIncludes_eq_of_askAlikeAll options filter rest others later]
      cases available : filter.include? child.name with
      | none => rfl
      | some own =>
          dsimp only
          rw [plan_eq_of_askAlike options own child other (childAlike own available)]

end

/-- Of two requests under one filter: where both have plans, nodes at the end of one path
have in common what their filter forces; and where the requests differ only in clauses
that are passed over, they have the same plan or the same error. -/
theorem forced_and_passed_over (options : PlanOptions) (filter : Filter)
    (first second : Request) :
    (∀ firstPlan secondPlan, first.plan options filter = .ok firstPlan →
      second.plan options filter = .ok secondPlan →
      ∀ path firstNode secondNode own, firstPlan.Node path firstNode →
        secondPlan.Node path secondNode → filter.at? path = some own →
        firstNode.ForcedAlike own secondNode) ∧
    (first.AskAlike filter second → first.plan options filter = second.plan options filter) := by
  constructor
  · intro firstPlan secondPlan firstMade secondMade path firstNode secondNode own firstReached
      secondReached found
    rcases origin_of_node firstMade firstReached with ⟨firstOwn, _, firstFound, _, firstPlanned⟩
    rcases origin_of_node secondMade secondReached with
      ⟨secondOwn, _, secondFound, _, secondPlanned⟩
    rw [found] at firstFound secondFound
    cases firstFound
    cases secondFound
    exact forcedAlike_of_obeys (obeys_of_plan firstPlanned) (obeys_of_plan secondPlanned)
  · exact plan_eq_of_askAlike options filter first second

/-- Two queries of which one has a malformed clause that is passed over. -/
theorem forced_and_passed_over_articles :
    ∃ first second plan, scan {} "author=ann&includes=comments(skip=x)" = .ok first ∧
      scan {} "author=ann&includes=comments" = .ok second ∧
      first.plan {} .articles = .ok plan ∧ second.plan {} .articles = .ok plan ∧
      plan.ForcedAlike .articles plan := by
  let asked : Terms := { predicates := [("author", .literal "ann")] }
  let first : Request :=
    ⟨0, "root", asked, [⟨1, "comments", { clauses := [(.skip, "x")] }, []⟩]⟩
  let second : Request := ⟨0, "root", asked, [⟨1, "comments", {}, []⟩]⟩
  let plan : Plan :=
    ⟨"articles", ["id", "title", "author"],
      some [("author", .equals (.string "ann")), ("published", .equals (.bool true))],
      [("comments", ⟨"comments", ["author"], none, [], none, none, none, []⟩)],
      none, some 10, none, []⟩
  have scannedFirst : scan {} "author=ann&includes=comments(skip=x)" = .ok first := by cbv
  have scannedSecond : scan {} "author=ann&includes=comments" = .ok second := by cbv
  have plannedFirst : first.plan {} .articles = .ok plan := by cbv
  have alike : first.AskAlike .articles second := by
    refine ⟨⟨rfl, rfl, rfl, rfl⟩, rfl, ?_, trivial⟩
    intro own found
    simp only [Filter.include?, Filter.articles, Table.get?_cons, beq_self_eq_true, ↓reduceIte,
      Option.some.injEq] at found
    subst found
    exact ⟨⟨rfl, rfl, rfl, rfl⟩, trivial⟩
  have facts := forced_and_passed_over {} .articles first second
  have plannedSecond := (facts.2 alike).symm.trans plannedFirst
  exact ⟨first, second, plan, scannedFirst, scannedSecond, plannedFirst, plannedSecond,
    facts.1 plan plan plannedFirst plannedSecond [] plan plan .articles (.root plan)
      (.root plan) rfl⟩

end QueryGate
