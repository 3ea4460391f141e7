import Mathlib
import QueryGate.Proofs.Plan.Node
import QueryGate.Proofs.Plan.Paging
import QueryGate.Proofs.Scanner.WellFormed

/-!
# The columns of orderings

A column that a request names is checked against the filter. The default column is
not: a request that names none is ordered by it whether or not the filter permits it.
-/

namespace QueryGate

/-- The column that rows are ordered by, if there is one. -/
def RowOrder.column? : RowOrder → Option String
  | random => none
  | column name _ => some name
  | aggregate _ name _ => some name

/-- The column is the one that the filter forces, or else a permitted attribute. -/
def Filter.OrdersBy (filter : Filter) (column : String) : Prop :=
  match Table.get? filter.statics.clauses .orderBy with
  | some value => column = staticText value
  | none => column ∈ filter.attributes

/-- The request names a column to order by, and the filter does not pass it over. -/
def Filter.HeedsColumn (filter : Filter) (terms : Terms) : Prop :=
  filter.allowsClause .orderBy = true ∧ (Table.get? terms.clauses .orderBy).isSome

namespace RowOrder

theorem column?_ofWord? {style : AggregateStyle} {column word : String} {order : RowOrder}
    (read : ofWord? style column word = some order) {name : String}
    (names : order.column? = some name) : name = column := by
  simp only [ofWord?] at read
  split at read
  · cases read
    cases names
  · cases read
    cases names
  · cases read
    cases names
    rfl
  · cases read
    cases names
    rfl
  · rcases Option.map_eq_some_iff.mp read with ⟨⟨function, direction⟩, _, rfl⟩
    cases names
    rfl

end RowOrder

/-- An ordering is by the column that is set, or else by the default one. -/
theorem Paging.column?_rowOrder {options : PlanOptions} {paging : Paging} {order : RowOrder}
    (made : paging.rowOrder options = .ok (some order)) {column : String}
    (names : order.column? = some column) : column = paging.orderBy.getD defaultColumn := by
  rw [rowOrder] at made
  split at made
  · cases made
  · dsimp only at made
    split at made
    · rename_i read
      cases made
      exact RowOrder.column?_ofWord? read names
    · cases made

section Column

variable {filter : Filter} {terms : Terms} {paging : Paging}

theorem orderBy_of_heeded (sorted : terms.clauses.Sorted)
    (made : Paging.ofClauses filter terms.clauses = .ok paging)
    (unforced : Table.get? filter.statics.clauses .orderBy = none)
    (heeded : filter.HeedsColumn terms) : ∃ column ∈ filter.attributes,
      paging.orderBy = some column := by
  rcases heeded with ⟨allowed, given⟩
  rcases Option.isSome_iff_exists.mp given with ⟨raw, found⟩
  have asked := Paging.setting?_of_asked sorted made unforced
  rw [Filter.get?_heeded, if_pos allowed, found] at asked
  rcases asked with ⟨setting, computed, set⟩
  rw [Filter.askedSetting?] at computed
  split at computed
  · rename_i available
    cases computed
    refine ⟨raw, Filter.allowsAttribute_iff.mp available, ?_⟩
    simpa [Paging.setting?] using set
  · cases computed

theorem orderBy_of_unheeded (sorted : terms.clauses.Sorted)
    (made : Paging.ofClauses filter terms.clauses = .ok paging)
    (unforced : Table.get? filter.statics.clauses .orderBy = none)
    (unheeded : ¬ filter.HeedsColumn terms) : paging.orderBy = none := by
  have unasked : Table.get? (filter.heeded terms.clauses) .orderBy = none := by
    rw [Filter.get?_heeded]
    split
    · rename_i allowed
      rw [Filter.HeedsColumn, not_and] at unheeded
      exact Option.not_isSome_iff_eq_none.mp (unheeded allowed)
    · rfl
  have asked := Paging.setting?_of_asked sorted made unforced
  rw [unasked] at asked
  simpa [Paging.setting?] using asked (by simp)

/-- An ordering is by a permitted column exactly when one is forced, or named by the
request, or the default one is permitted. -/
theorem ordersBy_iff {options : PlanOptions} (sorted : terms.clauses.Sorted)
    (made : Paging.ofClauses filter terms.clauses = .ok paging) {order : RowOrder}
    (ordered : paging.rowOrder options = .ok (some order)) {column : String}
    (names : order.column? = some column) :
    filter.OrdersBy column ↔ (Table.get? filter.statics.clauses .orderBy).isSome ∨
      filter.HeedsColumn terms ∨ defaultColumn ∈ filter.attributes := by
  have origin := Paging.column?_rowOrder ordered names
  rw [Filter.OrdersBy]
  cases forced : Table.get? filter.statics.clauses .orderBy with
  | some value =>
      rw [Paging.orderBy_of_forced made forced] at origin
      simpa using origin
  | none =>
      simp only [Option.isSome_none, Bool.false_eq_true, false_or]
      by_cases heeded : filter.HeedsColumn terms
      · rcases orderBy_of_heeded sorted made forced heeded with ⟨named, available, set⟩
        rw [set, Option.getD_some] at origin
        rw [origin]
        exact iff_of_true available (.inl heeded)
      · rw [orderBy_of_unheeded sorted made forced heeded, Option.getD_none] at origin
        rw [origin]
        simp only [heeded, false_or]

end Column

/-- At a node of a plan, the column of the ordering is one that the filter forces or
permits exactly when the filter forces one, or the request names one that is heeded, or
the default column is permitted. -/
theorem ordersBy_of_plan {scanning : ScanOptions} {text : String} {request : Request}
    {planning : PlanOptions} {filter : Filter} {plan : Plan}
    (scanned : scan scanning text = .ok request)
    (planned : request.plan planning filter = .ok plan) {path : Path} {node : Plan}
    (reached : plan.Node path node) {order : RowOrder} (ordered : node.order = some order)
    {column : String} (names : order.column? = some column) :
    ∃ own source, filter.at? path = some own ∧ request.Node path source ∧
      source.plan planning own = .ok node ∧
      (own.OrdersBy column ↔ (Table.get? own.statics.clauses .orderBy).isSome ∨
        own.HeedsColumn source.terms ∨ defaultColumn ∈ own.attributes) := by
  rcases origin_of_node planned reached with ⟨own, source, found, reachedSource, made⟩
  have wellFormed := wellFormed_of_scan scanned reachedSource
  rcases (plan_eq_ok_iff.mp made).paging with ⟨paging, paged, placed, _, _⟩
  rw [ordered] at placed
  exact ⟨own, source, found, reachedSource, made,
    ordersBy_iff wellFormed.clauses_sorted paged placed names⟩

theorem ordersBy_of_plan_articles :
    ∃ request plan order, scan {} "order=desc&order_by=title" = .ok request ∧
      request.plan {} .articles = .ok plan ∧ plan.order = some order ∧
      order.column? = some "title" ∧
      ∃ own source, Filter.articles.at? [] = some own ∧ request.Node [] source ∧
        source.plan {} own = .ok plan ∧
        (own.OrdersBy "title" ↔ (Table.get? own.statics.clauses .orderBy).isSome ∨
          own.HeedsColumn source.terms ∨ defaultColumn ∈ own.attributes) := by
  let request : Request :=
    ⟨0, "root", { clauses := [(.order, "desc"), (.orderBy, "title")] }, []⟩
  let plan : Plan :=
    ⟨"articles", ["id", "title", "author"], some [("published", .equals (.bool true))], [],
      some (.column "title" .descending), some 10, none, []⟩
  have scanned : scan {} "order=desc&order_by=title" = .ok request := by cbv
  have planned : request.plan {} .articles = .ok plan := by cbv
  exact ⟨request, plan, _, scanned, planned, rfl, rfl,
    ordersBy_of_plan scanned planned (.root plan) rfl rfl⟩

/-- Of two attributes only one is permitted, and rows are ordered by the other. -/
theorem not_ordersBy_default :
    ∃ filter request plan,
      Filter.build ⟨[("posts", { name := "posts", attributes := ["id", "title"] })]⟩ "posts"
        { attributes := some ["title"] } = .ok filter ∧
      scan {} "order=asc" = .ok request ∧ request.plan {} filter = .ok plan ∧
      plan.order = some (.column "id" .ascending) ∧ ¬ filter.OrdersBy "id" := by
  let filter : Filter := ⟨"posts", ["title"], Clause.all, [], {}, .none⟩
  let request : Request := ⟨0, "root", { clauses := [(.order, "asc")] }, []⟩
  let plan : Plan :=
    ⟨"posts", ["title"], none, [], some (.column "id" .ascending), none, none, []⟩
  have built : Filter.build ⟨[("posts", { name := "posts", attributes := ["id", "title"] })]⟩
      "posts" { attributes := some ["title"] } = .ok filter := by cbv
  have scanned : scan {} "order=asc" = .ok request := by cbv
  have planned : request.plan {} filter = .ok plan := by cbv
  refine ⟨filter, request, plan, built, scanned, planned, rfl, ?_⟩
  simp [Filter.OrdersBy, filter, Statics.none]

end QueryGate
