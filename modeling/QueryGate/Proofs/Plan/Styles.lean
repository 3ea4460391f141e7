import QueryGate.Proofs.Plan.Acceptance

/-!
# Styles of aggregates

The style is asked in one place only, where a word is not that of an ordering by a column. Both
styles know the same words. What `symmetric` orders by a minimum, `legacy` orders by the maximum
in the other direction; apart from that the plans of a request are the same under both.
-/

namespace QueryGate

/-- The other direction. -/
def Direction.reverse : Direction → Direction
  | ascending => descending
  | descending => ascending

namespace RowOrder

/-- An ordering by a minimum, as one by the maximum in the other direction. -/
def byMaximum : RowOrder → RowOrder
  | aggregate .min name direction => aggregate .max name direction.reverse
  | order => order

/-- Of an ordering by an aggregate, only that it is one and by which column. -/
def blurred : RowOrder → RowOrder
  | aggregate _ name _ => aggregate .max name .ascending
  | order => order

theorem blurred_byMaximum (order : RowOrder) : order.byMaximum.blurred = order.blurred := by
  cases order with
  | aggregate function name direction => cases function <;> rfl
  | random => rfl
  | column => rfl

end RowOrder

namespace Plan

mutual

/-- Changes the ordering at every node. -/
def mapOrders (change : RowOrder → RowOrder) : Plan → Plan
  | ⟨entity, projection, predicate, includes, order, limit, offset, functions⟩ =>
      ⟨entity, projection, predicate, mapOrdersAll change includes, order.map change, limit, offset,
        functions⟩

/-- Changes the ordering at every node of included plans. -/
def mapOrdersAll (change : RowOrder → RowOrder) : List (String × Plan) → List (String × Plan)
  | [] => []
  | (relation, plan) :: rest => (relation, plan.mapOrders change) :: mapOrdersAll change rest

end

mutual

theorem mapOrders_mapOrders (first second : RowOrder → RowOrder) :
    (plan : Plan) → (plan.mapOrders first).mapOrders second = plan.mapOrders (second ∘ first)
  | ⟨entity, projection, predicate, includes, order, limit, offset, functions⟩ => by
      simp only [mapOrders, mapOrdersAll_mapOrdersAll first second includes, Option.map_map]

theorem mapOrdersAll_mapOrdersAll (first second : RowOrder → RowOrder) :
    (plans : List (String × Plan)) →
      mapOrdersAll second (mapOrdersAll first plans) = mapOrdersAll (second ∘ first) plans
  | [] => rfl
  | (relation, plan) :: rest => by
      simp only [mapOrdersAll, mapOrders_mapOrders first second plan,
        mapOrdersAll_mapOrdersAll first second rest]

end

end Plan

/-! ## The words of both styles -/

/-- An aggregate and its direction, as an ordering by a column. -/
def RowOrder.ofAggregate (column : String) (read : Aggregate × Direction) : RowOrder :=
  .aggregate read.1 column read.2

/-- Word by word, the styles agree up to the direction of the maximum. -/
theorem ofAggregate_aggregateOfWord? (column : String) (word : List Char) :
    (aggregateOfWord? .legacy word).map (RowOrder.ofAggregate column) =
      (aggregateOfWord? .symmetric word).map
        (RowOrder.byMaximum ∘ RowOrder.ofAggregate column) := by
  by_cases known : String.ofList word ∈ ["max", "min", "max-asc", "max-desc", "min-asc", "min-desc"]
  · simp only [List.mem_cons, List.not_mem_nil, or_false] at known
    rcases known with same | same | same | same | same | same <;>
      rw [eq_toList_of_ofList same] <;> rfl
  · have unread : ∀ style, aggregateOfWord? style word = none := by
      intro style
      rw [← Option.not_isSome_iff_eq_none, aggregateOfWord?_isSome_iff]
      exact known
    rw [unread, unread, Option.map_none, Option.map_none]

theorem RowOrder.ofWord?_legacy (column word : String) :
    ofWord? .legacy column word = (ofWord? .symmetric column word).map byMaximum := by
  simp only [ofWord?]
  split
  case h_5 =>
    rw [Option.map_map]
    exact ofAggregate_aggregateOfWord? column _
  all_goals simp [byMaximum]

theorem Paging.rowOrder_legacy (paging : Paging) :
    paging.rowOrder ⟨.legacy⟩ =
      (paging.rowOrder ⟨.symmetric⟩).map (Option.map RowOrder.byMaximum) := by
  simp only [rowOrder, RowOrder.ofWord?_legacy]
  split
  · rfl
  · cases RowOrder.ofWord? .symmetric (paging.orderBy.getD defaultColumn)
      (paging.order.getD "asc") <;> rfl

/-! ## The plans of both styles -/

mutual

/-- A plan that is made in the one style is the plan that is made in the other, with each ordering
by a minimum turned into one by the maximum. -/
theorem plan_legacy (filter : Filter) : (request : Request) →
    request.plan ⟨.legacy⟩ filter =
      (request.plan ⟨.symmetric⟩ filter).map (Plan.mapOrders RowOrder.byMaximum)
  | ⟨_, _, terms, includes⟩ => by
      simp only [Request.plan, Paging.rowOrder_legacy, planIncludes_legacy filter includes,
        bind_of_map, map_bind_eq]
      rfl

theorem planIncludes_legacy (filter : Filter) : (requests : List Request) →
    Request.planIncludes ⟨.legacy⟩ filter requests =
      (Request.planIncludes ⟨.symmetric⟩ filter requests).map
        (Plan.mapOrdersAll RowOrder.byMaximum)
  | [] => rfl
  | request :: rest => by
      simp only [Request.planIncludes]
      cases filter.include? request.name with
      | none => rfl
      | some child =>
          simp only [plan_legacy child request, planIncludes_legacy filter rest, bind_of_map,
            map_bind_eq]
          rfl

end

/-- Whatever is asked for, both styles refuse it with the same error, or both have a plan. The
plans are the same at every node but for the functions and the directions of aggregates: where
`symmetric` has a minimum, `legacy` has the maximum in the other direction. The words that
orderings are read from are the same in both. -/
theorem styles_agree (filter : Filter) (request : Request) :
    ((∃ error, request.plan ⟨.legacy⟩ filter = .error error ∧
        request.plan ⟨.symmetric⟩ filter = .error error) ∨
      ∃ legacy symmetric, request.plan ⟨.legacy⟩ filter = .ok legacy ∧
        request.plan ⟨.symmetric⟩ filter = .ok symmetric ∧
        legacy = symmetric.mapOrders .byMaximum ∧
        legacy.mapOrders .blurred = symmetric.mapOrders .blurred) ∧
    ∀ column word, (RowOrder.ofWord? .legacy column word).isSome =
      (RowOrder.ofWord? .symmetric column word).isSome := by
  constructor
  · rw [plan_legacy]
    cases request.plan ⟨.symmetric⟩ filter with
    | error error => exact .inl ⟨error, rfl, rfl⟩
    | ok symmetric =>
        refine .inr ⟨_, symmetric, rfl, rfl, rfl, ?_⟩
        have blurs : RowOrder.blurred ∘ RowOrder.byMaximum = RowOrder.blurred :=
          funext RowOrder.blurred_byMaximum
        rw [Plan.mapOrders_mapOrders, blurs]
  · intro column word
    rw [RowOrder.ofWord?_legacy, Option.isSome_map]

end QueryGate
