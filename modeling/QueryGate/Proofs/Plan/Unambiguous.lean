import Mathlib
import QueryGate.Proofs.Plan.Twins

/-!
# Telling plans apart

The plans that one filter makes of queries are told apart by their values exactly when, at each
node that one of them reaches, the filter of the node tells conditions apart. Everything else in
a plan stands in its value under a name of its own.
-/

namespace QueryGate

namespace Filter

variable {filter : Filter}

/-- What stands under a name in a predicate: what is forced there, or else a condition of the
shape for the name. -/
structure Puts (filter : Filter) (name : String) (condition : Condition) : Prop where
  forced : ∀ value, Table.get? filter.statics.attributes name = some value →
    condition = .equals value
  asked : filter.forcesAttribute name = false → Condition.Shape filter (.entry name) condition

theorem puts_of_predicate {predicates : Table String Expression} (sorted : predicates.Sorted)
    (forms : ∀ row ∈ predicates, Expression.HasForm (.entry row.1) row.2)
    {predicate : Option (Table String Condition)}
    (made : filter.predicate predicates = .ok predicate) {rows : Table String Condition}
    (found : predicate = some rows) : ∀ row ∈ rows, filter.Puts row.1 row.2 := by
  obtain ⟨demanded, resolved, equal⟩ := predicate_eq_ok_iff.mp made
  have forced : rows = filter.force demanded := by
    rw [found] at equal
    split at equal
    · cases equal
    · exact Option.some.inj equal
  subst forced
  have shapes := shapes_of_resolveFields (fun row member => shaped_of_hasForm (forms row member))
    resolved
  intro row member
  obtain ⟨value, given, equal⟩ | ⟨asked, unforced⟩ :=
    (mem_force_iff (sorted_of_resolveFields resolved sorted) row).mp member
  · have found := (Table.get?_eq_some_iff_mem filter.statics.attributes_sorted _ _).mpr given
    refine ⟨fun other foundOther => ?_, fun unforced => ?_⟩
    · rw [found] at foundOther
      cases foundOther
      exact equal
    · rw [forcesAttribute, found] at unforced
      cases unforced
  · refine ⟨fun value found => ?_, fun _ => shapes row asked⟩
    rw [forcesAttribute, found] at unforced
    cases unforced

theorem Puts.eq_of_toJson (apart : filter.TellsApart) {name : String}
    {condition other : Condition} (puts : filter.Puts name condition)
    (putsOther : filter.Puts name other) (same : condition.toJson = other.toJson) :
    condition = other := by
  cases forced : Table.get? filter.statics.attributes name with
  | some value => rw [puts.forced value forced, putsOther.forced value forced]
  | none =>
      have unforced : filter.forcesAttribute name = false := by rw [forcesAttribute, forced]; rfl
      exact (puts.asked unforced).eq_of_tellsApart apart unforced (putsOther.asked unforced) same

/-- The value of a predicate tells which one it is. -/
theorem predicate_eq_of_toJson (apart : filter.TellsApart) {terms others : Terms}
    (wellFormed : terms.WellFormed) (wellFormedOthers : others.WellFormed)
    {predicate predicateOther : Option (Table String Condition)}
    (made : filter.predicate terms.predicates = .ok predicate)
    (madeOther : filter.predicate others.predicates = .ok predicateOther)
    (same : predicate.map Plan.rowsToJson = predicateOther.map Plan.rowsToJson) :
    predicate = predicateOther := by
  cases predicate with
  | none =>
      cases predicateOther with
      | none => rfl
      | some => cases same
  | some rows =>
      cases predicateOther with
      | none => cases same
      | some rowsOther =>
          have puts := puts_of_predicate wellFormed.predicates_sorted wellFormed.hasForm made rfl
          have putsOther := puts_of_predicate wellFormedOthers.predicates_sorted
            wellFormedOthers.hasForm madeOther rfl
          rw [Condition.eq_of_toJsonFields filter.Puts
            (fun row member _ good sameRow => (puts row member).eq_of_toJson apart good sameRow)
            putsOther (Json.object.inj (Option.some.inj same))]

end Filter

namespace Plan

theorem eq_of_includesToJson {rows others : List (String × Plan)}
    (each : ∀ row ∈ rows, ∀ other ∈ others, row.1 = other.1 → row.2.members = other.2.members →
      row.2 = other.2)
    (same : includesToJson rows = includesToJson others) : rows = others := by
  induction rows generalizing others with
  | nil =>
      cases others with
      | nil => rfl
      | cons other later => simp [includesToJson] at same
  | cons row rest hypothesis =>
      cases others with
      | nil => simp [includesToJson] at same
      | cons other later =>
          obtain ⟨relation, plan⟩ := row
          obtain ⟨relationOther, planOther⟩ := other
          simp only [includesToJson, List.cons.injEq, Json.object.injEq, Prod.mk.injEq, true_and,
            Json.string.injEq] at same
          obtain ⟨⟨rfl, members⟩, below⟩ := same
          have first : plan = planOther :=
            each _ List.mem_cons_self _ List.mem_cons_self rfl members
          have rest := hypothesis (fun row member other memberOther =>
            each row (List.mem_cons_of_mem _ member) other (List.mem_cons_of_mem _ memberOther))
            below
          rw [first, rest]

/-- Where the filters of all nodes of a plan tell conditions apart, its members tell which plan
it is. -/
theorem eq_of_toJson {planning : PlanOptions} {filter : Filter} {request requestOther : Request}
    {plan other : Plan} (every : request.Every Terms.WellFormed)
    (everyOther : requestOther.Every Terms.WellFormed)
    (planned : request.plan planning filter = .ok plan)
    (plannedOther : requestOther.plan planning filter = .ok other)
    (apart : ∀ {path node own}, plan.Node path node → filter.at? path = some own → own.TellsApart)
    (same : plan.members = other.members) : plan = other := by
  induction every generalizing filter requestOther plan other with
  | @node number name terms includes wellFormed _ hypothesis =>
      have parts := plan_eq_ok_iff.mp planned
      have partsOther := plan_eq_ok_iff.mp plannedOther
      apply eq_of_members _ _ same
      · exact Filter.predicate_eq_of_toJson (apart (.root plan) rfl) wellFormed everyOther.terms
          parts.predicate partsOther.predicate
      · apply eq_of_includesToJson
        intro row member rowOther memberOther sameName sameMembers
        obtain ⟨child, inIncludes, -, own, available, plannedChild⟩ :=
          exists_of_mem_planIncludes parts.children member
        obtain ⟨childOther, inOthers, -, ownOther, availableOther, plannedChildOther⟩ :=
          exists_of_mem_planIncludes partsOther.children memberOther
        rw [← sameName, available] at availableOther
        cases availableOther
        apply hypothesis child inIncludes (everyOther.children _ inOthers) plannedChild
          plannedChildOther _ sameMembers
        intro path node last reached found
        apply apart (.child member reached)
        rw [Filter.at?, available]
        exact found

end Plan

namespace Filter

/-- The plan is that of a query under the filter. -/
def Plans (filter : Filter) (planning : PlanOptions) (plan : Plan) : Prop :=
  ∃ scanning text request, scan scanning text = .ok request ∧
    request.plan planning filter = .ok plan

/-- Different plans of queries under the filter have different values. -/
def Unambiguous (filter : Filter) (planning : PlanOptions) : Prop :=
  ∀ {plan other : Plan}, filter.Plans planning plan → filter.Plans planning other →
    plan.toJson = other.toJson → plan = other

end Filter

/-- The values of plans tell which plans they are exactly when, at every node that a plan reaches,
either no attribute has the name of a connective, or none has that of `like`, `notLike` or `not`,
or something is forced under the word of each connective. -/
theorem unambiguous_iff {filter : Filter} (obtained : filter.Obtained) (planning : PlanOptions) :
    filter.Unambiguous planning ↔ ∀ {plan path node own}, filter.Plans planning plan →
      plan.Node path node → filter.at? path = some own → own.TellsApart := by
  constructor
  · rintro told plan path node own ⟨scanning, text, request, scanned, planned⟩ reached found
    by_contra alike
    obtain ⟨options, first, second, requestFirst, requestSecond, planFirst, planSecond,
      scannedFirst, scannedSecond, plannedFirst, plannedSecond, same, different⟩ :=
      exists_twin_plans obtained.boundsCounts scanned planned reached found alike
    exact different (told ⟨_, _, _, scannedFirst, plannedFirst⟩
      ⟨_, _, _, scannedSecond, plannedSecond⟩ same)
  · rintro apart plan other ⟨scanning, text, request, scanned, planned⟩
      ⟨scanningOther, textOther, requestOther, scannedOther, plannedOther⟩ same
    exact Plan.eq_of_toJson (scan_every Terms.WellFormed.kept scanned)
      (scan_every Terms.WellFormed.kept scannedOther) planned plannedOther
      (fun reached found => apart ⟨_, _, _, scanned, planned⟩ reached found)
      (Json.object.inj same)

/-- Posts that have an attribute with the word of a connective, and none with that of an operator
that a group could be taken for: a group and a value operator have different values. -/
theorem unambiguous_iff_or :
    ∃ filter plan other,
      Filter.build ⟨[("posts", { name := "posts", attributes := ["or", "title"] })]⟩ "posts"
        { attributes := some ["or", "title"] } = .ok filter ∧
      filter.Plans {} plan ∧ filter.Plans {} other ∧
      plan.condition? "or" = some (.or [.fields [("title", .equals (.string "x"))]]) ∧
      other.condition? "or" = some (.or [.equals (.string "x")]) ∧
      filter.Unambiguous {} := by
  let filter : Filter := ⟨"posts", ["or", "title"], Clause.all, [], {}, .none⟩
  let group : Request :=
    ⟨0, "root", { predicates := [("or", .or [.group [("title", .literal "x")]])] }, []⟩
  let value : Request := ⟨0, "root", { predicates := [("or", .or [.literal "x"])] }, []⟩
  let planWith (condition : Condition) : Plan :=
    ⟨"posts", ["or", "title"], some [("or", condition)], [], none, none, none, []⟩
  have built : Filter.build ⟨[("posts", { name := "posts", attributes := ["or", "title"] })]⟩
      "posts" { attributes := some ["or", "title"] } = .ok filter := by cbv
  have scanned : scan {} "or(title=x)" = .ok group := by cbv
  have scannedOther : scan {} "or=or(x)" = .ok value := by cbv
  have planned : group.plan {} filter =
      .ok (planWith (.or [.fields [("title", .equals (.string "x"))]])) := by cbv
  have plannedOther : value.plan {} filter = .ok (planWith (.or [.equals (.string "x")])) := by cbv
  refine ⟨filter, _, _, built, ⟨{}, _, group, scanned, planned⟩,
    ⟨{}, _, value, scannedOther, plannedOther⟩, rfl, rfl, ?_⟩
  apply (unambiguous_iff (.build built) {}).mpr
  intro plan path node own _ _ found
  cases path with
  | nil =>
      cases found
      exact .inr (.inl ⟨by decide, by decide, by decide⟩)
  | cons relation path => cases found

/-- A group of an equality on `like`, and the operator `like`, under an attribute `or`. -/
theorem not_unambiguous_of_like :
    let filter : Filter := .ofEntity { name := "posts", attributes := ["like", "or"] }
    ∃ request requestOther plan other, scan {} "or(like=x)" = .ok request ∧
      scan {} "or=or(like(x))" = .ok requestOther ∧ request.plan {} filter = .ok plan ∧
      requestOther.plan {} filter = .ok other ∧ plan.toJson = other.toJson ∧ plan ≠ other := by
  intro filter
  let group : Request :=
    ⟨0, "root", { predicates := [("or", .or [.group [("like", .literal "x")]])] }, []⟩
  let value : Request := ⟨0, "root", { predicates := [("or", .or [.like "x"])] }, []⟩
  let planWith (condition : Condition) : Plan :=
    ⟨"posts", ["like", "or"], some [("or", condition)], [], none, some 3, none, []⟩
  have scanned : scan {} "or(like=x)" = .ok group := by cbv
  have scannedOther : scan {} "or=or(like(x))" = .ok value := by cbv
  have planned : group.plan {} filter =
      .ok (planWith (.or [.fields [("like", .equals (.string "x"))]])) := by cbv
  have plannedOther : value.plan {} filter = .ok (planWith (.or [.like "x"])) := by cbv
  exact ⟨group, value, _, _, scanned, scannedOther, planned, plannedOther, rfl, by simp [planWith]⟩

end QueryGate
