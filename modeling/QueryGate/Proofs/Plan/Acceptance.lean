import Mathlib
import QueryGate.Proofs.Filter.Build
import QueryGate.Proofs.Plan.Named
import QueryGate.Proofs.Plan.Paging
import QueryGate.Proofs.Scanner.WellFormed
import QueryGate.Proofs.Text.Numeral

/-!
# Which requests have a plan

A request has a plan exactly when each of its nodes is accepted by the filter that is
reached by the same relations. What a filter accepts is said without the functions that
make plans, so that nothing outside it is dropped in silence and nothing within it fails.
-/

namespace QueryGate

/-- The words for orderings, in lower case. -/
def RowOrder.words : List String :=
  ["rand", "random", "asc", "desc", "max", "min", "max-asc", "max-desc", "min-asc", "min-desc"]

/-- The word stands for an ordering; ASCII letters may have either case. -/
def RowOrder.IsWord (word : String) : Prop :=
  String.ofList (word.toList.map Char.toLower) ∈ RowOrder.words

instance (word : String) : Decidable (RowOrder.IsWord word) :=
  inferInstanceAs (Decidable (_ ∈ RowOrder.words))

/-- The value that is forced on a clause is an unsigned integer of 64 bits, or a string
that is a numeral of one. No integer of a JSON value is greater: see `isCount_int_iff`. -/
inductive IsCount : Json → Prop where
  | integer {value : Int} : 0 ≤ value → IsCount (.number (.int value))
  | numeral {text : String} {value : Nat} :
      Text.DenotesNat text.toList value → value ≤ Text.greatestNat64 → IsCount (.string text)

/-- A value that can be forced on the clause. -/
def Clause.Takes (clause : Clause) (value : Json) : Prop :=
  match clause with
  | .limit | .skip => IsCount value
  | .order | .orderBy => True

namespace Filter

/-- The text that the order of a node is read from: the forced one, or else one that the
request gives and the filter does not pass over. -/
def orderWord? (filter : Filter) (clauses : Table Clause String) : Option String :=
  match Table.get? filter.statics.clauses .order with
  | some value => some (staticText value)
  | none => if filter.allowsClause .order then Table.get? clauses .order else none

/-- A text that a request gives for a number. Where there is a bound, any integer is
forced into it; where there is none, the integer has to be an unsigned one of 64 bits. -/
def AcceptsNumber (filter : Filter) (clause : Clause) (raw : String) : Prop :=
  ∃ value, Text.DenotesInt raw.toList value ∧
    (filter.clauseBound? clause = none → 0 ≤ value ∧ value ≤ (Text.greatestNat64 : Int))

/-- A text that a request gives for a clause that the filter does not pass over. -/
def AcceptsClause (filter : Filter) (clause : Clause) (raw : String) : Prop :=
  match clause with
  | .limit | .skip => filter.AcceptsNumber clause raw
  | .order => True
  | .orderBy => raw ∈ filter.attributes

/-- The function counts rows, or those of a relation that may be included. -/
def AcceptsCall (filter : Filter) (call : FunctionCall) : Prop :=
  call.name = "count" ∧ (call.arguments = [] ∨
    ∃ relation ∈ Table.keys filter.includes, call.arguments = [relation])

/-- What a filter demands of the node of a request that it belongs to. -/
structure Accepts (filter : Filter) (node : Request) : Prop where
  includes : ∀ child ∈ node.includes, child.name ∈ Table.keys filter.includes
  fields : ∀ field ∈ node.terms.fields, field ∈ filter.attributes
  /-- Where no field is asked for, there have to be attributes to return. -/
  projection : node.terms.fields ≠ [] ∨ filter.attributes ≠ []
  functions : ∀ call ∈ node.terms.functions, filter.AcceptsCall call
  clauses : ∀ {clause raw}, filter.allowsClause clause = true →
    Table.get? node.terms.clauses clause = some raw → filter.AcceptsClause clause raw
  statics : ∀ {clause value}, Table.get? filter.statics.clauses clause = some value →
    clause.Takes value
  order : ∀ word, filter.orderWord? node.terms.clauses = some word → RowOrder.IsWord word
  /-- The fields that conditions name, within groups of any depth. -/
  predicates : ∀ field ∈ Expression.fieldsNamed node.terms.predicates, field ∈ filter.attributes

end Filter

/-! ## Numbers and order words -/

theorem le_greatestNat64_of_int? {numeral : Number.Numeral} {value : Int}
    (read : numeral.int? = some value) : value ≤ (Text.greatestNat64 : Int) := by
  unfold Number.Numeral.int? at read
  split at read
  · dsimp only at read
    split at read
    · split at read
      · cases read
        omega
      · cases read
    · split at read
      · rename_i fits
        cases read
        simpa [Text.fitsNat64] using fits
      · cases read
  · cases read

/-- An integer that was read from a text is a count if it is an unsigned one of 64 bits. -/
theorem isCount_int_iff {numeral : Number.Numeral} {value : Int}
    (read : Number.ofNumeral? numeral = some (.int value)) :
    IsCount (.number (.int value)) ↔ 0 ≤ value ∧ value ≤ (Text.greatestNat64 : Int) := by
  have fits : value ≤ (Text.greatestNat64 : Int) := by
    rw [Number.ofNumeral?] at read
    cases integer : numeral.int? with
    | some found =>
        rw [integer] at read
        cases read
        exact le_greatestNat64_of_int? integer
    | none =>
        rw [integer] at read
        cases double : numeral.double? with
        | some found =>
            rw [double] at read
            cases read
        | none =>
            rw [double] at read
            cases read
  constructor
  · intro counted
    cases counted with
    | integer natural => exact ⟨natural, fits⟩
  · intro bounds
    exact .integer bounds.1

theorem staticCount?_isSome_iff {value : Json} : (staticCount? value).isSome ↔ IsCount value := by
  constructor
  · intro found
    unfold staticCount? at found
    split at found
    · split at found
      · rename_i natural
        exact .integer natural
      · cases found
    · rcases Option.isSome_iff_exists.mp found with ⟨count, kept⟩
      rcases Option.filter_eq_some_iff.mp kept with ⟨read, fits⟩
      exact .numeral (Text.natOfText?_eq_some_iff.mp read) (by simpa [Text.fitsNat64] using fits)
    · cases found
  · intro counted
    cases counted with
    | integer natural => rw [staticCount?, if_pos natural]; rfl
    | numeral denotes fits =>
        rw [staticCount?, Text.natOfText?_eq_some_iff.mpr denotes, Option.filter_some,
          if_pos (by simpa [Text.fitsNat64] using fits)]
        rfl

theorem Bound.clamp_nonneg {bound : Bound} (counts : 0 ≤ bound.min ∧ bound.min ≤ bound.max)
    (value : Int) : 0 ≤ bound.clamp value := by
  rw [Bound.clamp]
  split
  · exact counts.1
  · split
    · omega
    · omega

theorem exists_clauseNumber_iff {filter : Filter} (counts : filter.BoundsCounts)
    {clause : Clause} {raw : String} :
    (∃ number, clauseNumber filter clause raw = .ok number) ↔ filter.AcceptsNumber clause raw := by
  simp only [Filter.AcceptsNumber, ← Text.intOfText?_eq_some_iff]
  rw [clauseNumber]
  cases Text.intOfText? raw.toList with
  | none => simp
  | some value =>
      simp only [Option.some.injEq, exists_eq_left']
      cases bounded : filter.clauseBound? clause with
      | some bound =>
          have natural := bound.clamp_nonneg (counts bounded) value
          simp [Int.not_lt.mpr natural]
      | none =>
          simp only [true_imp_iff]
          split
          · rename_i negative
            simp only [reduceCtorEq, exists_false, false_iff]
            omega
          · split
            · rename_i natural fits
              simp only [Text.fitsNat64, decide_eq_true_eq] at fits
              simp only [Except.ok.injEq, exists_eq', true_iff]
              omega
            · rename_i natural wide
              simp only [Text.fitsNat64, decide_eq_true_eq] at wide
              simp only [reduceCtorEq, exists_false, false_iff]
              omega

theorem eq_toList_of_ofList {word : List Char} {text : String}
    (spelled : String.ofList word = text) : word = text.toList := by
  rw [← spelled, String.toList_ofList]

/-- The words for aggregates are the same in both styles. -/
theorem aggregateOfWord?_isSome_iff {style : AggregateStyle} {word : List Char} :
    (aggregateOfWord? style word).isSome ↔ String.ofList word ∈
      ["max", "min", "max-asc", "max-desc", "min-asc", "min-desc"] := by
  constructor
  · intro read
    cases style with
    | legacy =>
        rw [aggregateOfWord?] at read
        split at read <;> simp_all
    | symmetric =>
        have whole := List.takeWhile_append_dropWhile (p := (· != '-')) (l := word)
        have dash := List.head?_dropWhile_not (· != '-') word
        rw [aggregateOfWord?] at read
        generalize List.takeWhile (· != '-') word = function at read whole
        generalize List.dropWhile (· != '-') word = direction at read whole dash
        rw [← whole]
        -- Each part is one of the known words or the reading fails.
        split at read <;> simp only [bind, Option.bind] at read
        case h_3 => cases read
        all_goals
          rename_i named
          rw [eq_toList_of_ofList named]
          cases direction with
          | nil => decide
          | cons first rest =>
              have first_eq : first = '-' := by simpa using dash
              rw [first_eq]
              dsimp only at read
              split at read
              case h_3 => cases read
              all_goals
                rename_i directed
                rw [eq_toList_of_ofList directed]
                decide
  · intro member
    simp only [List.mem_cons, List.not_mem_nil, or_false] at member
    rcases member with equal | equal | equal | equal | equal | equal <;>
      rw [eq_toList_of_ofList equal] <;> cases style <;> decide

theorem RowOrder.ofWord?_isSome_iff {style : AggregateStyle} {column word : String} :
    (RowOrder.ofWord? style column word).isSome ↔ RowOrder.IsWord word := by
  rw [RowOrder.ofWord?, IsWord, words]
  dsimp only
  split
  case h_5 => grind [aggregateOfWord?_isSome_iff, Option.isSome_map]
  all_goals simp [*]

/-! ## Paging -/

namespace Paging

variable {filter : Filter} {clauses : Table Clause String} {paging : Paging}

theorem exists_applyClause_iff (counts : filter.BoundsCounts) {clause : Clause} {raw : String}
    (allowed : filter.allowsClause clause = true) :
    (∃ next, applyClause filter paging clause raw = .ok next) ↔
      filter.AcceptsClause clause raw := by
  unfold applyClause
  rw [allowed]
  cases clause with
  | limit | skip =>
      simp only [Bool.not_true, Bool.false_eq_true, ↓reduceIte, map_eq_ok_iff,
        Filter.AcceptsClause, ← exists_clauseNumber_iff counts]
      constructor
      · rintro ⟨_, number, read, _⟩
        exact ⟨number, read⟩
      · rintro ⟨number, read⟩
        exact ⟨_, number, read, rfl⟩
  | order => simp [Filter.AcceptsClause]
  | orderBy =>
      simp only [Bool.not_true, Bool.false_eq_true, ↓reduceIte, Filter.AcceptsClause,
        ← Filter.allowsAttribute_iff]
      split <;> simp [*]

theorem exists_applyStatic_iff {clause : Clause} {value : Json} :
    (∃ next, paging.applyStatic clause value = .ok next) ↔ clause.Takes value := by
  cases clause with
  | limit | skip =>
      simp only [applyStatic, map_eq_ok_iff, staticNumber, Clause.Takes, ← staticCount?_isSome_iff]
      cases staticCount? value <;> simp
  | order | orderBy => simp [applyStatic, Clause.Takes]

/-- The clauses of a node and those that are forced can be applied when each of them can. -/
theorem exists_ofClauses_iff (counts : filter.BoundsCounts) :
    (∃ paging, ofClauses filter clauses = .ok paging) ↔
      (∀ row ∈ filter.heeded clauses, filter.AcceptsClause row.1 row.2) ∧
        ∀ row ∈ filter.statics.clauses, row.1.Takes row.2 := by
  have asked : (∃ last, (filter.heeded clauses).foldlM
        (fun paging row => applyClause filter paging row.1 row.2) {} = .ok last) ↔
      ∀ row ∈ filter.heeded clauses, filter.AcceptsClause row.1 row.2 := by
    apply exists_foldlM_eq_ok_iff
    intro row member paging
    exact exists_applyClause_iff counts (List.mem_filter.mp member).2
  have forced : ∀ start : Paging, (∃ last, filter.statics.clauses.foldlM
        (fun paging row => paging.applyStatic row.1 row.2) start = .ok last) ↔
      ∀ row ∈ filter.statics.clauses, row.1.Takes row.2 := by
    apply exists_foldlM_eq_ok_iff
    intro row _ paging
    exact exists_applyStatic_iff
  simp only [ofClauses_eq_ok_iff]
  constructor
  · rintro ⟨_, middle, last, first, second, _⟩
    exact ⟨asked.mp ⟨middle, first⟩, (forced middle).mp ⟨last, second⟩⟩
  · rintro ⟨accepted, taken⟩
    rcases asked.mpr accepted with ⟨middle, first⟩
    rcases (forced middle).mpr taken with ⟨last, second⟩
    exact ⟨_, middle, last, first, second, rfl⟩

/-- After the clauses are applied, the order is the text that the filter settles on. -/
theorem order_eq_orderWord? (sorted : clauses.Sorted)
    (made : ofClauses filter clauses = .ok paging) :
    paging.order = filter.orderWord? clauses := by
  rw [Filter.orderWord?]
  cases forced : Table.get? filter.statics.clauses .order with
  | some value => exact order_of_forced made forced
  | none =>
      have asked := setting?_of_asked sorted made forced
      rw [Filter.get?_heeded] at asked
      dsimp only
      cases given : (if filter.allowsClause .order then Table.get? clauses .order else none) with
      | none =>
          rw [given] at asked
          simpa [setting?] using asked (by simp)
      | some raw =>
          rw [given] at asked
          rcases asked with ⟨setting, computed, set⟩
          rw [← computed] at set
          exact Option.map_injective (fun _ _ => Setting.text.inj) set

theorem exists_rowOrder_iff {options : PlanOptions} :
    (∃ order, paging.rowOrder options = .ok order) ↔
      ∀ word, paging.order = some word → RowOrder.IsWord word := by
  rw [rowOrder]
  cases ordered : paging.order with
  | none =>
      -- Ordering by a column alone is ascending.
      have ascending : (RowOrder.ofWord? options.aggregates
          (paging.orderBy.getD defaultColumn) "asc").isSome :=
        RowOrder.ofWord?_isSome_iff.mpr (by decide)
      rcases Option.isSome_iff_exists.mp ascending with ⟨order, read⟩
      simp only [reduceCtorEq, false_imp_iff, implies_true, iff_true]
      split
      · exact ⟨none, rfl⟩
      · exact ⟨some order, by simp [read]⟩
  | some word =>
      have read := @RowOrder.ofWord?_isSome_iff options.aggregates
        (paging.orderBy.getD defaultColumn) word
      simp only [Option.some.injEq, forall_eq', Option.isNone_some, Bool.false_and,
        Bool.false_eq_true, ↓reduceIte, Option.getD_some, ← read]
      cases RowOrder.ofWord? options.aggregates (paging.orderBy.getD defaultColumn) word <;> simp

end Paging

namespace Filter

variable {filter : Filter}

theorem exists_projection_iff {fields : List String} :
    (∃ projection, filter.projection fields = .ok projection) ↔
      (∀ field ∈ fields, field ∈ filter.attributes) ∧ (fields ≠ [] ∨ filter.attributes ≠ []) := by
  rw [Filter.projection]
  by_cases unasked : fields = []
  · have all : filter.attributes.find? (fun field => !filter.allowsAttribute field) = none := by
      simp [allowsAttribute_iff]
    simp only [unasked, List.isEmpty_nil, ↓reduceIte, all]
    split <;> simp_all
  · have asked : fields.isEmpty = false := by simpa using unasked
    simp only [asked, Bool.false_eq_true, ↓reduceIte]
    split
    · rename_i field found
      have member := List.mem_of_find?_eq_some found
      have forbidden := List.find?_some found
      simp only [reduceCtorEq, exists_false, false_iff, not_and]
      intro permitted
      have allowed := allowsAttribute_iff.mpr (permitted field member)
      simp [allowed] at forbidden
    · rename_i none
      simp only [List.find?_eq_none, Bool.not_eq_true', Bool.not_eq_false,
        allowsAttribute_iff] at none
      simp only [Except.ok.injEq, exists_eq', true_iff]
      exact ⟨none, .inl unasked⟩

theorem exists_computation_iff {call : FunctionCall} :
    (∃ computation, filter.computation call = .ok computation) ↔ filter.AcceptsCall call := by
  rw [Filter.computation, AcceptsCall]
  split
  · simp [*]
  · rename_i named
    have counts : call.name = "count" := by simpa using named
    simp only [← isSome_include?_iff, counts, true_and]
    split
    · simp [*]
    · split <;> simp [*]
    · rename_i written several
      simp only [reduceCtorEq, exists_false, false_iff, not_or, not_exists, not_and]
      exact ⟨written, fun relation _ => several relation⟩

theorem checkIncludes_eq_ok_iff {includes : List Request} :
    filter.checkIncludes includes = .ok () ↔
      ∀ child ∈ includes, child.name ∈ Table.keys filter.includes := by
  induction includes with
  | nil => simp [checkIncludes]
  | cons child rest hypothesis =>
      rw [checkIncludes, List.forall_mem_cons, ← hypothesis, ← isSome_include?_iff]
      split <;> simp [*]

end Filter

/-! ## Plans -/

section Planning

variable {options : PlanOptions} {filter : Filter} {request : Request}

theorem exists_planIncludes_iff {includes : List Request}
    (available : ∀ child ∈ includes, child.name ∈ Table.keys filter.includes) :
    (∃ children, Request.planIncludes options filter includes = .ok children) ↔
      ∀ child ∈ includes, ∀ own, filter.include? child.name = some own →
        ∃ plan, child.plan options own = .ok plan := by
  simp only [planIncludes_eq_ok_iff, exists_forall₂_iff]
  apply forall₂_congr
  intro child member
  rcases Option.isSome_iff_exists.mp (Filter.isSome_include?_iff.mpr (available child member)) with
    ⟨own, found⟩
  constructor
  · rintro ⟨row, _, other, equal, planned⟩ own' equal'
    rw [equal] at equal'
    cases equal'
    exact ⟨row.2, planned⟩
  · intro plans
    rcases plans own found with ⟨plan, planned⟩
    exact ⟨(child.name, plan), rfl, own, found, planned⟩

/-- A request has a plan exactly when its root is accepted and its children have plans,
each under the filter of its relation. -/
theorem exists_plan_iff_children (counts : filter.BoundsCounts)
    (wellFormed : request.terms.WellFormed) :
    (∃ plan, request.plan options filter = .ok plan) ↔ filter.Accepts request ∧
      ∀ child ∈ request.includes, ∀ own, filter.include? child.name = some own →
        ∃ plan, child.plan options own = .ok plan := by
  constructor
  · rintro ⟨plan, planned⟩
    have parts := plan_eq_ok_iff.mp planned
    rcases parts.paging with ⟨paging, paged, ordered, _, _⟩
    have available := Filter.checkIncludes_eq_ok_iff.mp parts.included
    have projected := Filter.exists_projection_iff.mp ⟨_, parts.projection⟩
    have applied := (Paging.exists_ofClauses_iff counts).mp ⟨paging, paged⟩
    refine ⟨⟨available, projected.1, projected.2, ?_, ?_, ?_, ?_, ?_⟩,
      (exists_planIncludes_iff available).mp ⟨_, parts.children⟩⟩
    · intro call member
      rcases exists_mapM_eq_ok_iff.mp ⟨_, parts.functions⟩ call member with ⟨computation, computed⟩
      exact Filter.exists_computation_iff.mp ⟨computation, computed⟩
    · intro clause raw allowed given
      exact applied.1 (clause, raw) (List.mem_filter.mpr ⟨Table.mem_of_get? given, allowed⟩)
    · intro clause value forced
      exact applied.2 (clause, value) (Table.mem_of_get? forced)
    · rw [← Paging.order_eq_orderWord? wellFormed.clauses_sorted paged]
      exact Paging.exists_rowOrder_iff.mp ⟨_, ordered⟩
    · exact (Filter.exists_predicate_iff wellFormed.hasForm).mp ⟨_, parts.predicate⟩
  · rintro ⟨accepts, children⟩
    rcases Filter.exists_projection_iff.mpr ⟨accepts.fields, accepts.projection⟩ with
      ⟨projection, projected⟩
    have computed : ∃ functions, request.terms.functions.mapM filter.computation = .ok functions :=
      exists_mapM_eq_ok_iff.mpr fun call member =>
        Filter.exists_computation_iff.mpr (accepts.functions call member)
    rcases computed with ⟨functions, computed⟩
    have applied : ∃ paging, Paging.ofClauses filter request.terms.clauses = .ok paging := by
      apply (Paging.exists_ofClauses_iff counts).mpr
      constructor
      · rintro ⟨clause, raw⟩ member
        rcases List.mem_filter.mp member with ⟨given, allowed⟩
        exact accepts.clauses allowed
          ((Table.get?_eq_some_iff_mem wellFormed.clauses_sorted clause raw).mpr given)
      · rintro ⟨clause, value⟩ member
        exact accepts.statics
          ((Table.get?_eq_some_iff_mem filter.statics.clauses_sorted clause value).mpr member)
    rcases applied with ⟨paging, paged⟩
    have ordered : ∃ order, paging.rowOrder options = .ok order := by
      apply Paging.exists_rowOrder_iff.mpr
      rw [Paging.order_eq_orderWord? wellFormed.clauses_sorted paged]
      exact accepts.order
    rcases ordered with ⟨order, ordered⟩
    rcases (exists_planIncludes_iff accepts.includes).mpr children with ⟨included, planned⟩
    rcases (Filter.exists_predicate_iff wellFormed.hasForm).mpr accepts.predicates with
      ⟨predicate, resolved⟩
    exact ⟨⟨filter.entity, projection, predicate, included, order, paging.limit, paging.offset,
      functions⟩, plan_eq_ok_iff.mpr ⟨rfl, Filter.checkIncludes_eq_ok_iff.mpr accepts.includes,
        projected, computed, ⟨paging, paged, ordered, rfl, rfl⟩, planned, resolved⟩⟩

theorem exists_plan_iff_nodes
    (counts : ∀ {path own}, filter.at? path = some own → own.BoundsCounts)
    (wellFormed : request.Every Terms.WellFormed) :
    (∃ plan, request.plan options filter = .ok plan) ↔
      ∀ path node own, request.Node path node → filter.at? path = some own →
        own.Accepts node := by
  induction wellFormed generalizing filter with
  | @node number name terms includes own below hypothesis =>
      have inner : ∀ {child own}, filter.include? child = some own →
          ∀ {path last}, own.at? path = some last → filter.at? (child :: path) = some last := by
        intro child own available path last found
        rw [Filter.at?, available]
        exact found
      have root : filter.at? [] = some filter := rfl
      rw [exists_plan_iff_children (counts root) own]
      constructor
      · rintro ⟨accepts, children⟩ path node last reached found
        cases reached with
        | root =>
            cases found
            exact accepts
        | child member reached =>
            rw [Filter.at?, Option.bind_eq_some_iff] at found
            rcases found with ⟨childFilter, available, found⟩
            exact (hypothesis _ member fun at_child => counts (inner available at_child)).mp
              (children _ member childFilter available) _ node last reached found
      · intro accepts
        refine ⟨accepts [] _ filter (.root _) root, ?_⟩
        intro child member childFilter available
        apply (hypothesis child member fun at_child => counts (inner available at_child)).mpr
        intro path node last reached found
        exact accepts _ node last (.child member reached) (inner available found)

end Planning

/-- A request that was scanned has a plan exactly when every node of it is accepted by the
filter that is reached by the same relations. -/
theorem exists_plan_iff {scanning : ScanOptions} {text : String} {request : Request}
    (scanned : scan scanning text = .ok request) {filter : Filter} (obtained : filter.Obtained)
    (planning : PlanOptions) :
    (∃ plan, request.plan planning filter = .ok plan) ↔
      ∀ path node own, request.Node path node → filter.at? path = some own →
        own.Accepts node :=
  exists_plan_iff_nodes obtained.boundsCounts (scan_every Terms.WellFormed.kept scanned)

/-- A field that is not permitted is found in a group within a group of an include. -/
theorem exists_plan_iff_comments :
    ∃ filter request,
      Filter.build
        ⟨[("comments", { name := "comments", attributes := ["id", "secret"] }),
          ("posts", { name := "posts", attributes := ["id"],
                      relations := [⟨"comments", .hasMany, "comments"⟩] })]⟩
        "posts" { includes := [("comments", { attributes := some ["id"] })] } = .ok filter ∧
      scan {} "limit=+7&order=MAX&includes=comments(or(id=1,not(secret=2)))" = .ok request ∧
      request.plan {} filter = .error (.fieldNotAvailable "comments" "secret") ∧
      ((∃ plan, request.plan {} filter = .ok plan) ↔
        ∀ path node own, request.Node path node → filter.at? path = some own →
          own.Accepts node) := by
  let filter : Filter :=
    ⟨"posts", ["id"], Clause.all, [("comments", ⟨"comments", ["id"], Clause.all, [], {}, .none⟩)],
      {}, .none⟩
  let negated : Expression := .group [("not", .not (.group [("secret", .literal "2")]))]
  let request : Request :=
    ⟨0, "root", { clauses := [(.limit, "+7"), (.order, "MAX")] },
      [⟨1, "comments", { predicates := [("or", .or [.group [("id", .literal "1")], negated])] },
        []⟩]⟩
  have built : Filter.build
      ⟨[("comments", { name := "comments", attributes := ["id", "secret"] }),
        ("posts", { name := "posts", attributes := ["id"],
                    relations := [⟨"comments", .hasMany, "comments"⟩] })]⟩
      "posts" { includes := [("comments", { attributes := some ["id"] })] } = .ok filter := by cbv
  have scanned : scan {} "limit=+7&order=MAX&includes=comments(or(id=1,not(secret=2)))" =
      .ok request := by cbv
  have rejected : request.plan {} filter = .error (.fieldNotAvailable "comments" "secret") := by
    cbv
  exact ⟨filter, request, built, scanned, rejected, exists_plan_iff scanned (.build built) {}⟩

end QueryGate
