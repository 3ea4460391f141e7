import Mathlib
import QueryGate.Proofs.Arena.Filled
import QueryGate.Proofs.Plan.Acceptance
import QueryGate.Proofs.Plan.Groups
import QueryGate.Proofs.Plan.Apart
import QueryGate.Proofs.Plan.Members
import QueryGate.Proofs.Scanner.Writing

/-!
# Conditions that look alike

Where an attribute has the name of a connective and another has the name of an operator, a group
of one equality looks like the operator: both are the object whose only member has that name. If
something may be asked under the word of a connective, there are two queries that ask for either,
with plans that differ and look alike. They can ask so of any node that a plan reaches.
-/

namespace QueryGate

open Expression

/-! ### Expressions with one connective -/

namespace Connective

/-- The condition on a field that the connective makes of one. -/
def hold : Connective → Condition → Condition
  | .and, condition => .and [condition]
  | .or, condition => .or [condition]
  | .not, condition => .not condition

/-- What the connective makes of one condition where it stands under its own word. -/
def gather : Connective → Condition → Condition
  | .and, condition | .or, condition => .operands [condition]
  | .not, condition => condition

theorem hold_injective (joining : Connective) : Function.Injective joining.hold := by
  intro condition other same
  cases joining <;> simpa [hold] using same

theorem gather_injective (joining : Connective) : Function.Injective joining.gather := by
  intro condition other same
  cases joining <;> simpa [gather] using same

variable {condition other : Condition} {filter : Filter} {operand : Expression}

theorem toJson_hold (joining : Connective) (same : condition.toJson = other.toJson) :
    (joining.hold condition).toJson = (joining.hold other).toJson := by
  cases joining <;> simp [hold, Condition.toJson, Condition.toJsonItems, same]

theorem toJson_gather (joining : Connective) (same : condition.toJson = other.toJson) :
    (joining.gather condition).toJson = (joining.gather other).toJson := by
  cases joining <;> simp [gather, Condition.toJson, Condition.toJsonItems, same]

theorem resolve_value (joining : Connective) {field : String}
    (resolved : filter.resolve operand (.value field) = .ok condition) :
    filter.resolve (joining.join [operand]) (.value field) = .ok (joining.hold condition) := by
  cases joining <;>
    simp [join, hold, Filter.resolve, Filter.resolveAll, resolved, Except.map, bind, Except.bind,
      pure, Except.pure]

theorem resolve_group (joining : Connective) {key : String}
    (resolved : filter.resolve operand (.operand key) = .ok condition) :
    filter.resolve (joining.join [operand]) (.group key) = .ok (joining.gather condition) := by
  cases joining <;>
    simp [join, gather, Filter.resolve, Filter.resolveAll, resolved, Except.map, bind, Except.bind,
      pure, Except.pure]

theorem writable_value (joining : Connective) {depth : Nat}
    (writable : operand.Writable depth .value) :
    (joining.join [operand]).Writable (depth + 1) .value := by
  cases joining with
  | and => exact .and (List.cons_ne_nil _ _) (List.forall_mem_singleton.mpr writable)
  | or => exact .or (List.cons_ne_nil _ _) (List.forall_mem_singleton.mpr writable)
  | not => exact .not writable

theorem writable_group (joining : Connective) {depth : Nat}
    (writable : operand.Writable depth .condition) :
    (joining.join [operand]).Writable (depth + 1) (.group joining) := by
  cases joining with
  | and => exact .allOf (List.cons_ne_nil _ _) (List.forall_mem_singleton.mpr writable)
  | or => exact .anyOf (List.cons_ne_nil _ _) (List.forall_mem_singleton.mpr writable)
  | not => exact .negated writable

theorem fieldsWithin_join (joining : Connective) :
    (joining.join [operand]).fieldsWithin = operand.fieldsWithin := by
  cases joining <;> simp [join, fieldsWithin, fieldsWithinAll]

end Connective

/-- What can be written for a place can be read for it. -/
theorem Expression.Writable.hasForm {depth : Nat} {place : Form} {expression : Expression}
    (writable : expression.Writable depth place) : HasForm place expression := by
  induction writable with
  | literal => exact .literal _
  | like => exact .like _
  | notLike => exact .notLike _
  | oneOf => exact .oneOf _
  | not _ hypothesis => exact .not hypothesis
  | and some _ hypothesis => exact .and some hypothesis
  | or some _ hypothesis => exact .or some hypothesis
  | allOf some _ hypothesis => exact .allOf some hypothesis
  | anyOf some _ hypothesis => exact .anyOf some hypothesis
  | negated _ hypothesis => exact .negated hypothesis
  | negatedAll long _ hypothesis => exact .negatedAll long hypothesis
  | fields some _ _ hypothesis => exact .fields some hypothesis
  | ofValue _ _ hypothesis => exact .ofValue _ hypothesis
  | ofGroup _ hypothesis => exact .ofGroup hypothesis

/-! ### Two expressions under one name -/

namespace Filter

/-- Two expressions that can be asked for under a name, and come to different conditions that
look alike. -/
structure Twins (filter : Filter) (depth : Nat) (name : String) (first second : Expression) :
    Prop where
  writable : first.Writable depth (.entry name) ∧ second.Writable depth (.entry name)
  permitted : filter.PermitsFields (fieldsUnder name first) ∧
    filter.PermitsFields (fieldsUnder name second)
  resolves : ∃ condition other, filter.Resolves (name, first) (name, condition) ∧
    filter.Resolves (name, second) (name, other) ∧ condition.toJson = other.toJson ∧
    condition ≠ other

variable {filter : Filter}

theorem literal_of_letter (filter : Filter) (field : String) :
    filter.literal field "x" = .string "x" := by
  have typed : typedLiteral "x" = .string "x" := by cbv
  rw [literal, typed]
  split <;> rfl

/-- An operator that has the name of an attribute. -/
theorem exists_operator (shared : ¬filter.KeepsOperators) :
    ∃ word expression, word ∈ filter.attributes ∧ IsName word ∧
      (∀ depth, expression.Writable (depth + 1) .value) ∧ expression.fieldsWithin = [] ∧
      ∀ field, ∃ condition, filter.resolve expression (.value field) = .ok condition ∧
        condition.toJson = .single word (.string "x") ∧ ∀ rows, condition ≠ .fields rows := by
  have letter : IsName "x" := by decide
  by_cases like : Operator.like.word ∈ filter.attributes
  · refine ⟨_, .like "x", like, by decide, fun depth => .like depth letter, rfl, fun field => ?_⟩
    exact ⟨.like "x", by rw [resolve], rfl, by simp⟩
  by_cases notLike : Operator.notLike.word ∈ filter.attributes
  · refine ⟨_, .notLike "x", notLike, by decide, fun depth => .notLike depth letter, rfl,
      fun field => ?_⟩
    exact ⟨.notLike "x", by rw [resolve], rfl, by simp⟩
  by_cases not : Connective.not.word ∈ filter.attributes
  · refine ⟨_, .not (.literal "x"), not, by decide,
      fun depth => .not (.literal depth letter), rfl, fun field => ?_⟩
    refine ⟨.not (.equals (.string "x")), ?_, rfl, by simp⟩
    rw [resolve, resolve, literal_of_letter]
    rfl
  exact absurd ⟨like, notLike, not⟩ shared

/-- Under an attribute with the word of a connective, an operator and a group of one equality. -/
theorem exists_twins_of_attribute {joining : Connective}
    (allowed : joining.word ∈ filter.attributes) (shared : ¬filter.KeepsOperators) :
    ∃ first second, ∀ depth, filter.Twins (depth + 2) joining.word first second := by
  obtain ⟨word, expression, permitted, named, writable, within, resolves⟩ := exists_operator shared
  let rows : List (String × Expression) := [(word, .literal "x")]
  refine ⟨joining.join [.group rows], joining.join [expression], fun depth => ⟨⟨?_, ?_⟩, ?_, ?_⟩⟩
  · have letter : IsName "x" := by decide
    apply Writable.ofGroup
    apply joining.writable_group
    apply Writable.fields (List.cons_ne_nil _ _) (List.pairwise_singleton _ _)
    exact List.forall_mem_singleton.mpr (.ofValue named (.literal _ letter))
  · exact .ofValue joining.isName_word (joining.writable_value (writable depth))
  · simp [fieldsUnder, joining.fieldsWithin_join, within, rows, fieldsWithin, fieldsNamed,
      PermitsFields, permitted, allowed]
  · obtain ⟨condition, resolved, shown, other⟩ := resolves joining.word
    have placed : filter.roleOf joining.word = .ok (.value joining.word) :=
      roleOf_eq_ok_iff.mpr (.inl ⟨allowed, rfl⟩)
    have grouped : filter.resolve (.group rows) (.value joining.word) =
        .ok (.fields [(word, .equals (.string "x"))]) := by
      have placedWord : filter.roleOf word = .ok (.value word) :=
        roleOf_eq_ok_iff.mpr (.inl ⟨permitted, rfl⟩)
      have row : filter.Resolves (word, .literal "x") (word, .equals (.string "x")) :=
        ⟨rfl, _, placedWord, by rw [resolve, literal_of_letter]⟩
      rw [resolve, resolveFields_eq_ok_iff.mpr (.cons row .nil)]
      rfl
    refine ⟨_, _, ⟨rfl, _, placed, joining.resolve_value grouped⟩,
      ⟨rfl, _, placed, joining.resolve_value resolved⟩, joining.toJson_hold shown.symm, ?_⟩
    intro same
    exact other _ (joining.hold_injective same).symm

/-- In a group, what looks alike in it. -/
theorem Twins.of_group {depth : Nat} {name : String} {first second : Expression}
    (twins : filter.Twins depth name first second) {joining : Connective}
    (forbidden : joining.word ∉ filter.attributes) :
    filter.Twins (depth + 1) joining.word (joining.join [.group [(name, first)]])
      (joining.join [.group [(name, second)]]) := by
  have writable : ∀ {expression : Expression}, expression.Writable depth (.entry name) →
      (joining.join [.group [(name, expression)]]).Writable (depth + 1) (.entry joining.word) := by
    intro expression written
    apply Writable.ofGroup
    apply joining.writable_group
    exact .fields (List.cons_ne_nil _ _) (List.pairwise_singleton _ _)
      (List.forall_mem_singleton.mpr written)
  have within (expression : Expression) :
      fieldsUnder joining.word (joining.join [.group [(name, expression)]]) =
        fieldsUnder name expression := by
    have some := fieldsUnder_ne_nil name expression
    rw [fieldsUnder, joining.fieldsWithin_join, fieldsWithin, fieldsNamed_eq_flatMap,
      List.flatMap_singleton, if_neg (by simpa using some)]
  have resolves : ∀ {expression : Expression} {condition : Condition},
      filter.Resolves (name, expression) (name, condition) →
      filter.Resolves (joining.word, joining.join [.group [(name, expression)]])
        (joining.word, joining.gather (.fields [(name, condition)])) := by
    intro expression condition row
    refine ⟨rfl, _, roleOf_eq_ok_iff.mpr (.inr ⟨forbidden, by simp, rfl⟩),
      joining.resolve_group ?_⟩
    rw [resolve, resolveFields_eq_ok_iff.mpr (.cons row .nil)]
    rfl
  obtain ⟨condition, other, resolvesFirst, resolvesSecond, same, different⟩ := twins.resolves
  refine ⟨⟨writable twins.writable.1, writable twins.writable.2⟩, ?_,
    _, _, resolves resolvesFirst, resolves resolvesSecond, joining.toJson_gather ?_, ?_⟩
  · rw [within, within]
    exact twins.permitted
  · simp [Condition.toJson, Condition.toJsonFields, same]
  · intro equal
    exact different (by simpa using joining.gather_injective equal)

/-- Where conditions cannot be told apart, something that looks alike can be asked for. -/
theorem exists_twins (alike : ¬filter.TellsApart) :
    ∃ joining : Connective, filter.forcesAttribute joining.word = false ∧
      ∃ first second, ∀ depth, filter.Twins (depth + 3) joining.word first second := by
  simp only [TellsApart, KeepsConnectives, not_or, not_forall, not_not] at alike
  obtain ⟨⟨inner, allowed⟩, shared, joining, unforced⟩ := alike
  refine ⟨joining, by simpa using unforced, ?_⟩
  by_cases own : joining.word ∈ filter.attributes
  · obtain ⟨first, second, twins⟩ := exists_twins_of_attribute own shared
    exact ⟨first, second, fun depth => twins (depth + 1)⟩
  · obtain ⟨first, second, twins⟩ := exists_twins_of_attribute allowed shared
    exact ⟨_, _, fun depth => (twins depth).of_group own⟩

end Filter

/-! ### Two predicates -/

namespace Table

variable {κ α β : Type} [Ord κ]

theorem mapValues_insert (image : α → β) (key : κ) (value : α) (rows : Table κ α) :
    mapValues image (insert key value rows) = insert key (image value) (mapValues image rows) := by
  induction rows with
  | nil => rfl
  | cons row rest hypothesis =>
      have images : mapValues image (row :: rest) = (row.1, image row.2) :: mapValues image rest :=
        rfl
      rw [images, insert, insert]
      cases compare key row.1 with
      | lt => rfl
      | eq => rfl
      | gt =>
          rw [← hypothesis]
          rfl

theorem mapValues_override (image : α → β) (rows upper : Table κ α) :
    mapValues image (override rows upper) =
      override (mapValues image rows) (mapValues image upper) := by
  induction upper generalizing rows with
  | nil => rfl
  | cons row rest hypothesis =>
      have folded : override rows (row :: rest) = override (insert row.1 row.2 rows) rest := rfl
      rw [folded, hypothesis, mapValues_insert]
      rfl

end Table

namespace Filter

variable {filter : Filter}

theorem toJsonFields_eq_mapValues (rows : Table String Condition) :
    Condition.toJsonFields rows = Table.mapValues Condition.toJson rows := by
  induction rows with
  | nil => rfl
  | cons row rest hypothesis =>
      rw [Condition.toJsonFields, hypothesis]
      rfl

theorem force_ne_nil (filter : Filter) {demanded : Table String Condition} {name : String}
    (asked : (Table.get? demanded name).isSome) : filter.force demanded ≠ [] := by
  intro none
  have found := filter.get?_force demanded name
  rw [none, Table.get?_nil] at found
  rw [(Option.or_eq_none_iff.mp found.symm).2] at asked
  cases asked

/-- Predicates of what looks alike differ and look alike, if nothing is forced there. -/
theorem Twins.predicates {depth : Nat} {name : String} {first second : Expression}
    (twins : filter.Twins depth name first second)
    (unforced : filter.forcesAttribute name = false) :
    ∃ predicate other, filter.predicate [(name, first)] = .ok predicate ∧
      filter.predicate [(name, second)] = .ok other ∧
      predicate.map Plan.rowsToJson = other.map Plan.rowsToJson ∧ predicate ≠ other := by
  have made : ∀ {expression condition}, filter.Resolves (name, expression) (name, condition) →
      filter.predicate [(name, expression)] = .ok (some (filter.force [(name, condition)])) := by
    intro expression condition row
    refine predicate_eq_ok_iff.mpr ⟨_, resolveFields_eq_ok_iff.mpr (.cons row .nil), ?_⟩
    have asked : (Table.get? [(name, condition)] name).isSome := by simp [Table.get?_cons]
    have some := filter.force_ne_nil asked
    rw [if_neg (by simpa using some)]
  obtain ⟨condition, other, resolvesFirst, resolvesSecond, same, different⟩ := twins.resolves
  refine ⟨_, _, made resolvesFirst, made resolvesSecond, ?_, ?_⟩
  · rw [Option.map_some, Option.map_some, Plan.rowsToJson, Plan.rowsToJson]
    congr 2
    rw [toJsonFields_eq_mapValues, toJsonFields_eq_mapValues, force, force,
      Table.mapValues_override, Table.mapValues_override]
    congr 1
    simp [Table.mapValues, same]
  · intro equal
    rw [forcesAttribute, Option.isSome_eq_false_iff, Option.isNone_iff_eq_none] at unforced
    have found := congrArg (fun rows => Table.get? rows name) (Option.some.inj equal)
    simp only [get?_force, unforced, Option.map_none, Option.none_or, Table.get?_cons] at found
    exact different (by simpa using found)

end Filter

/-! ### Requests for one node -/

namespace Request

/-- The request for the node at the end of a path, with predicates there and nothing else. -/
def chain (predicates : Table String Expression) : Path → String → Request
  | [], name => ⟨0, name, { predicates := predicates }, []⟩
  | relation :: path, name => ⟨0, name, {}, [chain predicates path relation]⟩

theorem name_chain (predicates : Table String Expression) (path : Path) (name : String) :
    (chain predicates path name).name = name := by
  cases path <;> rfl

variable {predicates : Table String Expression} {path : Path}

theorem writable_chain {depth : Nat} (named : ∀ relation ∈ path, IsName relation)
    (writable : Terms.Writable depth { predicates := predicates }) (name : String) :
    Writable depth path.length (chain predicates path name) := by
  have nothing : Terms.Writable depth {} :=
    ⟨.empty, by simp, by simp, List.nodup_nil, by simp, by simp⟩
  induction path generalizing name with
  | nil => exact .leaf _ writable
  | cons relation path hypothesis =>
      rw [List.forall_mem_cons] at named
      apply Writable.node nothing
      · simp
      · rw [List.forall_mem_singleton, name_chain]
        exact named.1
      · rw [List.forall_mem_singleton]
        exact hypothesis named.2 relation

/-- What can be written has a query. -/
theorem exists_scan_of_writable {options : ScanOptions} {request : Request} {room : Nat}
    (writable : request.Writable options.maxDepth room) (root : request.name = rootName)
    (fits : room ≤ options.maxDepth) :
    ∃ text scanned, scan options text = .ok scanned ∧ scanned.unnumbered = request.unnumbered := by
  obtain ⟨edits, writes, turns⟩ := writable.exists_writes
  rw [root] at turns
  rw [← String.toList_ofList (l := request.query)] at writes
  obtain ⟨scanned, accepted, same⟩ := exists_scan_of_turns writes turns fits
  exact ⟨_, scanned, accepted, same⟩

end Request

section Chains

variable {options : PlanOptions} {filter own : Filter} {predicates others : Table String Expression}
  {path : Path}

/-- A node that is accepted is accepted with nothing but predicates, and relations of it. -/
theorem Filter.Accepts.of_predicates {node : Request} (accepts : filter.Accepts node)
    (permitted : ∀ field ∈ fieldsNamed predicates, field ∈ filter.attributes)
    {includes : List Request}
    (available : ∀ child ∈ includes, child.name ∈ Table.keys filter.includes) (number : Nat)
    (name : String) :
    filter.Accepts ⟨number, name, { predicates := predicates }, includes⟩ where
  includes := available
  fields := by simp
  projection := by
    refine .inr ?_
    intro none
    obtain asked | some := accepts.projection
    · obtain ⟨field, member⟩ := List.exists_mem_of_ne_nil _ asked
      have permitted := accepts.fields field member
      rw [none] at permitted
      cases permitted
    · exact some none
  functions := by simp
  clauses := by
    intro clause raw _ given
    cases given
  statics := accepts.statics
  order := by
    intro word settled
    apply accepts.order
    rw [orderWord?] at settled ⊢
    split at settled
    · exact settled
    · simp at settled
  predicates := permitted

/-- Where a plan has a node, there is one for nothing but predicates of that node. -/
theorem exists_plan_chain (counts : ∀ {path own}, filter.at? path = some own → own.BoundsCounts)
    {request : Request} (every : request.Every Terms.WellFormed) {plan node : Plan}
    (planned : request.plan options filter = .ok plan) (reached : plan.Node path node)
    (found : filter.at? path = some own)
    (wellFormed : Terms.WellFormed { predicates := predicates })
    (permitted : own.PermitsFields (fieldsNamed predicates)) (name : String) :
    ∃ plan, (Request.chain predicates path name).plan options filter = .ok plan := by
  have root : filter.at? [] = some filter := rfl
  induction reached generalizing filter request name with
  | root =>
      have accepts := ((exists_plan_iff_children (counts root) every.terms).mp ⟨_, planned⟩).1
      cases found
      rw [Request.chain]
      apply (exists_plan_iff_children (counts root) wellFormed).mpr
      exact ⟨accepts.of_predicates permitted (by simp) 0 name, by simp⟩
  | @child plan child node relation path member _ hypothesis =>
      have accepts := ((exists_plan_iff_children (counts root) every.terms).mp ⟨_, planned⟩).1
      obtain ⟨source, inIncludes, same, below, available, plannedChild⟩ :=
        exists_of_mem_planIncludes (plan_eq_ok_iff.mp planned).children member
      rw [Filter.at?, available] at found
      have inner : ∀ {path last}, below.at? path = some last → last.BoundsCounts := by
        intro path last reached clause bound bounded
        have above : filter.at? (relation :: path) = some last := by
          rw [Filter.at?, available]
          exact reached
        exact counts above bounded
      have later := hypothesis inner (every.children _ inIncludes) plannedChild found relation rfl
      have empty : Terms.WellFormed {} := Terms.WellFormed.kept.empty
      rw [Request.chain]
      apply (exists_plan_iff_children (counts root) empty).mpr
      refine ⟨accepts.of_predicates (by simp [fieldsNamed]) ?_ 0 name, ?_⟩
      · rw [List.forall_mem_singleton, Request.name_chain]
        have named : relation = source.name := same
        rw [named]
        exact accepts.includes source inIncludes
      · rw [List.forall_mem_singleton, Request.name_chain]
        intro own foundOwn
        rw [available] at foundOwn
        cases foundOwn
        exact later

/-- With another child of its name, a request of one child has the plan that differs in nothing but
the plan of the child. -/
theorem exists_plan_of_child {number : Nat} {name : String} {terms : Terms} {child : Request}
    {plan : Plan}
    (planned : (⟨number, name, terms, [child]⟩ : Request).plan options filter = .ok plan) :
    ∃ below inner, filter.include? child.name = some below ∧
      child.plan options below = .ok inner ∧ plan.includes = [(child.name, inner)] ∧
      ∀ {other : Request} {innerOther : Plan}, other.name = child.name →
        other.plan options below = .ok innerOther →
        (⟨number, name, terms, [other]⟩ : Request).plan options filter =
          .ok { plan with includes := [(child.name, innerOther)] } := by
  have parts := plan_eq_ok_iff.mp planned
  obtain ⟨⟨relation, inner⟩, rest, ⟨same, below, available, plannedInner⟩, nothing, included⟩ :=
    List.forall₂_cons_left_iff.mp (planIncludes_eq_ok_iff.mp parts.children)
  cases List.forall₂_nil_left_iff.mp nothing
  obtain rfl : relation = child.name := same
  refine ⟨below, inner, available, plannedInner, included, ?_⟩
  intro other innerOther named plannedOther
  have checked : filter.checkIncludes [other] = .ok () := by
    rw [Filter.checkIncludes, named]
    exact parts.included
  have children : Request.planIncludes options filter [other] = .ok [(child.name, innerOther)] :=
    planIncludes_eq_ok_iff.mpr (.cons ⟨named.symm, below, named ▸ available, plannedOther⟩ .nil)
  exact plan_eq_ok_iff.mpr ⟨parts.entity, checked, parts.projection, parts.functions, parts.paging,
    children, parts.predicate⟩

/-- Other predicates at the end of a path make another plan, which looks the same where the
predicates do. -/
theorem exists_plan_chain_of_predicate (found : filter.at? path = some own)
    {predicate other : Option (Table String Condition)}
    (made : own.predicate predicates = .ok predicate) (madeOther : own.predicate others = .ok other)
    {name : String} {plan : Plan}
    (planned : (Request.chain predicates path name).plan options filter = .ok plan) :
    ∃ planOther, (Request.chain others path name).plan options filter = .ok planOther ∧
      (predicate.map Plan.rowsToJson = other.map Plan.rowsToJson →
        plan.members = planOther.members) ∧
      (plan = planOther → predicate = other) := by
  induction path generalizing filter name plan with
  | nil =>
      cases found
      have asked := (plan_eq_ok_iff.mp planned).predicate
      rw [Request.chain, made, Except.ok.injEq] at asked
      refine ⟨_, Request.plan_of_predicates planned madeOther, ?_, ?_⟩
      · intro same
        apply Plan.members_of_predicate
        rw [← asked, same]
      · intro same
        rw [asked, same]
  | cons relation path hypothesis =>
      rw [Request.chain] at planned
      obtain ⟨below, child, available, plannedChild, included, plans⟩ :=
        exists_plan_of_child planned
      rw [Request.name_chain] at available included plans
      rw [Filter.at?, available] at found
      obtain ⟨childOther, plannedOther, alike, told⟩ := hypothesis found plannedChild
      refine ⟨_, plans (Request.name_chain _ _ _) plannedOther, ?_, ?_⟩
      · intro same
        apply Plan.members_of_includes
        simp only [included, Plan.includesToJson, alike same]
      · intro same
        have includes := congrArg Plan.includes same
        rw [included] at includes
        apply told
        simpa using includes

end Chains

/-- The relations on the way to a node of a request that is scanned have names. -/
theorem isName_of_node {options : ScanOptions} {text : String} {request node : Request}
    {path : Path} (scanned : scan options text = .ok request) (reached : request.Node path node) :
    ∀ relation ∈ path, IsName relation := by
  have onWay : ∀ relation ∈ path, ∃ before child, request.Node before child ∧
      child.name = relation := by
    clear scanned
    induction reached with
    | root => simp
    | @child request child node path member _ hypothesis =>
        rw [List.forall_mem_cons]
        refine ⟨⟨_, child, .child member (.root child), rfl⟩, ?_⟩
        intro relation later
        obtain ⟨before, last, reachedLast, named⟩ := hypothesis relation later
        exact ⟨_, last, .child member reachedLast, named⟩
  obtain ⟨arena, scannedArena, represents⟩ := exists_represents_of_scan scanned
  intro relation member
  obtain ⟨before, child, reachedChild, rfl⟩ := onWay relation member
  obtain ⟨parent, entry⟩ :=
    represents.stores.nodes (represents.stores.distinct.at?_of_node reachedChild)
  exact (filled_scanArena scannedArena _ (List.mem_of_getElem? entry)).1

/-- Where conditions cannot be told apart at a node that a plan reaches, there are two queries
whose plans differ and look alike. -/
theorem exists_twin_plans {filter own : Filter}
    (counts : ∀ {path own}, filter.at? path = some own → own.BoundsCounts)
    {scanning : ScanOptions} {text : String} {request : Request}
    (scanned : scan scanning text = .ok request) {planning : PlanOptions} {plan node : Plan}
    (planned : request.plan planning filter = .ok plan) {path : Path}
    (reached : plan.Node path node) (found : filter.at? path = some own)
    (alike : ¬own.TellsApart) :
    ∃ options first second requestFirst requestSecond planFirst planSecond,
      scan options first = .ok requestFirst ∧ scan options second = .ok requestSecond ∧
      requestFirst.plan planning filter = .ok planFirst ∧
      requestSecond.plan planning filter = .ok planSecond ∧
      planFirst.toJson = planSecond.toJson ∧ planFirst ≠ planSecond := by
  obtain ⟨joining, unforced, first, second, twins⟩ := Filter.exists_twins alike
  obtain ⟨_, source, -, reachedSource, -⟩ := origin_of_node planned reached
  have named := isName_of_node scanned reachedSource
  let options : ScanOptions := { maxDepth := path.length + 3 }
  have query : ∀ {expression}, expression.Writable options.maxDepth (.entry joining.word) →
      ∃ text scanned, scan options text = .ok scanned ∧ scanned.plan planning filter =
        (Request.chain [(joining.word, expression)] path Request.rootName).plan planning
          filter := by
    intro expression writable
    have terms : Terms.Writable options.maxDepth { predicates := [(joining.word, expression)] } :=
      ⟨⟨.nil, List.pairwise_singleton _ _⟩, by simp, by simp, List.nodup_nil, by simp,
        List.forall_mem_singleton.mpr ⟨by cases joining <;> rfl, writable⟩⟩
    obtain ⟨text, scanned, accepted, same⟩ := Request.exists_scan_of_writable
      (Request.writable_chain named terms Request.rootName) (Request.name_chain _ _ _)
      (Nat.le_add_right _ _)
    refine ⟨text, scanned, accepted, ?_⟩
    rw [← Request.plan_unnumbered, same, Request.plan_unnumbered]
  have both := twins path.length
  obtain ⟨predicate, other, made, madeOther, same, different⟩ := both.predicates unforced
  have wellFormed : Terms.WellFormed { predicates := [(joining.word, first)] } :=
    ⟨.nil, List.pairwise_singleton _ _, List.forall_mem_singleton.mpr both.writable.1.hasForm⟩
  have permitted : own.PermitsFields (fieldsNamed [(joining.word, first)]) := by
    rw [fieldsNamed_eq_flatMap, List.flatMap_singleton]
    exact both.permitted.1
  obtain ⟨planFirst, plannedFirst⟩ := exists_plan_chain counts
    (scan_every Terms.WellFormed.kept scanned) planned reached found wellFormed permitted
    Request.rootName
  obtain ⟨planSecond, plannedSecond, shown, told⟩ :=
    exists_plan_chain_of_predicate found made madeOther plannedFirst
  obtain ⟨textFirst, requestFirst, scannedFirst, sameFirst⟩ := query both.writable.1
  obtain ⟨textSecond, requestSecond, scannedSecond, sameSecond⟩ := query both.writable.2
  refine ⟨options, textFirst, textSecond, requestFirst, requestSecond, planFirst, planSecond,
    scannedFirst, scannedSecond, sameFirst.trans plannedFirst, sameSecond.trans plannedSecond,
    congrArg Json.object (shown same), fun equal => different (told equal)⟩

end QueryGate
