import QueryGate.Plan.Predicate
import QueryGate.Proofs.Expression.Form

/-!
# Resolving predicates

What the resolution of an expression succeeds with, one lemma for each kind of place
that an expression stands in. Expressions and groups are resolved item by item, and
what was read for a value resolves only where it is about a field.
-/

namespace QueryGate

open Expression

/-- The conditions of a plan by name; without a predicate there are none. -/
def Plan.rows (plan : Plan) : Table String Condition := plan.predicate.getD []

theorem Plan.condition?_eq_get? (plan : Plan) (name : String) :
    plan.condition? name = Table.get? plan.rows name := by
  rw [condition?, rows]
  cases plan.predicate with
  | none => rfl
  | some rows => rfl

namespace Filter

variable {filter : Filter}

/-- A permitted attribute is about its own value; only a connective's word that is no
such attribute stands over a group. -/
theorem roleOf_eq_ok_iff {name : String} {role : Role} :
    filter.roleOf name = .ok role ↔
      name ∈ filter.attributes ∧ role = .value name ∨
      name ∉ filter.attributes ∧ (Connective.ofWord? name).isSome ∧ role = .group name := by
  rw [roleOf]
  by_cases allowed : name ∈ filter.attributes
  · simp only [allowsAttribute_iff, allowed, ↓reduceIte, Except.ok.injEq, not_true_eq_false,
      false_and, or_false, true_and]
    exact eq_comm
  · simp only [allowsAttribute_iff, allowed, ↓reduceIte, not_false_eq_true, false_and, false_or,
      true_and]
    split
    · rename_i joining
      simp only [joining, true_and, Except.ok.injEq]
      exact eq_comm
    · rename_i other
      simp [other]

theorem resolveAll_eq_mapM (operands : List Expression) (role : Role) :
    filter.resolveAll operands role = operands.mapM fun operand => filter.resolve operand role := by
  induction operands with
  | nil => rw [resolveAll, List.mapM_nil]; rfl
  | cons operand rest hypothesis => rw [resolveAll, List.mapM_cons, hypothesis]

/-- Several expressions resolve when each of them does. -/
theorem resolveAll_eq_ok_iff {operands : List Expression} {role : Role}
    {conditions : List Condition} :
    filter.resolveAll operands role = .ok conditions ↔
      List.Forall₂ (fun operand condition => filter.resolve operand role = .ok condition)
        operands conditions := by
  rw [resolveAll_eq_mapM, mapM_eq_ok_iff]

/-- An expression resolves to the condition in the role that its name gives it. -/
def Resolves (filter : Filter) (row : String × Expression) (result : String × Condition) : Prop :=
  result.1 = row.1 ∧
    ∃ role, filter.roleOf row.1 = .ok role ∧ filter.resolve row.2 role = .ok result.2

/-- Rows resolve when each of them does, under its own name. -/
theorem resolveFields_eq_ok_iff {rows : List (String × Expression)}
    {results : List (String × Condition)} :
    filter.resolveFields rows = .ok results ↔ List.Forall₂ filter.Resolves rows results := by
  induction rows generalizing results with
  | nil =>
      rw [resolveFields, List.forall₂_nil_left_iff, Except.ok.injEq]
      exact eq_comm
  | cons row rest hypothesis =>
      rcases row with ⟨name, expression⟩
      simp only [resolveFields, bind_eq_ok_iff, pure_eq_ok_iff, hypothesis,
        List.forall₂_cons_left_iff]
      constructor
      · rintro ⟨role, placed, condition, resolved, others, later, rfl⟩
        exact ⟨(name, condition), others, ⟨rfl, role, placed, resolved⟩, later, rfl⟩
      · rintro ⟨⟨other, condition⟩, others, ⟨same, role, placed, resolved⟩, later, rfl⟩
        cases same
        exact ⟨role, placed, condition, resolved, others, later, rfl⟩

/-- Rows of some names resolve as they do among the others. -/
theorem resolveFields_filter (keep : String → Bool) {rows : Table String Expression}
    {results : Table String Condition} (resolved : filter.resolveFields rows = .ok results) :
    filter.resolveFields (rows.filter fun row => keep row.1) =
      .ok (results.filter fun row => keep row.1) := by
  have pairs := resolveFields_eq_ok_iff.mp resolved
  apply resolveFields_eq_ok_iff.mpr
  apply List.rel_filter _ pairs
  intro row result resolves
  simp only [resolves.1]

theorem keys_of_resolveFields {rows : Table String Expression} {results : Table String Condition}
    (resolved : filter.resolveFields rows = .ok results) : results.keys = rows.keys := by
  have pairs := resolveFields_eq_ok_iff.mp resolved
  clear resolved
  induction pairs with
  | nil => rfl
  | cons first _ hypothesis =>
      simp only [Table.keys, List.map_cons, first.1, List.cons.injEq, true_and]
      exact hypothesis

theorem sorted_of_resolveFields {rows : Table String Expression} {results : Table String Condition}
    (resolved : filter.resolveFields rows = .ok results) (sorted : rows.Sorted) :
    results.Sorted := by
  rw [Table.sorted_iff_keys, keys_of_resolveFields resolved, ← Table.sorted_iff_keys]
  exact sorted

/-- What stands under a name comes of what stands there in the request. -/
theorem get?_of_resolveFields {rows : Table String Expression} {results : Table String Condition}
    (resolved : filter.resolveFields rows = .ok results) (name : String) :
    Option.Rel (fun expression condition => filter.Resolves (name, expression) (name, condition))
      (Table.get? rows name) (Table.get? results name) := by
  have pairs := resolveFields_eq_ok_iff.mp resolved
  clear resolved
  induction pairs with
  | nil => exact .none
  | @cons row result _ _ first _ hypothesis =>
      rcases row with ⟨own, expression⟩
      rcases result with ⟨other, condition⟩
      cases first.1
      rw [Table.get?_cons, Table.get?_cons]
      by_cases same : name = own
      · subst same
        simpa using Option.Rel.some first
      · simpa only [beq_iff_eq, same, ↓reduceIte] using hypothesis

/-- Whether the filter forces a value on an attribute. -/
def forcesAttribute (filter : Filter) (name : String) : Bool :=
  (Table.get? filter.statics.attributes name).isSome

/-- A row that the filter itself puts into a predicate. -/
def Forces (filter : Filter) (row : String × Condition) : Prop :=
  ∃ value, (row.1, value) ∈ filter.statics.attributes ∧ row.2 = .equals value

theorem get?_force (demanded : Table String Condition) (name : String) :
    Table.get? (filter.force demanded) name =
      ((Table.get? filter.statics.attributes name).map .equals).or
        (Table.get? demanded name) := by
  rw [force, Table.get?_override (Table.sorted_mapValues filter.statics.attributes_sorted),
    Table.get?_mapValues]

/-- The rows that are forced, and those of what is demanded that nothing is forced on. -/
theorem mem_force_iff {demanded : Table String Condition} (sorted : demanded.Sorted)
    (row : String × Condition) :
    row ∈ filter.force demanded ↔ filter.Forces row ∨
      row ∈ demanded ∧ filter.forcesAttribute row.1 = false := by
  rw [force, Table.mem_override_iff sorted
    (Table.sorted_mapValues filter.statics.attributes_sorted), Table.get?_mapValues,
    Option.map_eq_none_iff, Table.mapValues, List.mem_map, forcesAttribute,
    Option.isSome_eq_false_iff, Option.isNone_iff_eq_none]
  constructor
  · rintro (⟨⟨name, value⟩, member, rfl⟩ | kept)
    · exact .inl ⟨value, member, rfl⟩
    · exact .inr kept
  · rintro (⟨value, member, equal⟩ | kept)
    · exact .inl ⟨(row.1, value), member, by rw [← equal]⟩
    · exact .inr kept

/-- A predicate holds what is demanded and forced; there is none when that is nothing. -/
theorem predicate_eq_ok_iff {predicates : Table String Expression}
    {predicate : Option (Table String Condition)} :
    filter.predicate predicates = .ok predicate ↔
      ∃ demanded, filter.resolveFields predicates = .ok demanded ∧
        predicate = if (filter.force demanded).isEmpty then none
          else some (filter.force demanded) := by
  simp only [Filter.predicate, bind_eq_ok_iff, pure_eq_ok_iff]
  constructor
  · rintro ⟨demanded, resolved, equal⟩
    exact ⟨demanded, resolved, equal.symm⟩
  · rintro ⟨demanded, resolved, equal⟩
    exact ⟨demanded, resolved, equal.symm⟩

theorem rows_of_predicate {predicates : Table String Expression} {plan : Plan}
    (made : filter.predicate predicates = .ok plan.predicate) :
    ∃ demanded, filter.resolveFields predicates = .ok demanded ∧
      plan.rows = filter.force demanded := by
  rcases predicate_eq_ok_iff.mp made with ⟨demanded, resolved, equal⟩
  refine ⟨demanded, resolved, ?_⟩
  rw [Plan.rows, equal]
  split
  · rename_i empty
    rw [List.isEmpty_iff.mp empty, Option.getD_none]
  · rfl

/-- What was read for a value resolves only where it is about a field. -/
theorem role_of_resolve_value {expression : Expression} (form : HasForm .value expression)
    {role : Role} {condition : Condition}
    (resolved : filter.resolve expression role = .ok condition) :
    ∃ field, role = .value field := by
  have first : ∀ {operands role conditions}, operands ≠ [] →
      filter.resolveAll operands role = .ok conditions →
      ∃ operand ∈ operands, ∃ condition, filter.resolve operand role = .ok condition := by
    intro operands role conditions written all
    cases resolveAll_eq_ok_iff.mp all with
    | nil => exact absurd rfl written
    | cons found _ => exact ⟨_, List.mem_cons_self, _, found⟩
  generalize equal : Form.value = place at form
  induction form generalizing role condition with
  | literal | like | notLike | oneOf =>
      cases role with
      | value field => exact ⟨field, rfl⟩
      | group key => simp [resolve, notConditions] at resolved
      | operand key => simp [resolve, notConditions] at resolved
  | not _ hypothesis =>
      cases role with
      | value field => exact ⟨field, rfl⟩
      | group key =>
          rw [resolve] at resolved
          cases (hypothesis resolved rfl).choose_spec
      | operand key =>
          rw [resolve, map_eq_ok_iff] at resolved
          rcases resolved with ⟨inner, found, _⟩
          cases (hypothesis found rfl).choose_spec
  | and written _ hypothesis | or written _ hypothesis =>
      cases role with
      | value field => exact ⟨field, rfl⟩
      | group key | operand key =>
          rw [resolve, map_eq_ok_iff] at resolved
          rcases resolved with ⟨conditions, all, _⟩
          rcases first written all with ⟨operand, member, inner, found⟩
          cases (hypothesis operand member found rfl).choose_spec
  | _ => cases equal

end Filter

end QueryGate
