import Mathlib
import QueryGate.Proofs.Plan.Meaning

/-!
# The shapes of conditions

The conditions that a filter makes of what was read for a place. What was read for a value comes
to a condition on one field. What was read for a group comes to conditions on fields, in an array
or in an object; under a permitted attribute whose name is the word of a connective, the same
conditions on fields stand where conditions on that one field do.
-/

namespace QueryGate

open Expression

/-- A value that is neither an array nor an object. -/
def Json.IsScalar : Json → Prop
  | .null | .bool _ | .number _ | .string _ => True
  | .array _ | .object _ => False

theorem isScalar_typedLiteral (raw : String) : (typedLiteral raw).IsScalar := by
  unfold typedLiteral
  repeat' split
  all_goals trivial

theorem Filter.isScalar_literal (filter : Filter) (field raw : String) :
    (filter.literal field raw).IsScalar := by
  have scalar := isScalar_typedLiteral raw
  rw [literal]
  split
  · generalize typedLiteral raw = value at scalar
    cases value with
    | array items => cases scalar
    | object members => cases scalar
    | _ => trivial
  · exact scalar

namespace Condition

/-- The conditions that a filter makes of expressions that were read for a place. -/
inductive Shape (filter : Filter) : Form → Condition → Prop where
  | equals {value : Json} : value.IsScalar → Shape filter .value (.equals value)
  | like (pattern : String) : Shape filter .value (.like pattern)
  | notLike (pattern : String) : Shape filter .value (.notLike pattern)
  | oneOf (values : List Json) : Shape filter .value (.oneOf values)
  | not {operand : Condition} : Shape filter .value operand → Shape filter .value (.not operand)
  | and {items : List Condition} :
      items ≠ [] → (∀ item ∈ items, Shape filter .value item) → Shape filter .value (.and items)
  | or {items : List Condition} :
      items ≠ [] → (∀ item ∈ items, Shape filter .value item) → Shape filter .value (.or items)
  | operands {joining : Connective} {items : List Condition} :
      joining ≠ .not → items ≠ [] → (∀ item ∈ items, Shape filter .condition item) →
      Shape filter (.group joining) (.operands items)
  | negated {condition : Condition} :
      Shape filter .condition condition → Shape filter (.group .not) condition
  | negatedAll {items : List Condition} :
      items ≠ [] → (∀ item ∈ items, Shape filter .condition item) →
      Shape filter (.group .not) (Filter.nested .and (.operands items))
  | fields {rows : List (String × Condition)} :
      (∀ row ∈ rows, Shape filter (.entry row.1) row.2) → Shape filter .condition (.fields rows)
  | ofValue {name : String} {condition : Condition} :
      name ∈ filter.attributes → Shape filter .value condition →
      Shape filter (.entry name) condition
  | ofGroup {name : String} {joining : Connective} {condition : Condition} :
      name ∉ filter.attributes → name = joining.word → Shape filter (.group joining) condition →
      Shape filter (.entry name) condition
  /-- A group under the name of an attribute, among conditions on the attribute. -/
  | ofAnd {name : String} {items : List Condition} :
      name ∈ filter.attributes → name = Connective.and.word → items ≠ [] →
      (∀ item ∈ items, Shape filter .condition item) → Shape filter (.entry name) (.and items)
  | ofOr {name : String} {items : List Condition} :
      name ∈ filter.attributes → name = Connective.or.word → items ≠ [] →
      (∀ item ∈ items, Shape filter .condition item) → Shape filter (.entry name) (.or items)
  | ofNot {name : String} {operand : Condition} :
      name ∈ filter.attributes → name = Connective.not.word →
      Shape filter (.entry name) (.not operand)

end Condition

open Condition

/-- What an expression that was read for a place resolves to has the shape for the place,
in whatever role it stands there. -/
def Form.Shaped (filter : Filter) : Form → Expression → Prop
  | .value, expression => ∀ {field condition},
      filter.resolve expression (.value field) = .ok condition → Shape filter .value condition
  | .group joining, expression =>
      (∀ {key condition}, filter.resolve expression (.group key) = .ok condition →
        Shape filter (.group joining) condition) ∧
      ∀ {field condition}, joining.word ∈ filter.attributes →
        filter.resolve expression (.value field) = .ok condition →
        Shape filter (.entry joining.word) condition
  | .condition, expression =>
      (∀ {key condition}, filter.resolve expression (.operand key) = .ok condition →
        Shape filter .condition condition) ∧
      ∀ {field condition}, filter.resolve expression (.value field) = .ok condition →
        Shape filter .condition condition
  | .entry name, expression => ∀ {role condition}, filter.roleOf name = .ok role →
      filter.resolve expression role = .ok condition → Shape filter (.entry name) condition

namespace Filter

variable {filter : Filter}

/-- Several expressions that resolve come to as many conditions, each of them of one. -/
theorem exists_shapes_of_resolveAll {place : Form} {operands : List Expression} {role : Role}
    {join : List Condition → Condition} {condition : Condition} (written : operands ≠ [])
    (each : ∀ operand ∈ operands, ∀ item, filter.resolve operand role = .ok item →
      Shape filter place item)
    (resolved : (filter.resolveAll operands role).map join = .ok condition) :
    ∃ items, join items = condition ∧ items ≠ [] ∧ ∀ item ∈ items, Shape filter place item := by
  obtain ⟨items, all, joined⟩ := map_eq_ok_iff.mp resolved
  have pairs := resolveAll_eq_ok_iff.mp all
  refine ⟨items, joined, ?_, ?_⟩
  · rintro rfl
    exact written (List.forall₂_nil_right_iff.mp pairs)
  · intro item member
    obtain ⟨operand, inOperands, found⟩ := exists_of_mem_right pairs member
    exact each operand inOperands item found

theorem shapes_of_resolveFields {rows : List (String × Expression)}
    {results : List (String × Condition)}
    (each : ∀ row ∈ rows, (Form.entry row.1).Shaped filter row.2)
    (resolved : filter.resolveFields rows = .ok results) :
    ∀ result ∈ results, Shape filter (.entry result.1) result.2 := by
  intro result member
  obtain ⟨row, inRows, same, role, placed, found⟩ :=
    exists_of_mem_right (resolveFields_eq_ok_iff.mp resolved) member
  rw [same]
  exact each row inRows placed found

/-- What is resolved has the shape for the place that it was read for. -/
theorem shaped_of_hasForm {place : Form} {expression : Expression}
    (form : HasForm place expression) : place.Shaped filter expression := by
  induction form with
  | literal text =>
      intro field condition resolved
      rw [resolve] at resolved
      cases resolved
      exact .equals (filter.isScalar_literal field text)
  | like pattern =>
      intro field condition resolved
      rw [resolve] at resolved
      cases resolved
      exact .like pattern
  | notLike pattern =>
      intro field condition resolved
      rw [resolve] at resolved
      cases resolved
      exact .notLike pattern
  | oneOf items =>
      intro field condition resolved
      rw [resolve] at resolved
      cases resolved
      exact .oneOf _
  | not _ hypothesis =>
      intro field condition resolved
      rw [resolve, map_eq_ok_iff] at resolved
      obtain ⟨operand, found, rfl⟩ := resolved
      exact .not (hypothesis found)
  | and written _ hypothesis =>
      intro field condition resolved
      rw [resolve] at resolved
      obtain ⟨items, rfl, some, shapes⟩ := exists_shapes_of_resolveAll written
        (fun operand member _ => hypothesis operand member) resolved
      exact .and some shapes
  | or written _ hypothesis =>
      intro field condition resolved
      rw [resolve] at resolved
      obtain ⟨items, rfl, some, shapes⟩ := exists_shapes_of_resolveAll written
        (fun operand member _ => hypothesis operand member) resolved
      exact .or some shapes
  | allOf written _ hypothesis =>
      constructor
      · intro key condition resolved
        rw [resolve] at resolved
        obtain ⟨items, rfl, some, shapes⟩ := exists_shapes_of_resolveAll written
          (fun operand member _ => (hypothesis operand member).1) resolved
        exact .operands (by simp) some shapes
      · intro field condition allowed resolved
        rw [resolve] at resolved
        obtain ⟨items, rfl, some, shapes⟩ := exists_shapes_of_resolveAll written
          (fun operand member _ => (hypothesis operand member).2) resolved
        exact .ofAnd allowed rfl some shapes
  | anyOf written _ hypothesis =>
      constructor
      · intro key condition resolved
        rw [resolve] at resolved
        obtain ⟨items, rfl, some, shapes⟩ := exists_shapes_of_resolveAll written
          (fun operand member _ => (hypothesis operand member).1) resolved
        exact .operands (by simp) some shapes
      · intro field condition allowed resolved
        rw [resolve] at resolved
        obtain ⟨items, rfl, some, shapes⟩ := exists_shapes_of_resolveAll written
          (fun operand member _ => (hypothesis operand member).2) resolved
        exact .ofOr allowed rfl some shapes
  | negated _ hypothesis =>
      constructor
      · intro key condition resolved
        rw [resolve] at resolved
        exact .negated (hypothesis.1 resolved)
      · intro field condition allowed resolved
        rw [resolve, map_eq_ok_iff] at resolved
        obtain ⟨operand, _, rfl⟩ := resolved
        exact .ofNot allowed rfl
  | negatedAll long _ hypothesis =>
      constructor
      · intro key condition resolved
        rw [resolve, resolve] at resolved
        obtain ⟨items, rfl, some, shapes⟩ :=
          exists_shapes_of_resolveAll (List.ne_nil_of_length_pos (by omega))
            (fun operand member _ => (hypothesis operand member).1) resolved
        exact .negatedAll some shapes
      · intro field condition allowed resolved
        rw [resolve, map_eq_ok_iff] at resolved
        obtain ⟨operand, _, rfl⟩ := resolved
        exact .ofNot allowed rfl
  | fields _ _ hypothesis =>
      constructor
      · intro key condition resolved
        rw [resolve, map_eq_ok_iff] at resolved
        obtain ⟨rows, all, rfl⟩ := resolved
        exact .fields (shapes_of_resolveFields hypothesis all)
      · intro field condition resolved
        rw [resolve, map_eq_ok_iff] at resolved
        obtain ⟨rows, all, rfl⟩ := resolved
        exact .fields (shapes_of_resolveFields hypothesis all)
  | ofValue name value hypothesis =>
      intro role condition placed resolved
      obtain ⟨field, rfl⟩ := role_of_resolve_value value resolved
      obtain ⟨allowed, -⟩ | ⟨-, -, same⟩ := roleOf_eq_ok_iff.mp placed
      · exact .ofValue allowed (hypothesis resolved)
      · cases same
  | ofGroup _ hypothesis =>
      intro role condition placed resolved
      obtain ⟨allowed, rfl⟩ | ⟨forbidden, -, rfl⟩ := roleOf_eq_ok_iff.mp placed
      · exact hypothesis.2 allowed resolved
      · exact .ofGroup forbidden rfl (hypothesis.1 resolved)

end Filter

end QueryGate
