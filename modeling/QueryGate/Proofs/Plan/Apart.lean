import Mathlib
import QueryGate.Proofs.Plan.Shape
import QueryGate.Proofs.Scanner.Groups

/-!
# Telling conditions apart

The JSON form of a condition does not say of which kind it is. At a place that the filter gives a
condition of one shape, the form still tells which one it is. Under a permitted attribute whose
name is the word of a connective, it does so only if no attribute has the name of an operator that
a condition on a field could begin with.
-/

namespace QueryGate

theorem Json.single_inj {name : String} {value other : Json} :
    Json.single name value = .single name other ↔ value = other := by
  simp [single]

namespace Condition

variable {filter : Filter}

/-! ### Lists and rows -/

theorem eq_of_toJsonItems {Good : Condition → Prop} {items others : List Condition}
    (each : ∀ item ∈ items, ∀ {other}, Good other → item.toJson = other.toJson → item = other)
    (good : ∀ other ∈ others, Good other) (same : toJsonItems items = toJsonItems others) :
    items = others := by
  induction items generalizing others with
  | nil =>
      cases others with
      | nil => rfl
      | cons other later => simp [toJsonItems] at same
  | cons item rest hypothesis =>
      cases others with
      | nil => simp [toJsonItems] at same
      | cons other later =>
          rw [List.forall_mem_cons] at each good
          simp only [toJsonItems, List.cons.injEq] at same
          rw [each.1 good.1 same.1, hypothesis each.2 good.2 same.2]

theorem eq_of_toJsonFields (Good : String → Condition → Prop)
    {rows others : List (String × Condition)}
    (each : ∀ row ∈ rows, ∀ {other}, Good row.1 other → row.2.toJson = other.toJson →
      row.2 = other)
    (good : ∀ other ∈ others, Good other.1 other.2)
    (same : toJsonFields rows = toJsonFields others) : rows = others := by
  induction rows generalizing others with
  | nil =>
      cases others with
      | nil => rfl
      | cons other later => simp [toJsonFields] at same
  | cons row rest hypothesis =>
      cases others with
      | nil => simp [toJsonFields] at same
      | cons other later =>
          obtain ⟨name, condition⟩ := row
          obtain ⟨nameOther, conditionOther⟩ := other
          rw [List.forall_mem_cons] at each good
          simp only [toJsonFields, List.cons.injEq, Prod.mk.injEq] at same
          obtain ⟨⟨rfl, sameCondition⟩, sameRest⟩ := same
          have sameValue : condition = conditionOther := each.1 good.1 sameCondition
          rw [sameValue, hypothesis each.2 good.2 sameRest]

theorem exists_of_toJsonItems {items others : List Condition} (some : items ≠ [])
    (same : toJsonItems items = toJsonItems others) :
    ∃ item ∈ items, ∃ other ∈ others, item.toJson = other.toJson := by
  cases items with
  | nil => exact absurd rfl some
  | cons item rest =>
      cases others with
      | nil => simp [toJsonItems] at same
      | cons other later =>
          simp only [toJsonItems, List.cons.injEq] at same
          exact ⟨item, List.mem_cons_self, other, List.mem_cons_self, same.1⟩

theorem exists_row_of_toJsonFields {rows : List (String × Condition)} {name : String}
    {value : Json} (same : toJsonFields rows = [(name, value)]) :
    ∃ condition, rows = [(name, condition)] ∧ condition.toJson = value := by
  cases rows with
  | nil => cases same
  | cons row rest =>
      cases rest with
      | nil =>
          obtain ⟨found, condition⟩ := row
          simp only [toJsonFields, List.cons.injEq, Prod.mk.injEq, and_true] at same
          obtain ⟨rfl, rfl⟩ := same
          exact ⟨condition, rfl, rfl⟩
      | cons other later => simp [toJsonFields] at same

/-! ### Arrays -/

/-- A condition on the value of a field is not an array. -/
theorem Shape.toJson_ne_array {condition : Condition} (shape : Shape filter .value condition)
    (items : List Json) : condition.toJson ≠ .array items := by
  intro same
  cases shape with
  | equals scalar =>
      rw [toJson] at same
      rw [same] at scalar
      exact scalar
  | _ => simp [toJson, Json.single] at same

/-- What is an array stands under the word of a connective that is no attribute, and has its
operands. -/
theorem Shape.operands_of_toJson {name : String} {condition : Condition}
    (shape : Shape filter (.entry name) condition) {values : List Json}
    (same : condition.toJson = .array values) :
    name ∉ filter.attributes ∧ ∃ items, condition = .operands items ∧ items ≠ [] ∧
      (∀ item ∈ items, Shape filter .condition item) ∧ toJsonItems items = values := by
  cases shape with
  | ofValue _ value => exact absurd same (value.toJson_ne_array values)
  | ofGroup forbidden _ group =>
      refine ⟨forbidden, ?_⟩
      cases group with
      | operands _ some each => exact ⟨_, rfl, some, each, Json.array.inj same⟩
      | negated inner =>
          cases inner with
          | fields => simp [toJson] at same
      | negatedAll => simp [Filter.nested, toJson] at same
  | ofAnd | ofOr | ofNot => simp [toJson, Json.single] at same

/-! ### Conditions on one field and on several -/

/-- What stands under a name in an object, and the operands of a group in an object of its own. -/
inductive Stands (filter : Filter) (name : String) : Condition → Prop where
  | entry {condition : Condition} :
      Shape filter (.entry name) condition → Stands filter name condition
  | operands (joining : Connective) {items : List Condition} :
      name = joining.word → items ≠ [] → (∀ item ∈ items, Shape filter .condition item) →
      Stands filter name (.operands items)

namespace Stands

variable {name : String} {condition : Condition}

theorem name_mem (stands : Stands filter name condition) :
    name ∈ filter.attributes ∨ ∃ joining : Connective, name = joining.word := by
  cases stands with
  | entry shape =>
      cases shape with
      | ofValue allowed _ => exact .inl allowed
      | ofGroup _ named _ => exact .inr ⟨_, named⟩
      | ofAnd allowed | ofOr allowed | ofNot allowed => exact .inl allowed
  | operands joining named => exact .inr ⟨joining, named⟩

theorem operands_of_toJson (stands : Stands filter name condition) {values : List Json}
    (same : condition.toJson = .array values) :
    (∃ joining : Connective, name = joining.word) ∧ ∃ items, (∀ item ∈ items,
      Shape filter .condition item) ∧ items ≠ [] ∧ toJsonItems items = values := by
  cases stands with
  | entry shape =>
      obtain ⟨forbidden, items, rfl, some, each, listed⟩ := shape.operands_of_toJson same
      exact ⟨(Stands.entry shape).name_mem.resolve_left forbidden, items, each, some, listed⟩
  | operands joining named some each =>
      exact ⟨⟨joining, named⟩, _, each, some, Json.array.inj same⟩

/-- What stands under `not` is an object of what stands under names, or it is an array. -/
theorem fields_of_not (stands : Stands filter Connective.not.word condition)
    (free : Connective.not.word ∉ filter.attributes) :
    (∃ values, condition.toJson = .array values) ∨
      ∃ rows, condition = .fields rows ∧ ∀ row ∈ rows, Stands filter row.1 row.2 := by
  cases stands with
  | operands => exact .inl ⟨_, rfl⟩
  | entry shape =>
      cases shape with
      | ofValue allowed | ofAnd allowed | ofOr allowed | ofNot allowed => exact absurd allowed free
      | ofGroup _ _ group =>
          cases group with
          | operands => exact .inl ⟨_, rfl⟩
          | negated inner =>
              cases inner with
              | fields each => exact .inr ⟨_, rfl, fun row member => .entry (each row member)⟩
          | negatedAll some each =>
              refine .inr ⟨_, rfl, ?_⟩
              rw [List.forall_mem_singleton]
              exact .operands .and rfl some each

end Stands

theorem exists_stands_of_single {rows : List (String × Condition)} {name : String} {value : Json}
    (each : ∀ row ∈ rows, Stands filter row.1 row.2)
    (same : Json.single name value = .object (toJsonFields rows)) :
    ∃ condition, Stands filter name condition ∧ condition.toJson = value := by
  obtain ⟨condition, rfl, equal⟩ := exists_row_of_toJsonFields (Json.object.inj same).symm
  exact ⟨condition, each _ List.mem_cons_self, equal⟩

end Condition

/-- No attribute has the name of an operator that a condition on a field could begin with. -/
structure Filter.KeepsOperators (filter : Filter) : Prop where
  like : Operator.like.word ∉ filter.attributes
  notLike : Operator.notLike.word ∉ filter.attributes
  not : Connective.not.word ∉ filter.attributes

namespace Condition

variable {filter : Filter}

/-- Where no attribute has the name of an operator, conditions on one field do not look like
conditions on several. -/
theorem Shape.toJson_ne_object (keeps : filter.KeepsOperators) {condition : Condition}
    (shape : Shape filter .value condition) {rows : List (String × Condition)}
    (each : ∀ row ∈ rows, Stands filter row.1 row.2) :
    condition.toJson ≠ .object (toJsonFields rows) := by
  generalize place : Form.value = form at shape
  induction shape generalizing rows with
  | equals scalar =>
      intro same
      rw [toJson] at same
      rw [same] at scalar
      exact scalar
  | like =>
      intro same
      obtain ⟨held, stands, -⟩ := exists_stands_of_single each same
      obtain allowed | ⟨joining, named⟩ := stands.name_mem
      · exact keeps.like allowed
      · exact absurd named (by cases joining <;> decide)
  | notLike =>
      intro same
      obtain ⟨held, stands, -⟩ := exists_stands_of_single each same
      obtain allowed | ⟨joining, named⟩ := stands.name_mem
      · exact keeps.notLike allowed
      · exact absurd named (by cases joining <;> decide)
  | oneOf =>
      intro same
      obtain ⟨held, stands, equal⟩ := exists_stands_of_single each same
      obtain ⟨⟨joining, named⟩, -⟩ := stands.operands_of_toJson equal
      exact absurd named (by cases joining <;> decide)
  | not operand hypothesis =>
      intro same
      obtain ⟨held, stands, equal⟩ := exists_stands_of_single each same
      obtain ⟨values, listed⟩ | ⟨rows, rfl, inner⟩ := stands.fields_of_not keeps.not
      · exact operand.toJson_ne_array values (equal.symm.trans listed)
      · exact hypothesis inner rfl equal.symm
  | and some _ hypothesis | or some _ hypothesis =>
      intro same
      obtain ⟨held, stands, equal⟩ := exists_stands_of_single each same
      obtain ⟨-, others, shapes, -, listed⟩ := stands.operands_of_toJson equal
      obtain ⟨item, inItems, other, inOthers, sameItem⟩ := exists_of_toJsonItems some listed.symm
      cases shapes other inOthers with
      | fields inner =>
          exact hypothesis item inItems (fun row member => .entry (inner row member)) rfl sameItem
  | _ => cases place

/-! ### One condition at a place -/

theorem ne_single_of_isScalar {value inner : Json} {name : String} (scalar : value.IsScalar) :
    value ≠ .single name inner := by
  rintro rfl
  exact scalar

/-- The form of a condition on the value of a field tells which one it is. -/
theorem Shape.eq_of_toJson_value {condition other : Condition}
    (shape : Shape filter .value condition) (otherShape : Shape filter .value other)
    (same : condition.toJson = other.toJson) : condition = other := by
  generalize place : Form.value = form at shape
  induction shape generalizing other with
  | equals scalar =>
      cases otherShape with
      | equals => exact congrArg _ same
      | _ => exact absurd same (ne_single_of_isScalar scalar)
  | like =>
      cases otherShape with
      | equals scalar => exact absurd same.symm (ne_single_of_isScalar scalar)
      | _ => simp_all [toJson, Json.single]
  | notLike =>
      cases otherShape with
      | equals scalar => exact absurd same.symm (ne_single_of_isScalar scalar)
      | _ => simp_all [toJson, Json.single]
  | oneOf =>
      cases otherShape with
      | equals scalar => exact absurd same.symm (ne_single_of_isScalar scalar)
      | _ => simp_all [toJson, Json.single]
  | not _ hypothesis =>
      cases otherShape with
      | equals scalar => exact absurd same.symm (ne_single_of_isScalar scalar)
      | not otherShape =>
          rw [hypothesis otherShape (Json.single_inj.mp same) rfl]
      | _ => simp [toJson, Json.single] at same
  | and _ _ hypothesis =>
      cases otherShape with
      | equals scalar => exact absurd same.symm (ne_single_of_isScalar scalar)
      | and _ others =>
          rw [eq_of_toJsonItems (fun item member _ good same =>
            hypothesis item member good same rfl) others
            (Json.array.inj (Json.single_inj.mp same))]
      | _ => simp [toJson, Json.single] at same
  | or _ _ hypothesis =>
      cases otherShape with
      | equals scalar => exact absurd same.symm (ne_single_of_isScalar scalar)
      | or _ others =>
          rw [eq_of_toJsonItems (fun item member _ good same =>
            hypothesis item member good same rfl) others
            (Json.array.inj (Json.single_inj.mp same))]
      | _ => simp [toJson, Json.single] at same
  | _ => cases place

/-- An object of one row is an object of operands only if its name is no attribute. -/
theorem Shape.forbidden_of_toJson {joining : Connective} {condition : Condition}
    {items : List Condition} (shape : Shape filter .condition condition)
    (same : condition.toJson = (Filter.nested joining (.operands items)).toJson) :
    joining.word ∉ filter.attributes ∧ ∃ others,
      condition = Filter.nested joining (.operands others) ∧
      (∀ other ∈ others, Shape filter .condition other) ∧
      toJsonItems others = toJsonItems items := by
  cases shape with
  | fields each =>
      obtain ⟨held, rfl, equal⟩ := exists_row_of_toJsonFields (Json.object.inj same)
      obtain ⟨forbidden, others, rfl, -, shapes, listed⟩ :=
        (each _ List.mem_cons_self).operands_of_toJson equal
      exact ⟨forbidden, others, rfl, shapes, listed⟩

/-- A group under the name of an attribute does not look like a condition on the attribute. -/
theorem Shape.toJson_ne_group (keeps : filter.KeepsOperators) {condition : Condition}
    (shape : Shape filter .value condition) (joining : Connective) {items : List Condition}
    (some : items ≠ []) (each : ∀ item ∈ items, Shape filter .condition item) :
    condition.toJson ≠ .single joining.word (.array (toJsonItems items)) := by
  have stands : ∀ row ∈ [(joining.word, Condition.operands items)], Stands filter row.1 row.2 := by
    rw [List.forall_mem_singleton]
    exact .operands joining rfl some each
  exact shape.toJson_ne_object keeps stands

/-- Where no attribute has the name of a connective, or none that of an operator, the form of what
stands at a place tells which condition it is. -/
theorem Shape.eq_of_toJson (apart : filter.KeepsConnectives ∨ filter.KeepsOperators) {place : Form}
    {condition other : Condition} (shape : Shape filter place condition)
    (otherShape : Shape filter place other) (same : condition.toJson = other.toJson) :
    condition = other := by
  have keeps : ∀ {name : String} {joining : Connective}, name ∈ filter.attributes →
      name = joining.word → filter.KeepsOperators := by
    rintro name joining allowed rfl
    exact apart.resolve_left fun free => free joining allowed
  induction shape generalizing other with
  | equals scalar => exact (Shape.equals scalar).eq_of_toJson_value otherShape same
  | like pattern => exact (Shape.like pattern).eq_of_toJson_value otherShape same
  | notLike pattern => exact (Shape.notLike pattern).eq_of_toJson_value otherShape same
  | oneOf values => exact (Shape.oneOf values).eq_of_toJson_value otherShape same
  | not operand => exact (Shape.not operand).eq_of_toJson_value otherShape same
  | and some each => exact (Shape.and some each).eq_of_toJson_value otherShape same
  | or some each => exact (Shape.or some each).eq_of_toJson_value otherShape same
  | operands joins _ _ hypothesis =>
      cases otherShape with
      | operands _ _ others => rw [eq_of_toJsonItems hypothesis others (Json.array.inj same)]
      | negated | negatedAll => exact absurd rfl joins
  | negated inner hypothesis =>
      cases otherShape with
      | operands joins => exact absurd rfl joins
      | negated otherInner => exact hypothesis otherInner same
      | negatedAll some each =>
          have forbidden := (inner.forbidden_of_toJson same).1
          apply hypothesis _ same
          apply Shape.fields
          rw [List.forall_mem_singleton]
          exact .ofGroup forbidden (rfl : _ = Connective.and.word) (.operands (by simp) some each)
  | negatedAll _ _ hypothesis =>
      cases otherShape with
      | operands joins => exact absurd rfl joins
      | negated otherInner =>
          obtain ⟨-, others, rfl, shapes, listed⟩ := otherInner.forbidden_of_toJson same.symm
          rw [eq_of_toJsonItems hypothesis shapes listed.symm]
      | negatedAll _ others =>
          rw [eq_of_toJsonItems hypothesis others (Json.array.inj (Json.single_inj.mp same))]
  | fields _ hypothesis =>
      cases otherShape with
      | fields others =>
          rw [eq_of_toJsonFields (fun name => Shape filter (.entry name)) hypothesis others
            (Json.object.inj same)]
  | ofValue allowed value hypothesis =>
      cases otherShape with
      | ofValue _ otherValue => exact hypothesis otherValue same
      | ofGroup forbidden => exact absurd allowed forbidden
      | ofAnd _ named some each =>
          exact absurd same (value.toJson_ne_group (keeps allowed named) .and some each)
      | ofOr _ named some each =>
          exact absurd same (value.toJson_ne_group (keeps allowed named) .or some each)
      | ofNot _ named => exact absurd (named ▸ allowed) (keeps allowed named).not
  | ofGroup forbidden named group hypothesis =>
      cases otherShape with
      | ofGroup _ namedOther otherGroup =>
          cases Connective.word_injective (named.symm.trans namedOther)
          exact hypothesis otherGroup same
      | ofValue allowed | ofAnd allowed | ofOr allowed | ofNot allowed =>
          exact absurd allowed forbidden
  | ofAnd allowed named some each hypothesis =>
      cases otherShape with
      | ofValue _ otherValue =>
          exact absurd same.symm (otherValue.toJson_ne_group (keeps allowed named) .and some each)
      | ofGroup forbidden => exact absurd allowed forbidden
      | ofAnd _ _ _ others =>
          rw [eq_of_toJsonItems hypothesis others (Json.array.inj (Json.single_inj.mp same))]
      | ofOr _ other => exact absurd (named.symm.trans other) (by decide)
      | ofNot _ other => exact absurd (named.symm.trans other) (by decide)
  | ofOr allowed named some each hypothesis =>
      cases otherShape with
      | ofValue _ otherValue =>
          exact absurd same.symm (otherValue.toJson_ne_group (keeps allowed named) .or some each)
      | ofGroup forbidden => exact absurd allowed forbidden
      | ofOr _ _ _ others =>
          rw [eq_of_toJsonItems hypothesis others (Json.array.inj (Json.single_inj.mp same))]
      | ofAnd _ other => exact absurd (named.symm.trans other) (by decide)
      | ofNot _ other => exact absurd (named.symm.trans other) (by decide)
  | ofNot allowed named => exact absurd (named ▸ allowed) (keeps allowed named).not

end Condition

/-- The conditions of one node of a plan can be told apart: no attribute has the name of a
connective, or none has that of an operator, or nothing is asked under a connective's word
because there something is forced. -/
def Filter.TellsApart (filter : Filter) : Prop :=
  filter.KeepsConnectives ∨ filter.KeepsOperators ∨
    ∀ joining : Connective, filter.forcesAttribute joining.word = true

namespace Condition

variable {filter : Filter}

/-- Where nothing is forced, the form of what stands under a name tells which condition it is. -/
theorem Shape.eq_of_tellsApart (apart : filter.TellsApart) {name : String}
    (unforced : filter.forcesAttribute name = false) {condition other : Condition}
    (shape : Shape filter (.entry name) condition) (otherShape : Shape filter (.entry name) other)
    (same : condition.toJson = other.toJson) : condition = other := by
  have value : ∀ {condition}, (∀ joining : Connective, name ≠ joining.word) →
      Shape filter (.entry name) condition → Shape filter .value condition := by
    intro condition free shape
    cases shape with
    | ofValue _ value => exact value
    | ofGroup _ named | ofAnd _ named | ofOr _ named | ofNot _ named => exact absurd named (free _)
  obtain free | keeps | forced := apart
  · exact shape.eq_of_toJson (.inl free) otherShape same
  · exact shape.eq_of_toJson (.inr keeps) otherShape same
  · have free : ∀ joining : Connective, name ≠ joining.word := by
      rintro joining rfl
      rw [forced joining] at unforced
      cases unforced
    exact (value free shape).eq_of_toJson_value (value free otherShape) same

end Condition

end QueryGate
