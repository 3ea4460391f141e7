import QueryGate.Proofs.Plan.Resolve

/-!
# The fields that a predicate names

An expression that was read resolves exactly when every field that it names is
permitted. A group names the fields of its conditions, at whatever depth; any other
expression names the field that it stands under.
-/

namespace QueryGate

open Expression

namespace Expression

mutual

/-- The fields that the groups within an expression name. -/
def fieldsWithin : Expression → List String
  | and operands => fieldsWithinAll operands
  | or operands => fieldsWithinAll operands
  | not operand => fieldsWithin operand
  | group rows => fieldsNamed rows
  | literal _ | like _ | notLike _ | oneOf _ | between _ _ => []

/-- The fields that the groups within several expressions name. -/
def fieldsWithinAll : List Expression → List String
  | [] => []
  | operand :: rest => fieldsWithin operand ++ fieldsWithinAll rest

/-- The fields that rows name: those within a group, or else the row's own. -/
def fieldsNamed : List (String × Expression) → List String
  | [] => []
  | (name, expression) :: rest =>
      (if (fieldsWithin expression).isEmpty then [name] else fieldsWithin expression) ++
        fieldsNamed rest

end

/-- The fields that the expression under a name names. -/
def fieldsUnder (name : String) (expression : Expression) : List String :=
  if expression.fieldsWithin.isEmpty then [name] else expression.fieldsWithin

theorem fieldsWithinAll_eq_flatMap (operands : List Expression) :
    fieldsWithinAll operands = operands.flatMap fieldsWithin := by
  induction operands with
  | nil => rfl
  | cons operand rest hypothesis => rw [fieldsWithinAll, List.flatMap_cons, hypothesis]

theorem fieldsNamed_eq_flatMap (rows : List (String × Expression)) :
    fieldsNamed rows = rows.flatMap fun row => fieldsUnder row.1 row.2 := by
  induction rows with
  | nil => rfl
  | cons row rest hypothesis =>
      rw [fieldsNamed, List.flatMap_cons, hypothesis]
      rfl

theorem fieldsUnder_ne_nil (name : String) (expression : Expression) :
    fieldsUnder name expression ≠ [] := by
  rw [fieldsUnder]
  split
  · simp
  · rename_i written
    simpa using written

end Expression

namespace Filter

variable {filter : Filter}

/-- All of the fields are permitted attributes. -/
def PermitsFields (filter : Filter) (fields : List String) : Prop :=
  ∀ field ∈ fields, field ∈ filter.attributes

/-- The expression resolves in the role. -/
def Resolvable (filter : Filter) (expression : Expression) (role : Role) : Prop :=
  ∃ condition, filter.resolve expression role = .ok condition

theorem resolvable_of_map {expression inner : Expression} {role innerRole : Role}
    {image : Condition → Condition}
    (same : filter.resolve expression role = (filter.resolve inner innerRole).map image) :
    filter.Resolvable expression role ↔ filter.Resolvable inner innerRole := by
  simp only [Resolvable, same, map_eq_ok_iff]
  constructor
  · rintro ⟨_, condition, found, _⟩
    exact ⟨condition, found⟩
  · rintro ⟨condition, found⟩
    exact ⟨_, condition, found, rfl⟩

/-- Operands that are resolved one by one resolve when each of them does. -/
theorem resolvable_of_operands {expression : Expression} {operands : List Expression}
    {role innerRole : Role} {image : List Condition → Condition}
    (same : filter.resolve expression role = (filter.resolveAll operands innerRole).map image) :
    filter.Resolvable expression role ↔
      ∀ operand ∈ operands, filter.Resolvable operand innerRole := by
  simp only [Resolvable, same, map_eq_ok_iff, ← exists_mapM_eq_ok_iff, ← resolveAll_eq_mapM]
  constructor
  · rintro ⟨_, conditions, found, _⟩
    exact ⟨conditions, found⟩
  · rintro ⟨conditions, found⟩
    exact ⟨_, conditions, found, rfl⟩

theorem resolvable_of_rows {expression : Expression} {rows : List (String × Expression)}
    {role : Role} {image : List (String × Condition) → Condition}
    (same : filter.resolve expression role = (filter.resolveFields rows).map image) :
    filter.Resolvable expression role ↔ ∀ row ∈ rows, ∃ result, filter.Resolves row result := by
  simp only [Resolvable, same, map_eq_ok_iff, resolveFields_eq_ok_iff, ← exists_forall₂_iff]
  constructor
  · rintro ⟨_, results, found, _⟩
    exact ⟨results, found⟩
  · rintro ⟨results, found⟩
    exact ⟨_, results, found, rfl⟩

/-- The expression resolves in the role exactly when the fields within it are permitted. -/
def Decided (filter : Filter) (expression : Expression) (role : Role) : Prop :=
  filter.Resolvable expression role ↔ filter.PermitsFields expression.fieldsWithin

/-- When what was read for a place resolves. -/
def Decides (filter : Filter) : Form → Expression → Prop
  | .value, expression =>
      expression.fieldsWithin = [] ∧ ∀ field, filter.Resolvable expression (.value field)
  | .group _, expression => expression.fieldsWithin ≠ [] ∧
      (∀ field, filter.Decided expression (.value field)) ∧
      ∀ key, filter.Decided expression (.group key)
  | .condition, expression => expression.fieldsWithin ≠ [] ∧
      (∀ field, filter.Decided expression (.value field)) ∧
      ∀ key, filter.Decided expression (.operand key)
  | .entry name, expression => (∃ result, filter.Resolves (name, expression) result) ↔
      filter.PermitsFields (expression.fieldsUnder name)

theorem exists_resolves_iff {name : String} {expression : Expression} :
    (∃ result, filter.Resolves (name, expression) result) ↔
      ∃ role, filter.roleOf name = .ok role ∧ filter.Resolvable expression role := by
  constructor
  · rintro ⟨result, _, role, placed, found⟩
    exact ⟨role, placed, result.2, found⟩
  · rintro ⟨role, placed, condition, found⟩
    exact ⟨(name, condition), rfl, role, placed, found⟩

theorem permitsFields_flatMap {α : Type} {items : List α} {fields : α → List String} :
    filter.PermitsFields (items.flatMap fields) ↔
      ∀ item ∈ items, filter.PermitsFields (fields item) := by
  simp only [PermitsFields, List.mem_flatMap]
  constructor
  · intro all item member field named
    exact all field ⟨item, member, named⟩
  · rintro all field ⟨item, member, named⟩
    exact all item member field named

/-- Operands of a connective are decided together when each of them is. -/
theorem decided_of_operands {expression : Expression} {operands : List Expression}
    {role innerRole : Role} {image : List Condition → Condition}
    (same : filter.resolve expression role = (filter.resolveAll operands innerRole).map image)
    (within : expression.fieldsWithin = fieldsWithinAll operands)
    (each : ∀ operand ∈ operands, filter.Decided operand innerRole) :
    filter.Decided expression role := by
  rw [Decided, resolvable_of_operands same, within, fieldsWithinAll_eq_flatMap,
    permitsFields_flatMap]
  exact forall₂_congr each

theorem decided_of_map {expression inner : Expression} {role innerRole : Role}
    {image : Condition → Condition}
    (same : filter.resolve expression role = (filter.resolve inner innerRole).map image)
    (within : expression.fieldsWithin = inner.fieldsWithin)
    (decided : filter.Decided inner innerRole) : filter.Decided expression role := by
  rw [Decided, resolvable_of_map same, within]
  exact decided

theorem decided_of_rows {rows : List (String × Expression)} {role : Role}
    {image : List (String × Condition) → Condition}
    (same : filter.resolve (.group rows) role = (filter.resolveFields rows).map image)
    (each : ∀ row ∈ rows, filter.Decides (.entry row.1) row.2) :
    filter.Decided (.group rows) role := by
  rw [Decided, resolvable_of_rows same, fieldsWithin, fieldsNamed_eq_flatMap,
    permitsFields_flatMap]
  exact forall₂_congr each

theorem fieldsWithinAll_ne_nil {operands : List Expression} (written : operands ≠ [])
    (named : ∀ operand ∈ operands, operand.fieldsWithin ≠ []) :
    fieldsWithinAll operands ≠ [] := by
  rw [fieldsWithinAll_eq_flatMap, Ne, List.flatMap_eq_nil_iff]
  rcases List.exists_mem_of_ne_nil operands written with ⟨operand, member⟩
  intro all
  exact named operand member (all operand member)

theorem fieldsWithinAll_eq_nil {operands : List Expression}
    (unnamed : ∀ operand ∈ operands, operand.fieldsWithin = []) :
    fieldsWithinAll operands = [] := by
  rw [fieldsWithinAll_eq_flatMap, List.flatMap_eq_nil_iff]
  exact unnamed

/-- The connective of several conditions is decided as they are, about a field and as a
group. -/
theorem decides_join (joining : Connective) {conditions : List Expression}
    (written : conditions ≠ [])
    (each : ∀ condition ∈ conditions, filter.Decides .condition condition) :
    filter.Decides (.group joining) (joining.join conditions) := by
  have named := fieldsWithinAll_ne_nil written fun condition member => (each condition member).1
  have values : ∀ field, ∀ condition ∈ conditions, filter.Decided condition (.value field) :=
    fun field condition member => (each condition member).2.1 field
  have operands : ∀ key, ∀ condition ∈ conditions, filter.Decided condition (.operand key) :=
    fun key condition member => (each condition member).2.2 key
  cases joining with
  | and | or =>
      exact ⟨named, fun field => decided_of_operands rfl rfl (values field),
        fun key => decided_of_operands rfl rfl (operands key)⟩
  | not =>
      match conditions with
      | [condition] =>
          have own := each condition List.mem_cons_self
          refine ⟨own.1, fun field => decided_of_map rfl rfl (own.2.1 field), fun key => ?_⟩
          exact own.2.2 key
      | first :: second :: rest =>
          refine ⟨named, fun field => ?_, fun key => ?_⟩
          · exact decided_of_map rfl rfl (decided_of_operands rfl rfl (values field))
          · exact decided_of_operands rfl rfl (operands _)

/-- What was read for a place resolves exactly when the fields that it names are permitted. -/
theorem decides_of_hasForm {place : Form} {expression : Expression}
    (form : HasForm place expression) : filter.Decides place expression := by
  induction form with
  | literal | like | notLike | oneOf => exact ⟨rfl, fun _ => ⟨_, rfl⟩⟩
  | not _ hypothesis =>
      exact ⟨hypothesis.1, fun field => (resolvable_of_map rfl).mpr (hypothesis.2 field)⟩
  | and _ _ hypothesis | or _ _ hypothesis =>
      constructor
      · exact fieldsWithinAll_eq_nil fun operand member => (hypothesis operand member).1
      · intro field
        exact (resolvable_of_operands rfl).mpr fun operand member =>
          (hypothesis operand member).2 field
  | allOf written _ hypothesis => exact decides_join .and written hypothesis
  | anyOf written _ hypothesis => exact decides_join .or written hypothesis
  | @negated condition _ hypothesis =>
      have each : ∀ only ∈ [condition], filter.Decides .condition only := by
        simpa using hypothesis
      exact decides_join .not (by simp) each
  | @negatedAll conditions several _ hypothesis =>
      match conditions with
      | first :: second :: rest => exact decides_join .not (by simp) hypothesis
  | fields written _ hypothesis =>
      refine ⟨?_, fun field => decided_of_rows rfl hypothesis,
        fun key => decided_of_rows rfl hypothesis⟩
      rw [fieldsWithin, fieldsNamed_eq_flatMap, Ne, List.flatMap_eq_nil_iff]
      rcases List.exists_mem_of_ne_nil _ written with ⟨row, member⟩
      exact fun all => fieldsUnder_ne_nil _ _ (all row member)
  | ofValue name value hypothesis =>
      rw [Decides, exists_resolves_iff, fieldsUnder, hypothesis.1]
      constructor
      · rintro ⟨role, placed, condition, found⟩
        rcases role_of_resolve_value value found with ⟨field, rfl⟩
        rcases roleOf_eq_ok_iff.mp placed with ⟨allowed, _⟩ | ⟨_, _, other⟩
        · simpa [PermitsFields] using allowed
        · cases other
      · intro permitted
        have allowed : name ∈ filter.attributes := permitted name (by simp)
        exact ⟨.value name, roleOf_eq_ok_iff.mpr (.inl ⟨allowed, rfl⟩), hypothesis.2 name⟩
  | @ofGroup expression joining _ hypothesis =>
      rcases hypothesis with ⟨named, asValue, asGroup⟩
      rw [Decides, exists_resolves_iff, fieldsUnder, if_neg (by simpa using named)]
      -- A permitted attribute may have the connective's word; the group then stands for its value.
      by_cases allowed : joining.word ∈ filter.attributes
      · exact Iff.trans (by simp [roleOf_eq_ok_iff, allowed]) (asValue joining.word)
      · exact Iff.trans (by simp [roleOf_eq_ok_iff, allowed]) (asGroup joining.word)

/-- A predicate can be made exactly when every field that it names is permitted. -/
theorem exists_predicate_iff {predicates : Table String Expression}
    (forms : ∀ row ∈ predicates, HasForm (.entry row.1) row.2) :
    (∃ predicate, filter.predicate predicates = .ok predicate) ↔
      filter.PermitsFields (fieldsNamed predicates) := by
  have rows : (∃ demanded, filter.resolveFields predicates = .ok demanded) ↔
      filter.PermitsFields (fieldsNamed predicates) := by
    simp only [resolveFields_eq_ok_iff, exists_forall₂_iff, fieldsNamed_eq_flatMap,
      permitsFields_flatMap]
    exact forall₂_congr fun row member => decides_of_hasForm (forms row member)
  rw [← rows]
  simp only [predicate_eq_ok_iff]
  constructor
  · rintro ⟨_, demanded, resolved, _⟩
    exact ⟨demanded, resolved⟩
  · rintro ⟨demanded, resolved⟩
    exact ⟨_, demanded, resolved, rfl⟩

end Filter

end QueryGate
