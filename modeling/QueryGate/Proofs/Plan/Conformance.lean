import Mathlib
import QueryGate.Proofs.Plan.Node
import QueryGate.Proofs.Plan.Resolve
import QueryGate.Proofs.Scanner.WellFormed

/-!
# Plans conform to their filters

Whatever text was scanned, every node of its plan asks only for what the filter that
belongs to the node permits. The names in a predicate are the hard part: each is that
of a permitted attribute, or the word of a connective over a group of conditions, or
at the top of the predicate that of a forced attribute.
-/

namespace QueryGate

open Expression

namespace Condition

mutual

/-- The rows of all objects in a condition, however deep they stand. -/
def entries : Condition → List (String × Condition)
  | not operand => entries operand
  | and items => entriesOfItems items
  | or items => entriesOfItems items
  | operands items => entriesOfItems items
  | fields rows => entriesOfRows rows
  | equals _ | like _ | notLike _ | oneOf _ | between _ _ => []

/-- The rows of all objects in a list of conditions. -/
def entriesOfItems : List Condition → List (String × Condition)
  | [] => []
  | item :: rest => entries item ++ entriesOfItems rest

/-- Rows, and those of all objects in their conditions. -/
def entriesOfRows : List (String × Condition) → List (String × Condition)
  | [] => []
  | (name, condition) :: rest => (name, condition) :: (entries condition ++ entriesOfRows rest)

end

theorem mem_entriesOfItems_iff {items : List Condition} {entry : String × Condition} :
    entry ∈ entriesOfItems items ↔ ∃ item ∈ items, entry ∈ item.entries := by
  induction items with
  | nil => simp [entriesOfItems]
  | cons item rest hypothesis => simp [entriesOfItems, hypothesis]

theorem mem_entriesOfRows_iff {rows : List (String × Condition)} {entry : String × Condition} :
    entry ∈ entriesOfRows rows ↔ ∃ row ∈ rows, entry = row ∨ entry ∈ row.2.entries := by
  induction rows with
  | nil => simp [entriesOfRows]
  | cons row rest hypothesis => simp [entriesOfRows, hypothesis, or_assoc]

/-- Conditions on fields, of which there is at least one. -/
def IsSet : Condition → Prop
  | fields rows => rows ≠ []
  | _ => False

/-- What stands under the word of a connective: one set of conditions to negate, or
the list of those to join. -/
def IsGroup : Connective → Condition → Prop
  | .not, condition => condition.IsSet
  | _, operands items => items ≠ [] ∧ ∀ item ∈ items, item.IsSet
  | _, _ => False

end Condition

namespace Filter

/-- A name that a predicate may contain: that of an attribute, or the word of a
connective over a group. -/
def Permits (filter : Filter) (entry : String × Condition) : Prop :=
  entry.1 ∈ filter.attributes ∨
    ∃ joining : Connective, entry.1 = joining.word ∧ entry.2.IsGroup joining

/-- All names within a condition may be there. -/
def PermitsWithin (filter : Filter) (condition : Condition) : Prop :=
  ∀ entry ∈ condition.entries, filter.Permits entry

variable {filter : Filter}

theorem permitsWithin_not {operand : Condition} (within : filter.PermitsWithin operand) :
    filter.PermitsWithin (.not operand) := by
  intro entry member
  rw [Condition.entries] at member
  exact within entry member

theorem permitsWithin_fields {rows : List (String × Condition)}
    (each : ∀ row ∈ rows, filter.Permits row ∧ filter.PermitsWithin row.2) :
    filter.PermitsWithin (.fields rows) := by
  intro entry member
  rw [Condition.entries, Condition.mem_entriesOfRows_iff] at member
  rcases member with ⟨row, rowMember, rfl | inner⟩
  · exact (each entry rowMember).1
  · exact (each row rowMember).2 entry inner

theorem permitsWithin_nested {joining : Connective} {condition : Condition}
    (group : condition.IsGroup joining) (within : filter.PermitsWithin condition) :
    filter.PermitsWithin (nested joining condition) := by
  apply permitsWithin_fields
  intro row member
  cases List.mem_singleton.mp member
  exact ⟨.inr ⟨joining, rfl, group⟩, within⟩

/-- An operand of a group resolves to a set of conditions. -/
theorem isSet_of_resolve {expression : Expression} (form : HasForm .condition expression)
    {role : Role} {condition : Condition}
    (resolved : filter.resolve expression role = .ok condition) : condition.IsSet := by
  cases form with
  | fields written _ =>
      cases role with
      | group key => simp [resolve, notConditions] at resolved
      | value field | operand key =>
          rw [resolve, map_eq_ok_iff] at resolved
          rcases resolved with ⟨results, rowsResolved, rfl⟩
          have same := (resolveFields_eq_ok_iff.mp rowsResolved).length_eq
          rw [Condition.IsSet, ← List.length_pos_iff, ← same]
          exact List.length_pos_iff.mpr written

theorem isGroup_of_resolveAll {joining : Connective} (joins : joining ≠ .not)
    {conditions : List Expression} (written : conditions ≠ [])
    (forms : ∀ condition ∈ conditions, HasForm .condition condition) {role : Role}
    {results : List Condition} (resolved : filter.resolveAll conditions role = .ok results) :
    (Condition.operands results).IsGroup joining := by
  have pairs := resolveAll_eq_ok_iff.mp resolved
  have shape : results ≠ [] ∧ ∀ item ∈ results, item.IsSet := by
    constructor
    · rw [← List.length_pos_iff, ← pairs.length_eq]
      exact List.length_pos_iff.mpr written
    · intro item member
      rcases exists_of_mem_right pairs member with ⟨condition, conditionMember, found⟩
      exact isSet_of_resolve (forms condition conditionMember) found
  cases joining with
  | not => exact absurd rfl joins
  | and => exact shape
  | or => exact shape

/-- The group that stands under the word of its connective. -/
theorem isGroup_of_resolve {joining : Connective} {expression : Expression}
    (form : HasForm (.group joining) expression) {key : String} {condition : Condition}
    (resolved : filter.resolve expression (.group key) = .ok condition) :
    condition.IsGroup joining := by
  cases form with
  | allOf written forms | anyOf written forms =>
      rw [resolve, map_eq_ok_iff] at resolved
      rcases resolved with ⟨results, all, rfl⟩
      exact isGroup_of_resolveAll (by simp) written forms all
  | negated form =>
      rw [resolve] at resolved
      exact isSet_of_resolve form resolved
  | negatedAll _ _ =>
      rw [resolve, resolve, map_eq_ok_iff] at resolved
      rcases resolved with ⟨results, _, rfl⟩
      simp [Condition.IsGroup, nested, Condition.IsSet]

/-- What stands under a name that was read may stand there. -/
theorem permits_of_resolves {row : String × Expression} {result : String × Condition}
    (form : HasForm (.entry row.1) row.2) (resolved : filter.Resolves row result) :
    filter.Permits result := by
  rcases resolved with ⟨same, role, placed, found⟩
  rw [Permits, same]
  rcases roleOf_eq_ok_iff.mp placed with ⟨allowed, _⟩ | ⟨_, _, rfl⟩
  · exact .inl allowed
  · right
    generalize row.1 = name at *
    cases form with
    | ofValue _ value =>
        rcases role_of_resolve_value value found with ⟨field, equal⟩
        cases equal
    | ofGroup group => exact ⟨_, rfl, isGroup_of_resolve group found⟩

/-- The names within several conditions may be there if those within each may. -/
theorem permitsWithin_resolveAll {operands : List Expression} {role : Role}
    {results : List Condition}
    (each : ∀ operand ∈ operands, ∀ {role : Role} {result : Condition},
      filter.resolve operand role = .ok result → filter.PermitsWithin result)
    (all : filter.resolveAll operands role = .ok results) :
    ∀ entry ∈ Condition.entriesOfItems results, filter.Permits entry := by
  intro entry member
  rcases Condition.mem_entriesOfItems_iff.mp member with ⟨item, itemMember, inner⟩
  rcases exists_of_mem_right (resolveAll_eq_ok_iff.mp all) itemMember with
    ⟨operand, operandMember, found⟩
  exact each operand operandMember found entry inner

/-- Conditions joined by a connective, in whatever role, have only names within them
that may be there if each of the conditions has. -/
theorem permitsWithin_join (joining : Connective) (joins : joining ≠ .not)
    {conditions : List Expression} (written : conditions ≠ [])
    (forms : ∀ condition ∈ conditions, HasForm .condition condition)
    (each : ∀ condition ∈ conditions, ∀ {role : Role} {result : Condition},
      filter.resolve condition role = .ok result → filter.PermitsWithin result)
    {role : Role} {result : Condition}
    (resolved : filter.resolve (joining.join conditions) role = .ok result) :
    filter.PermitsWithin result := by
  cases joining with
  | not => exact absurd rfl joins
  | and | or =>
      rw [Connective.join] at resolved
      cases role with
      | value field | group key =>
          rw [resolve, map_eq_ok_iff] at resolved
          rcases resolved with ⟨results, all, rfl⟩
          exact permitsWithin_resolveAll each all
      | operand key =>
          rw [resolve, map_eq_ok_iff] at resolved
          rcases resolved with ⟨results, all, rfl⟩
          apply permitsWithin_nested
          · exact isGroup_of_resolveAll (by simp) written forms all
          · exact permitsWithin_resolveAll each all

theorem permitsWithin_negate {operand : Expression}
    (isSet : ∀ {key : String} {result : Condition},
      filter.resolve operand (.operand key) = .ok result → result.IsSet)
    (within : ∀ {role : Role} {result : Condition},
      filter.resolve operand role = .ok result → filter.PermitsWithin result)
    {role : Role} {result : Condition}
    (resolved : filter.resolve (.not operand) role = .ok result) :
    filter.PermitsWithin result := by
  cases role with
  | value field =>
      rw [resolve, map_eq_ok_iff] at resolved
      rcases resolved with ⟨inner, found, rfl⟩
      exact permitsWithin_not (within found)
  | group key =>
      rw [resolve] at resolved
      exact within resolved
  | operand key =>
      rw [resolve, map_eq_ok_iff] at resolved
      rcases resolved with ⟨inner, found, rfl⟩
      apply permitsWithin_nested
      · exact isSet found
      · exact within found

/-- Whatever was read and resolves has only names within it that may be there. -/
theorem permitsWithin_of_resolve {place : Form} {expression : Expression}
    (form : HasForm place expression) {role : Role} {condition : Condition}
    (resolved : filter.resolve expression role = .ok condition) :
    filter.PermitsWithin condition := by
  induction form generalizing role condition with
  | literal | like | notLike | oneOf =>
      cases role with
      | value field =>
          rw [resolve] at resolved
          cases resolved
          simp [PermitsWithin, Condition.entries]
      | group key | operand key => simp [resolve, notConditions] at resolved
  | not form hypothesis =>
      rcases role_of_resolve_value (.not form) resolved with ⟨field, rfl⟩
      rw [resolve, map_eq_ok_iff] at resolved
      rcases resolved with ⟨operand, found, rfl⟩
      exact permitsWithin_not (hypothesis found)
  | and written forms hypothesis | or written forms hypothesis =>
      rcases role_of_resolve_value (by constructor <;> assumption) resolved with ⟨field, rfl⟩
      rw [resolve, map_eq_ok_iff] at resolved
      rcases resolved with ⟨results, all, rfl⟩
      exact permitsWithin_resolveAll hypothesis all
  | allOf written forms hypothesis =>
      exact permitsWithin_join .and (by simp) written forms hypothesis resolved
  | anyOf written forms hypothesis =>
      exact permitsWithin_join .or (by simp) written forms hypothesis resolved
  | negated form hypothesis =>
      exact permitsWithin_negate (isSet_of_resolve form) hypothesis resolved
  | negatedAll several forms hypothesis =>
      have written := List.ne_nil_of_length_pos (Nat.lt_of_lt_of_le Nat.two_pos several)
      apply permitsWithin_negate _ _ resolved
      · intro key result found
        rw [resolve, map_eq_ok_iff] at found
        rcases found with ⟨results, _, rfl⟩
        simp [nested, Condition.IsSet]
      · exact permitsWithin_join .and (by simp) written forms hypothesis
  | fields written forms hypothesis =>
      cases role with
      | group key => simp [resolve, notConditions] at resolved
      | value field | operand key =>
          rw [resolve, map_eq_ok_iff] at resolved
          rcases resolved with ⟨results, all, rfl⟩
          apply permitsWithin_fields
          intro result member
          rcases exists_of_mem_right (resolveFields_eq_ok_iff.mp all) member with
            ⟨row, rowMember, resolves⟩
          constructor
          · exact permits_of_resolves (forms row rowMember) resolves
          · rcases resolves with ⟨_, rowRole, _, found⟩
            exact hypothesis row rowMember found
  | ofValue name _ hypothesis => exact hypothesis resolved
  | ofGroup _ hypothesis => exact hypothesis resolved

theorem projection_eq_ok {fields projection : List String}
    (projected : filter.projection fields = .ok projection) :
    projection ≠ [] ∧ ∀ field ∈ projection, field ∈ filter.attributes := by
  simp only [Filter.projection] at projected
  generalize (if fields.isEmpty then filter.attributes else fields) = wanted at projected
  split at projected
  · cases projected
  · rename_i allowed
    split at projected
    · cases projected
    · rename_i written
      cases projected
      constructor
      · simpa using written
      · intro field member
        have permitted := List.find?_eq_none.mp allowed field member
        simpa [allowsAttribute_iff] using permitted

theorem computation_eq_ok {call : FunctionCall} {computation : Computation}
    (computed : filter.computation call = .ok computation) :
    computation.name = "count" ∧
      (computation.arguments = [] ∨
        ∃ relation ∈ Table.keys filter.includes, computation.arguments = [relation]) := by
  rw [Filter.computation] at computed
  split at computed
  · cases computed
  · rename_i named
    have counts : call.name = "count" := by simpa using named
    dsimp only at computed
    split at computed
    · cases computed
      exact ⟨counts, .inl rfl⟩
    · rename_i relation _
      split at computed
      · rename_i available
        cases computed
        exact ⟨counts, .inr ⟨relation, isSome_include?_iff.mp available, rfl⟩⟩
      · cases computed
    · cases computed

end Filter

/-- All that a node of a plan asks for is permitted by a filter. -/
structure Plan.Conforms (node : Plan) (own : Filter) : Prop where
  entity : node.entity = own.entity
  projection_ne_nil : node.projection ≠ []
  projection : ∀ field ∈ node.projection, field ∈ own.attributes
  includes : ∀ row ∈ node.includes, row.1 ∈ Table.keys own.includes
  functions : ∀ computation ∈ node.functions, computation.name = "count" ∧
    (computation.arguments = [] ∨
      ∃ relation ∈ Table.keys own.includes, computation.arguments = [relation])
  /-- Only at the top of a predicate are there rows of the filter's own. -/
  rows : ∀ row ∈ node.rows, own.Permits row ∨ own.Forces row
  within : ∀ row ∈ node.rows, own.PermitsWithin row.2

/-- The plan of a well-formed node asks only for what its filter permits. -/
theorem conforms_of_wellFormed {options : PlanOptions} {own : Filter} {source : Request}
    {node : Plan} (wellFormed : source.terms.WellFormed)
    (made : source.plan options own = .ok node) : node.Conforms own := by
  have parts := plan_eq_ok_iff.mp made
  rcases Filter.projection_eq_ok parts.projection with ⟨projection_ne_nil, projection⟩
  rcases Filter.rows_of_predicate parts.predicate with ⟨demanded, resolved, rows⟩
  have sorted := Filter.sorted_of_resolveFields resolved wellFormed.predicates_sorted
  have origin : ∀ row ∈ node.rows, own.Forces row ∨
      ∃ written ∈ source.terms.predicates, own.Resolves written row := by
    intro row member
    rw [rows, Filter.mem_force_iff sorted] at member
    rcases member with forced | ⟨member, _⟩
    · exact .inl forced
    · exact .inr (exists_of_mem_right (Filter.resolveFields_eq_ok_iff.mp resolved) member)
  refine ⟨parts.entity, projection_ne_nil, projection, ?_, ?_, ?_, ?_⟩
  · intro row member
    rcases exists_of_mem_planIncludes parts.children member with
      ⟨child, _, _, childFilter, available, _⟩
    exact Filter.isSome_include?_iff.mp (Option.isSome_of_eq_some available)
  · intro computation member
    rcases exists_of_mem_mapM parts.functions member with ⟨call, _, computed⟩
    exact Filter.computation_eq_ok computed
  · intro row member
    rcases origin row member with forced | ⟨written, writtenMember, resolves⟩
    · exact .inr forced
    · exact .inl (Filter.permits_of_resolves (wellFormed.hasForm written writtenMember) resolves)
  · intro row member
    rcases origin row member with ⟨value, _, equal⟩ | ⟨written, writtenMember, resolves⟩
    · rw [equal]
      simp [Filter.PermitsWithin, Condition.entries]
    · rcases resolves with ⟨_, role, _, found⟩
      exact Filter.permitsWithin_of_resolve (wellFormed.hasForm written writtenMember) found

/-- Every node of a plan that is made of a scanned text conforms to the filter that is
reached by the same relations. -/
theorem conforms_of_plan {scanning : ScanOptions} {text : String} {request : Request}
    {planning : PlanOptions} {filter : Filter} {plan : Plan}
    (scanned : scan scanning text = .ok request)
    (planned : request.plan planning filter = .ok plan) {path : Path} {node : Plan}
    (reached : plan.Node path node) : ∃ own, filter.at? path = some own ∧ node.Conforms own := by
  rcases origin_of_node planned reached with ⟨own, source, found, reachedSource, made⟩
  have wellFormed := wellFormed_of_scan scanned reachedSource
  exact ⟨own, found, conforms_of_wellFormed wellFormed made⟩

theorem conforms_of_plan_comments :
    ∃ request plan node, scan {} "includes=comments(not(author=b))" = .ok request ∧
      request.plan {} .articles = .ok plan ∧ plan.Node ["comments"] node ∧
      ∃ own, Filter.articles.at? ["comments"] = some own ∧ node.Conforms own := by
  let request : Request :=
    ⟨0, "root", {},
      [⟨1, "comments", { predicates := [("not", .not (.group [("author", .literal "b")]))] }, []⟩]⟩
  let node : Plan :=
    ⟨"comments", ["author"], some [("not", .fields [("author", .equals (.string "b"))])], [],
      none, none, none, []⟩
  let plan : Plan :=
    ⟨"articles", ["id", "title", "author"], some [("published", .equals (.bool true))],
      [("comments", node)], none, some 10, none, []⟩
  have scanned : scan {} "includes=comments(not(author=b))" = .ok request := by cbv
  have planned : request.plan {} .articles = .ok plan := by cbv
  have reached : plan.Node ["comments"] node := .child List.mem_cons_self (.root node)
  exact ⟨request, plan, node, scanned, planned, reached,
    conforms_of_plan scanned planned reached⟩

end QueryGate
