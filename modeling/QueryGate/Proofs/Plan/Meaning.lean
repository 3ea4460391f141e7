import Mathlib
import QueryGate.Proofs.Plan.Node
import QueryGate.Proofs.Plan.Resolve
import QueryGate.Proofs.Scanner.WellFormed

/-!
# Predicates keep their meaning

A request and its plan are both read as statements about tests of fields, which an
assignment makes true or false. In a request it is the expressions that say how
statements are joined; in a plan it is the words that lists and objects stand under.
-/

namespace QueryGate

open Expression

/-- What is tested of the value of a field. -/
inductive Test where
  | equals (value : Json)
  | like (pattern : String)
  | notLike (pattern : String)
  | oneOf (values : List Json)
  | between (low high : Json)
  deriving Repr

/-- Which tests succeed on which fields. -/
abbrev Assignment := String → Test → Bool

namespace Condition

mutual

/-- Whether a condition holds where it stands under a name. An object is a conjunction,
which `not` negates; a list is a disjunction under `or` and else a conjunction. -/
def holds (truth : Assignment) (name : String) : Condition → Bool
  | equals value => truth name (.equals value)
  | not operand => !holds truth name operand
  | like pattern => truth name (.like pattern)
  | notLike pattern => truth name (.notLike pattern)
  | oneOf values => truth name (.oneOf values)
  | and items => allHold truth name items
  | or items => anyHolds truth name items
  | between low high => truth name (.between low high)
  | fields rows =>
      if name = Connective.not.word then !rowsHold truth rows else rowsHold truth rows
  | operands items =>
      if name = Connective.or.word then anyHolds truth name items else allHold truth name items

/-- Whether all conditions of a list hold. -/
def allHold (truth : Assignment) (name : String) : List Condition → Bool
  | [] => true
  | item :: rest => holds truth name item && allHold truth name rest

/-- Whether any condition of a list holds. -/
def anyHolds (truth : Assignment) (name : String) : List Condition → Bool
  | [] => false
  | item :: rest => holds truth name item || anyHolds truth name rest

/-- Whether the conditions of all rows hold, each under its name. -/
def rowsHold (truth : Assignment) : List (String × Condition) → Bool
  | [] => true
  | (name, condition) :: rest => holds truth name condition && rowsHold truth rest

end

theorem allHold_eq_all (truth : Assignment) (name : String) (items : List Condition) :
    allHold truth name items = (items.map (holds truth name)).all id := by
  induction items with
  | nil => rfl
  | cons item rest hypothesis => rw [allHold, List.map_cons, List.all_cons, hypothesis, id]

theorem anyHolds_eq_any (truth : Assignment) (name : String) (items : List Condition) :
    anyHolds truth name items = (items.map (holds truth name)).any id := by
  induction items with
  | nil => rfl
  | cons item rest hypothesis => rw [anyHolds, List.map_cons, List.any_cons, hypothesis, id]

theorem rowsHold_eq_all (truth : Assignment) (rows : List (String × Condition)) :
    rowsHold truth rows = (rows.map fun row => row.2.holds truth row.1).all id := by
  induction rows with
  | nil => rfl
  | cons row rest hypothesis => rw [rowsHold, List.map_cons, List.all_cons, hypothesis, id]

end Condition

namespace Expression

mutual

/-- Whether an expression holds where it is about a field. A group is about the fields
that it names, wherever it stands. -/
def holds (filter : Filter) (truth : Assignment) (field : String) : Expression → Bool
  | literal raw => truth field (.equals (filter.literal field raw))
  | and operands => allHold filter truth field operands
  | or operands => anyHolds filter truth field operands
  | not operand => !holds filter truth field operand
  | like pattern => truth field (.like pattern)
  | notLike pattern => truth field (.notLike pattern)
  | oneOf items => truth field (.oneOf (items.map (filter.literal field)))
  | between low high =>
      truth field (.between (filter.literal field low) (filter.literal field high))
  | group rows => rowsHold filter truth rows

/-- Whether all expressions of a list hold. -/
def allHold (filter : Filter) (truth : Assignment) (field : String) : List Expression → Bool
  | [] => true
  | operand :: rest => holds filter truth field operand && allHold filter truth field rest

/-- Whether any expression of a list holds. -/
def anyHolds (filter : Filter) (truth : Assignment) (field : String) : List Expression → Bool
  | [] => false
  | operand :: rest => holds filter truth field operand || anyHolds filter truth field rest

/-- Whether the expressions of all rows hold, each about the field that it stands under. -/
def rowsHold (filter : Filter) (truth : Assignment) : List (String × Expression) → Bool
  | [] => true
  | (name, expression) :: rest =>
      holds filter truth name expression && rowsHold filter truth rest

end

theorem allHold_eq_all (filter : Filter) (truth : Assignment) (field : String)
    (operands : List Expression) :
    allHold filter truth field operands = (operands.map (holds filter truth field)).all id := by
  induction operands with
  | nil => rfl
  | cons operand rest hypothesis => rw [allHold, List.map_cons, List.all_cons, hypothesis, id]

theorem anyHolds_eq_any (filter : Filter) (truth : Assignment) (field : String)
    (operands : List Expression) :
    anyHolds filter truth field operands = (operands.map (holds filter truth field)).any id := by
  induction operands with
  | nil => rfl
  | cons operand rest hypothesis => rw [anyHolds, List.map_cons, List.any_cons, hypothesis, id]

theorem rowsHold_eq_all (filter : Filter) (truth : Assignment)
    (rows : List (String × Expression)) :
    rowsHold filter truth rows = (rows.map fun row => row.2.holds filter truth row.1).all id := by
  induction rows with
  | nil => rfl
  | cons row rest hypothesis => rw [rowsHold, List.map_cons, List.all_cons, hypothesis, id]

end Expression

/-- What an expression that was read for a place resolves to holds exactly when the
expression does. -/
def Form.Preserved (filter : Filter) (truth : Assignment) : Form → Expression → Prop
  | .value, expression => ∀ {field condition},
      filter.resolve expression (.value field) = .ok condition →
      condition.holds truth field = expression.holds filter truth field
  | .group joining, expression => ∀ {condition},
      filter.resolve expression (.group joining.word) = .ok condition →
      ∀ field, condition.holds truth joining.word = expression.holds filter truth field
  | .condition, expression => ∀ {key condition},
      filter.resolve expression (.operand key) = .ok condition →
      ∃ rows, condition = .fields rows ∧
        ∀ field, Condition.rowsHold truth rows = expression.holds filter truth field
  | .entry name, expression => ∀ {role condition}, filter.roleOf name = .ok role →
      filter.resolve expression role = .ok condition →
      condition.holds truth name = expression.holds filter truth name

/-- No attribute has the name of a connective. -/
def Filter.KeepsConnectives (filter : Filter) : Prop :=
  ∀ joining : Connective, joining.word ∉ filter.attributes

variable {filter : Filter} {truth : Assignment}

theorem map_holds_of_values {operands : List Expression} {field : String}
    {results : List Condition}
    (each : ∀ operand ∈ operands, Form.value.Preserved filter truth operand)
    (resolved : filter.resolveAll operands (.value field) = .ok results) :
    results.map (Condition.holds truth field) =
      operands.map (Expression.holds filter truth field) := by
  apply map_eq_map_of_pairs
  have pairs := (List.forall₂_and_left _ _).mpr ⟨each, Filter.resolveAll_eq_ok_iff.mp resolved⟩
  apply pairs.imp
  intro operand condition both
  exact both.1 both.2

/-- An operand of a group is an object, which the group's own word does not negate. -/
theorem map_holds_of_conditions {operands : List Expression} {key : String}
    {results : List Condition}
    (each : ∀ operand ∈ operands, Form.condition.Preserved filter truth operand)
    (resolved : filter.resolveAll operands (.operand key) = .ok results) {joining : Connective}
    (joins : joining ≠ .not) (field : String) :
    results.map (Condition.holds truth joining.word) =
      operands.map (Expression.holds filter truth field) := by
  apply map_eq_map_of_pairs
  have pairs := (List.forall₂_and_left _ _).mpr ⟨each, Filter.resolveAll_eq_ok_iff.mp resolved⟩
  apply pairs.imp
  intro operand condition both
  rcases both.1 both.2 with ⟨rows, rfl, same⟩
  have other : joining.word ≠ Connective.not.word := by
    cases joining with
    | not => exact absurd rfl joins
    | and | or => decide
  rw [Condition.holds, if_neg other, same field]

theorem rowsHold_of_entries {rows : List (String × Expression)}
    {results : List (String × Condition)}
    (each : ∀ row ∈ rows, (Form.entry row.1).Preserved filter truth row.2)
    (resolved : filter.resolveFields rows = .ok results) :
    Condition.rowsHold truth results = Expression.rowsHold filter truth rows := by
  rw [Condition.rowsHold_eq_all, Expression.rowsHold_eq_all]
  congr 1
  apply map_eq_map_of_pairs
  have pairs := (List.forall₂_and_left _ _).mpr ⟨each, Filter.resolveFields_eq_ok_iff.mp resolved⟩
  apply pairs.imp
  rintro row result ⟨preserved, same, role, placed, found⟩
  rw [same]
  exact preserved placed found

/-- Reading keeps the meaning of expressions, whatever place they are read for. -/
theorem preserved_of_hasForm (free : filter.KeepsConnectives) {place : Form}
    {expression : Expression} (form : HasForm place expression) :
    place.Preserved filter truth expression := by
  induction form with
  | literal text | like pattern | notLike pattern | oneOf items =>
      intro field condition resolved
      rw [Filter.resolve] at resolved
      cases resolved
      rfl
  | not _ hypothesis =>
      intro field condition resolved
      rw [Filter.resolve, map_eq_ok_iff] at resolved
      rcases resolved with ⟨operand, found, rfl⟩
      rw [Condition.holds, Expression.holds, hypothesis found]
  | and _ _ hypothesis =>
      intro field condition resolved
      rw [Filter.resolve, map_eq_ok_iff] at resolved
      rcases resolved with ⟨results, all, rfl⟩
      rw [Condition.holds, Expression.holds, Condition.allHold_eq_all, Expression.allHold_eq_all,
        map_holds_of_values hypothesis all]
  | or _ _ hypothesis =>
      intro field condition resolved
      rw [Filter.resolve, map_eq_ok_iff] at resolved
      rcases resolved with ⟨results, all, rfl⟩
      rw [Condition.holds, Expression.holds, Condition.anyHolds_eq_any,
        Expression.anyHolds_eq_any, map_holds_of_values hypothesis all]
  | allOf _ _ hypothesis =>
      intro condition resolved field
      rw [Filter.resolve, map_eq_ok_iff] at resolved
      rcases resolved with ⟨results, all, rfl⟩
      rw [Condition.holds, if_neg (by decide), Expression.holds, Condition.allHold_eq_all,
        Expression.allHold_eq_all, map_holds_of_conditions hypothesis all (by simp) field]
  | anyOf _ _ hypothesis =>
      intro condition resolved field
      rw [Filter.resolve, map_eq_ok_iff] at resolved
      rcases resolved with ⟨results, all, rfl⟩
      rw [Condition.holds, if_pos rfl, Expression.holds, Condition.anyHolds_eq_any,
        Expression.anyHolds_eq_any, map_holds_of_conditions hypothesis all (by simp) field]
  | negated _ hypothesis =>
      intro condition resolved field
      rw [Filter.resolve] at resolved
      rcases hypothesis resolved with ⟨rows, rfl, same⟩
      rw [Condition.holds, if_pos rfl, same field, Expression.holds]
  | negatedAll _ _ hypothesis =>
      -- The conjunction is an object of its own, under the word that negates it.
      intro condition resolved field
      rw [Filter.resolve, Filter.resolve, map_eq_ok_iff] at resolved
      rcases resolved with ⟨results, all, rfl⟩
      rw [Filter.nested, Condition.holds, if_pos rfl, Condition.rowsHold, Condition.rowsHold,
        Bool.and_true, Condition.holds, if_neg (by decide), Condition.allHold_eq_all,
        map_holds_of_conditions hypothesis all (by simp) field, Expression.holds,
        Expression.holds, Expression.allHold_eq_all]
  | fields _ _ hypothesis =>
      intro key condition resolved
      rw [Filter.resolve, map_eq_ok_iff] at resolved
      rcases resolved with ⟨results, all, rfl⟩
      refine ⟨results, rfl, ?_⟩
      intro field
      rw [Expression.holds]
      exact rowsHold_of_entries hypothesis all
  | ofValue name value hypothesis =>
      intro role condition placed resolved
      rcases Filter.role_of_resolve_value value resolved with ⟨field, rfl⟩
      rcases Filter.roleOf_eq_ok_iff.mp placed with ⟨_, same⟩ | ⟨_, _, same⟩
      · cases same
        exact hypothesis resolved
      · cases same
  | ofGroup group hypothesis =>
      intro role condition placed resolved
      rcases Filter.roleOf_eq_ok_iff.mp placed with ⟨allowed, _⟩ | ⟨_, _, rfl⟩
      · exact absurd allowed (free _)
      · exact hypothesis resolved _

/-! ## Whole predicates -/

/-- Whether the predicate of a plan holds; where there is none, it does. -/
def Plan.holds (truth : Assignment) (plan : Plan) : Bool :=
  match plan.predicate with
  | none => true
  | some rows => Condition.rowsHold truth rows

/-- Whether everything holds that the filter forces, and everything that is asked for
under a name on which nothing is forced. -/
def Terms.holds (filter : Filter) (truth : Assignment) (terms : Terms) : Bool :=
  Expression.rowsHold filter truth
      (terms.predicates.filter fun row => !filter.forcesAttribute row.1) &&
    filter.statics.attributes.all fun row => truth row.1 (.equals row.2)

theorem Plan.holds_eq_rowsHold (truth : Assignment) (plan : Plan) :
    plan.holds truth = Condition.rowsHold truth plan.rows := by
  rw [holds, rows]
  cases plan.predicate with
  | none => rfl
  | some rows => rfl

/-- With the forced equalities there hold those conditions that they leave in place. -/
theorem rowsHold_force {demanded : Table String Condition} (sorted : demanded.Sorted) :
    Condition.rowsHold truth (filter.force demanded) =
      (Condition.rowsHold truth (demanded.filter fun row => !filter.forcesAttribute row.1) &&
        filter.statics.attributes.all fun row => truth row.1 (.equals row.2)) := by
  simp only [Condition.rowsHold_eq_all, List.all_map, Function.id_comp]
  rw [Bool.eq_iff_iff, Bool.and_eq_true, List.all_eq_true, List.all_eq_true, List.all_eq_true]
  constructor
  · intro every
    constructor
    · intro row member
      rcases List.mem_filter.mp member with ⟨member, unforced⟩
      exact every row ((Filter.mem_force_iff sorted row).mpr
        (.inr ⟨member, by simpa using unforced⟩))
    · intro row member
      exact every (row.1, .equals row.2) ((Filter.mem_force_iff sorted _).mpr
        (.inl ⟨row.2, member, rfl⟩))
  · rintro ⟨kept, forced⟩ row member
    rcases (Filter.mem_force_iff sorted row).mp member with ⟨value, given, equal⟩ | ⟨old, unforced⟩
    · have held := forced (row.1, value) given
      simpa [equal, Condition.holds] using held
    · exact kept row (List.mem_filter.mpr ⟨old, by simpa using unforced⟩)

/-- The predicate of a plan holds under an assignment exactly when the node of the request
does that the plan was made of. -/
theorem holds_of_plan {scanning : ScanOptions} {text : String} {request : Request}
    (scanned : scan scanning text = .ok request) {path : Path} {source : Request}
    (reached : request.Node path source) (free : filter.KeepsConnectives)
    {planning : PlanOptions} {plan : Plan} (planned : source.plan planning filter = .ok plan)
    (truth : Assignment) : plan.holds truth = source.terms.holds filter truth := by
  have wellFormed := wellFormed_of_scan scanned reached
  rcases Filter.rows_of_predicate (plan_eq_ok_iff.mp planned).predicate with
    ⟨demanded, resolved, rows⟩
  have sorted := Filter.sorted_of_resolveFields resolved wellFormed.predicates_sorted
  have left := Filter.resolveFields_filter (fun name => !filter.forcesAttribute name) resolved
  rw [Plan.holds_eq_rowsHold, rows, rowsHold_force sorted, Terms.holds]
  congr 1
  apply rowsHold_of_entries _ left
  intro row member
  exact preserved_of_hasForm free (wellFormed.hasForm row (List.mem_of_mem_filter member))

/-- Two conditions that are negated together, where only tests of titles succeed. -/
theorem holds_of_plan_articles :
    ∃ request plan, scan {} "not(title=a,author=b)" = .ok request ∧
      request.plan {} .articles = .ok plan ∧
      plan.holds (fun field _ => field == "title") =
        request.terms.holds .articles (fun field _ => field == "title") := by
  let request : Request :=
    ⟨0, "root",
      { predicates := [
          ("not", .not (.and [
            .group [("title", .literal "a")], .group [("author", .literal "b")]]))] },
      []⟩
  let negated : Condition :=
    .operands [
      .fields [("title", .equals (.string "a"))], .fields [("author", .equals (.string "b"))]]
  let plan : Plan :=
    ⟨"articles", ["id", "title", "author"],
      some [("not", .fields [("and", negated)]), ("published", .equals (.bool true))], [],
      none, some 10, none, []⟩
  have scanned : scan {} "not(title=a,author=b)" = .ok request := by cbv
  have planned : request.plan {} .articles = .ok plan := by cbv
  have free : Filter.articles.KeepsConnectives := by
    intro joining
    cases joining <;> decide
  exact ⟨request, plan, scanned, planned, holds_of_plan scanned (.root request) free planned _⟩

end QueryGate
