import Mathlib
import QueryGate.Proofs.Filter.Build
import QueryGate.Proofs.Plan.Literal
import QueryGate.Proofs.Plan.Numbers
import QueryGate.Proofs.Plan.Resolve

/-!
# Integers in predicates

Every literal of an entry comes to a value at the same place of the plan's condition. The place
says which field a literal is about, which is the name of the innermost row around it, and the
bound on that field is the one that the value is forced into. So no integer beyond a bound stands
in a condition that a client has asked for.
-/

namespace QueryGate

open Text

/-! ## Places in predicates -/

/-- A turn on the way to a value: to the row of a name, to what an operator holds, or to an item
of an array. -/
inductive Turn where
  | row (name : String)
  | operator (word : String)
  | item (index : Nat)
  deriving DecidableEq, Repr

/-- The place of a value in a predicate, and the field that the value is about. -/
structure Site where
  field : String
  turns : List Turn
  deriving DecidableEq, Repr

namespace Site

/-- The row of a name; what stands there is about the field of that name. -/
def row (site : Site) (name : String) : Site := ⟨name, site.turns ++ [.row name]⟩

/-- What an operator holds. -/
def operator (site : Site) (word : String) : Site := ⟨site.field, site.turns ++ [.operator word]⟩

/-- An item of an array. -/
def item (site : Site) (index : Nat) : Site := ⟨site.field, site.turns ++ [.item index]⟩

/-- A predicate itself, which is about no field. -/
def top : Site := ⟨"", []⟩

/-- The items of an array, with their places. -/
def number {α : Type} (site : Site) (items : List α) : List (Site × α) :=
  items.zipIdx.map fun (content, index) => (site.item index, content)

end Site

namespace Condition

mutual

/-- The values that a condition compares with, and their places; the condition itself stands at
the given one. -/
def values : Condition → Site → List (Site × Json)
  | equals value, site => [(site, value)]
  | not operand, site => values operand (site.operator "not")
  | like _, _ => []
  | notLike _, _ => []
  | oneOf contents, site => (site.operator "in").number contents
  | and items, site => valuesAll items (site.operator "and") 0
  | or items, site => valuesAll items (site.operator "or") 0
  | between low high, site => (site.operator "between").number [low, high]
  | fields rows, site => valuesFields rows site
  | operands items, site => valuesAll items site 0

/-- The values of several conditions, which are the items of an array from an index on. -/
def valuesAll : List Condition → Site → Nat → List (Site × Json)
  | [], _, _ => []
  | condition :: rest, site, index =>
      values condition (site.item index) ++ valuesAll rest site (index + 1)

/-- The values of conditions on fields. -/
def valuesFields : List (String × Condition) → Site → List (Site × Json)
  | [], _ => []
  | (name, condition) :: rest, site => values condition (site.row name) ++ valuesFields rest site

end

end Condition

/-! ## Literals and the places of their values -/

/-- The name that what plays a part stands under. -/
def Role.name : Role → String
  | value field => field
  | group key => key
  | operand key => key

/-- Where an expression stands: the part that it plays, and the place in the plan of what it comes
to, which is about the field that the part is under. -/
structure Standing where
  role : Role
  site : Site
  named : role.name = site.field

namespace Standing

/-- Where the operands of a connective stand: below an operator of conditions on one field, or
below the row that names the connective, which an operand of another one gets for it. -/
def inside (connective : Connective) : Standing → Standing
  | ⟨.value field, site, named⟩ => ⟨.value field, site.operator connective.word, named⟩
  | ⟨.group key, site, named⟩ => ⟨.operand key, site, named⟩
  | ⟨.operand _, site, _⟩ => ⟨.operand connective.word, site.row connective.word, rfl⟩

/-- An item of several expressions that stand in one place. -/
def item (standing : Standing) (index : Nat) : Standing :=
  ⟨standing.role, standing.site.item index, standing.named⟩

end Standing

namespace Filter

/-- Where the expression under a name stands: it is about the attribute of that name, if that is
permitted, or else a group. -/
def standing (filter : Filter) (site : Site) (name : String) : Standing :=
  if filter.allowsAttribute name then ⟨.value name, site.row name, rfl⟩
  else ⟨.group name, site.row name, rfl⟩

theorem role_standing {filter : Filter} {name : String} {role : Role}
    (placed : filter.roleOf name = .ok role) (site : Site) :
    (filter.standing site name).role = role := by
  obtain ⟨allowed, rfl⟩ | ⟨forbidden, -, rfl⟩ := roleOf_eq_ok_iff.mp placed
  · rw [standing, if_pos (allowsAttribute_iff.mpr allowed)]
  · rw [standing, if_neg (mt allowsAttribute_iff.mp forbidden)]

@[simp] theorem site_standing (filter : Filter) (site : Site) (name : String) :
    (filter.standing site name).site = site.row name := by
  rw [standing]
  split <;> rfl

end Filter

namespace Expression

variable (filter : Filter)

mutual

/-- The literals of an expression, each with the place where its value belongs. -/
def literals : Expression → Standing → List (Site × String)
  | literal raw, standing => [(standing.site, raw)]
  | not operand, standing => literals operand (standing.inside .not)
  | and operands, standing => literalsAll operands (standing.inside .and) 0
  | or operands, standing => literalsAll operands (standing.inside .or) 0
  | like _, _ => []
  | notLike _, _ => []
  | oneOf items, standing => (standing.site.operator "in").number items
  | between low high, standing => (standing.site.operator "between").number [low, high]
  | group fields, standing => literalsFields fields standing.site

/-- The literals of several expressions, which are the items of an array from an index on. -/
def literalsAll : List Expression → Standing → Nat → List (Site × String)
  | [], _, _ => []
  | expression :: rest, standing, index =>
      literals expression (standing.item index) ++ literalsAll rest standing (index + 1)

/-- The literals of conditions on fields. -/
def literalsFields : List (String × Expression) → Site → List (Site × String)
  | [], _ => []
  | (name, expression) :: rest, site =>
      literals expression (filter.standing site name) ++ literalsFields rest site

end

end Expression

namespace Filter

/-- The value that a literal comes to, in its place. -/
def valueAt (filter : Filter) : Site × String → Site × Json
  | (site, raw) => (site, filter.literal site.field raw)

/-- The items of an array are about the field that the array is about. -/
theorem map_valueAt_number (filter : Filter) (site : Site) (items : List String) :
    (site.number items).map filter.valueAt =
      site.number (items.map (filter.literal site.field)) := by
  simp only [Site.number, List.zipIdx_map, List.map_map]
  rfl

open Expression

variable {filter : Filter} {standing : Standing} {condition : Condition}

theorem exists_of_resolve_not {operand : Expression}
    (resolved : filter.resolve (.not operand) standing.role = .ok condition) :
    ∃ inner, filter.resolve operand (standing.inside .not).role = .ok inner ∧
      condition.values standing.site = inner.values (standing.inside .not).site := by
  obtain ⟨field | key | key, site, named⟩ := standing
  · rw [resolve, map_eq_ok_iff] at resolved
    obtain ⟨inner, found, rfl⟩ := resolved
    exact ⟨inner, found, rfl⟩
  · rw [resolve] at resolved
    exact ⟨condition, resolved, rfl⟩
  · rw [resolve, map_eq_ok_iff] at resolved
    obtain ⟨inner, found, rfl⟩ := resolved
    exact ⟨inner, found, List.append_nil _⟩

/-- Operands of a connective are resolved, and their values stand, below the connective. -/
theorem exists_of_resolve_join {connective : Connective} {expression : Expression}
    {operands : List Expression}
    (joins : connective = .and ∧ expression = .and operands ∨
      connective = .or ∧ expression = .or operands)
    (resolved : filter.resolve expression standing.role = .ok condition) :
    ∃ conditions, filter.resolveAll operands (standing.inside connective).role = .ok conditions ∧
      condition.values standing.site =
        Condition.valuesAll conditions (standing.inside connective).site 0 := by
  obtain ⟨role, site, named⟩ := standing
  obtain ⟨rfl, rfl⟩ | ⟨rfl, rfl⟩ := joins <;> cases role with
  | value field | group key =>
      rw [resolve, map_eq_ok_iff] at resolved
      obtain ⟨conditions, all, rfl⟩ := resolved
      exact ⟨conditions, all, rfl⟩
  | operand key =>
      rw [resolve, map_eq_ok_iff] at resolved
      obtain ⟨conditions, all, rfl⟩ := resolved
      exact ⟨conditions, all, List.append_nil _⟩

mutual

/-- The values of the condition that an expression means are those of its literals, each in the
place of its literal and within the bound on the field that the place is about. -/
theorem values_of_resolve (filter : Filter) : ∀ (expression : Expression) (standing : Standing)
    {condition : Condition}, filter.resolve expression standing.role = .ok condition →
      condition.values standing.site = (expression.literals filter standing).map filter.valueAt
  | .not operand, standing, condition, resolved => by
      obtain ⟨inner, found, same⟩ := exists_of_resolve_not resolved
      rw [same, values_of_resolve filter operand _ found, literals]
  | .and operands, standing, condition, resolved => by
      obtain ⟨conditions, all, same⟩ := exists_of_resolve_join (.inl ⟨rfl, rfl⟩) resolved
      rw [same, values_of_resolveAll filter operands _ 0 all, literals]
  | .or operands, standing, condition, resolved => by
      obtain ⟨conditions, all, same⟩ := exists_of_resolve_join (.inr ⟨rfl, rfl⟩) resolved
      rw [same, values_of_resolveAll filter operands _ 0 all, literals]
  | .literal raw, ⟨.value _, site, rfl⟩, condition, resolved => by
      rw [resolve] at resolved
      cases resolved
      rfl
  | .like pattern, ⟨.value _, site, rfl⟩, condition, resolved => by
      rw [resolve] at resolved
      cases resolved
      rfl
  | .notLike pattern, ⟨.value _, site, rfl⟩, condition, resolved => by
      rw [resolve] at resolved
      cases resolved
      rfl
  | .oneOf items, ⟨.value _, site, rfl⟩, condition, resolved => by
      rw [resolve] at resolved
      cases resolved
      exact (map_valueAt_number filter (site.operator "in") items).symm
  | .between low high, ⟨.value _, site, rfl⟩, condition, resolved => by
      rw [resolve] at resolved
      cases resolved
      rfl
  | .group fields, ⟨.value _, site, rfl⟩, condition, resolved
  | .group fields, ⟨.operand _, site, rfl⟩, condition, resolved => by
      rw [resolve, map_eq_ok_iff] at resolved
      obtain ⟨rows, all, rfl⟩ := resolved
      exact values_of_resolveFields filter fields site all
  | .literal _, ⟨.group _, _, _⟩, _, resolved | .literal _, ⟨.operand _, _, _⟩, _, resolved
  | .like _, ⟨.group _, _, _⟩, _, resolved | .like _, ⟨.operand _, _, _⟩, _, resolved
  | .notLike _, ⟨.group _, _, _⟩, _, resolved | .notLike _, ⟨.operand _, _, _⟩, _, resolved
  | .oneOf _, ⟨.group _, _, _⟩, _, resolved | .oneOf _, ⟨.operand _, _, _⟩, _, resolved
  | .between _ _, ⟨.group _, _, _⟩, _, resolved | .between _ _, ⟨.operand _, _, _⟩, _, resolved
  | .group _, ⟨.group _, _, _⟩, _, resolved => by
      simp [resolve, notConditions] at resolved

theorem values_of_resolveAll (filter : Filter) : ∀ (expressions : List Expression)
    (standing : Standing) (index : Nat) {conditions : List Condition},
    filter.resolveAll expressions standing.role = .ok conditions →
      Condition.valuesAll conditions standing.site index =
        (literalsAll filter expressions standing index).map filter.valueAt
  | [], standing, index, conditions, resolved => by
      cases resolved
      rfl
  | expression :: rest, standing, index, conditions, resolved => by
      simp only [resolveAll, bind_eq_ok_iff, pure_eq_ok_iff] at resolved
      obtain ⟨condition, first, others, later, rfl⟩ := resolved
      have own := values_of_resolve filter expression (standing.item index) first
      rw [Condition.valuesAll, literalsAll, List.map_append, ← own,
        ← values_of_resolveAll filter rest standing (index + 1) later]
      rfl

theorem values_of_resolveFields (filter : Filter) : ∀ (fields : List (String × Expression))
    (site : Site) {rows : List (String × Condition)},
    filter.resolveFields fields = .ok rows →
      Condition.valuesFields rows site = (literalsFields filter fields site).map filter.valueAt
  | [], site, rows, resolved => by
      cases resolved
      rfl
  | (name, expression) :: rest, site, rows, resolved => by
      simp only [resolveFields, bind_eq_ok_iff, pure_eq_ok_iff] at resolved
      obtain ⟨role, placed, condition, first, others, later, rfl⟩ := resolved
      rw [← role_standing placed site] at first
      have own := values_of_resolve filter expression (filter.standing site name) first
      rw [Condition.valuesFields, literalsFields, List.map_append, ← own,
        ← values_of_resolveFields filter rest site later, site_standing]

end

end Filter

/-! ## Numerals -/

/-- The shortest numeral of an integer of 64 bits, with a sign or without one, has that integer
as its value. -/
theorem typedLiteral_toString {value : Int} (atLeast : leastInt64 ≤ value)
    (atMost : value ≤ greatestNat64) : typedLiteral (toString value) = .number (.int value) := by
  rw [typedLiteral_eq_int_iff, exactInt?_eq_some_iff, ← textOfInt_eq_toList]
  exact ⟨textOfInt_eq_iff.mp rfl, atLeast, atMost⟩

namespace Filter

variable {filter : Filter} {field : String} {bound : Bound}

theorem literal_toString (bounded : filter.attributeBound? field = some bound)
    (ordered : bound.min ≤ bound.max) {value : Int} (atLeast : leastInt64 ≤ value)
    (atMost : value ≤ greatestNat64) :
    filter.literal field (toString value) =
      .number (.int (max bound.min (min value bound.max))) := by
  rw [literal, bounded, ← clamp_eq_max_min ordered]
  dsimp only
  rw [typedLiteral_toString atLeast atMost]
  rfl

/-- No literal of a bounded field has an integer beyond the bound as its value. -/
theorem within_of_literal (bounded : filter.attributeBound? field = some bound)
    (ordered : bound.min ≤ bound.max) {raw : String} {value : Int}
    (same : filter.literal field raw = .number (.int value)) :
    bound.min ≤ value ∧ value ≤ bound.max := by
  rw [literal, bounded] at same
  dsimp only at same
  generalize typedLiteral raw = typed at same
  cases typed with
  | number number =>
      cases number with
      | int asked =>
          cases same
          rw [clamp_eq_max_min ordered]
          omega
      | double asked => cases same
  | _ => cases same

/-- A literal has its value in its place, and if it is the shortest numeral of an integer of 64
bits and there is a bound on the field that it is about, the value is the integer of the bound
that is nearest to it. -/
def Clamps (filter : Filter) (literal : Site × String) (value : Site × Json) : Prop :=
  value.1 = literal.1 ∧ ∀ (bound : Bound) (asked : Int),
    filter.attributeBound? literal.1.field = some bound → literal.2 = toString asked →
    leastInt64 ≤ asked → asked ≤ greatestNat64 →
    value.2 = .number (.int (max bound.min (min asked bound.max)))

variable {expression : Expression} {standing : Standing} {condition : Condition}

theorem clamps_of_resolve (ordered : filter.BoundsOrdered)
    (resolved : filter.resolve expression standing.role = .ok condition) :
    List.Forall₂ filter.Clamps (expression.literals filter standing)
      (condition.values standing.site) := by
  rw [values_of_resolve filter expression standing resolved, List.forall₂_map_right_iff,
    List.forall₂_same]
  rintro ⟨site, raw⟩ -
  refine ⟨rfl, ?_⟩
  rintro bound asked bounded rfl atLeast atMost
  exact literal_toString bounded (ordered.attributes bounded) atLeast atMost

theorem within_of_resolve (ordered : filter.BoundsOrdered)
    (resolved : filter.resolve expression standing.role = .ok condition) {site : Site}
    {value : Int} (member : (site, .number (.int value)) ∈ condition.values standing.site)
    (bounded : filter.attributeBound? site.field = some bound) :
    bound.min ≤ value ∧ value ≤ bound.max := by
  rw [values_of_resolve filter expression standing resolved] at member
  obtain ⟨⟨place, raw⟩, -, same⟩ := List.mem_map.mp member
  obtain ⟨rfl, read⟩ := Prod.mk.inj same
  exact within_of_literal bounded (ordered.attributes bounded) read

/-- What stands under a name in a plan comes of what stands there in the request, unless
something is forced there. -/
theorem condition?_of_predicate {predicates : Table String Expression} {plan : Plan}
    (made : filter.predicate predicates = .ok plan.predicate) {name : String}
    (unforced : filter.forcesAttribute name = false) :
    Option.Rel (fun expression condition =>
        filter.resolve expression (filter.standing .top name).role = .ok condition)
      (Table.get? predicates name) (plan.condition? name) := by
  obtain ⟨demanded, resolved, rows⟩ := rows_of_predicate made
  rw [forcesAttribute, Option.isSome_eq_false_iff, Option.isNone_iff_eq_none] at unforced
  rw [Plan.condition?_eq_get?, rows, get?_force, unforced, Option.map_none, Option.none_or]
  have pairs := get?_of_resolveFields resolved name
  generalize Table.get? predicates name = asked at pairs ⊢
  generalize Table.get? demanded name = found at pairs ⊢
  cases pairs with
  | none => exact .none
  | some resolves =>
      obtain ⟨-, role, placed, own⟩ := resolves
      exact .some (role_standing placed .top ▸ own)

end Filter

/-- A bound on an attribute holds for all integers of a client, at every node of a plan. Each
literal of an entry, whether in a list, below connectives or in groups, has its value in the place
that corresponds to its own; if it is an integer of a bounded field, its value is the integer of
the bound nearest to it; and so in no entry that is not forced does an integer lie beyond the
bound on the field that it is about. -/
theorem clamps_of_plan {schema : Schema} {name : String} {spec : Spec} {filter : Filter}
    (built : Filter.build schema name spec = .ok filter) {scanning : ScanOptions} {text : String}
    {request : Request} (scanned : scan scanning text = .ok request) {planning : PlanOptions}
    {plan : Plan} (planned : request.plan planning filter = .ok plan) :
    (∀ path source, request.at? path = some source →
      ∃ own node, filter.at? path = some own ∧ plan.Node path node) ∧
    ∀ path source own node, request.at? path = some source → filter.at? path = some own →
      plan.Node path node → ∀ entry, own.forcesAttribute entry = false →
        (∀ expression, Table.get? source.terms.predicates entry = some expression →
          ∃ condition, node.condition? entry = some condition ∧
            List.Forall₂ own.Clamps (expression.literals own (own.standing .top entry))
              (condition.values (Site.top.row entry))) ∧
        ∀ condition, node.condition? entry = some condition → ∀ site value,
          (site, .number (.int value)) ∈ condition.values (Site.top.row entry) →
            ∀ bound, own.attributeBound? site.field = some bound →
              bound.min ≤ value ∧ value ≤ bound.max := by
  constructor
  · intro path source found
    obtain ⟨own, node, foundFilter, reached, -⟩ :=
      exists_node_of_plan planned (Request.node_of_at? found)
    exact ⟨own, node, foundFilter, reached⟩
  · intro path source own node found foundFilter reached entry unforced
    obtain ⟨other, origin, foundOther, reachedOrigin, made⟩ := origin_of_node planned reached
    rw [foundFilter] at foundOther
    cases foundOther
    rw [(distinct_of_scan scanned).at?_of_node reachedOrigin] at found
    cases found
    have ordered := (Filter.Obtained.build built).boundsOrdered foundFilter
    have pair := Filter.condition?_of_predicate (plan_eq_ok_iff.mp made).predicate unforced
    constructor
    · intro expression asked
      rw [asked] at pair
      generalize node.condition? entry = planned at pair ⊢
      cases pair with
      | some resolved =>
          have clamps := Filter.clamps_of_resolve ordered resolved
          rw [Filter.site_standing] at clamps
          exact ⟨_, rfl, clamps⟩
    · intro condition demanded site value member bound bounded
      rw [demanded] at pair
      generalize Table.get? source.terms.predicates entry = asked at pair
      cases pair with
      | some resolved =>
          rw [← Filter.site_standing own] at member
          exact Filter.within_of_resolve ordered resolved member bounded

set_option maxRecDepth 4096 in
/-- A query with the greatest number of 64 bits, which is no integer with a sign, in a group of an
included relation, and with a negated number in a group inside that one. -/
theorem clamps_of_plan_comments :
    ∃ filter request plan own source comments condition,
      Filter.build .blog "posts" {
        includes := [("comments", { bounds := { attributes := [("id", ⟨1, 5⟩)] } })] } =
          .ok filter ∧
      scan {} "includes=comments(or(id=18446744073709551615,not(id=!(-9),text=x)))" = .ok request ∧
      request.plan {} filter = .ok plan ∧ request.at? ["comments"] = some source ∧
      filter.at? ["comments"] = some own ∧ plan.Node ["comments"] comments ∧
      comments.condition? "or" = some condition ∧
      condition.values (Site.top.row "or") = [
        (⟨"id", [.row "or", .item 0, .row "id"]⟩, .number (.int 5)),
        (⟨"id", [.row "or", .item 1, .row "not", .row "and", .item 0, .row "id", .operator "not"]⟩,
          .number (.int 1)),
        (⟨"text", [.row "or", .item 1, .row "not", .row "and", .item 1, .row "text"]⟩,
          .string "x")] ∧
      ∃ expression, Table.get? source.terms.predicates "or" = some expression ∧
        List.Forall₂ own.Clamps (expression.literals own (own.standing .top "or"))
          (condition.values (Site.top.row "or")) := by
  let own : Filter :=
    ⟨"comments", ["id", "text"], Clause.all, [], { attributes := [("id", ⟨1, 5⟩)] }, .none⟩
  let filter : Filter :=
    ⟨"posts", ["id", "title"], Clause.all, [("comments", own)], {}, .none⟩
  let expression : Expression :=
    .or [
      .group [("id", .literal "18446744073709551615")],
      .group [
        ("not", .not (.and [
          .group [("id", .not (.literal "-9"))],
          .group [("text", .literal "x")]]))]]
  let source : Request := ⟨1, "comments", { predicates := [("or", expression)] }, []⟩
  let request : Request := ⟨0, "root", {}, [source]⟩
  let condition : Condition :=
    .operands [
      .fields [("id", .equals (.number (.int 5)))],
      .fields [
        ("not", .fields [("and", .operands [
          .fields [("id", .not (.equals (.number (.int 1))))],
          .fields [("text", .equals (.string "x"))]])])]]
  let comments : Plan :=
    ⟨"comments", ["id", "text"], some [("or", condition)], [], none, none, none, []⟩
  let plan : Plan :=
    ⟨"posts", ["id", "title"], none, [("comments", comments)], none, none, none, []⟩
  have built : Filter.build .blog "posts" {
      includes := [("comments", { bounds := { attributes := [("id", ⟨1, 5⟩)] } })] } =
      .ok filter := by rfl
  have scanned :
      scan {} "includes=comments(or(id=18446744073709551615,not(id=!(-9),text=x)))" =
        .ok request := by cbv
  have planned : request.plan {} filter = .ok plan := by cbv
  have reached : plan.Node ["comments"] comments := .child List.mem_cons_self (.root comments)
  have facts := (clamps_of_plan built scanned planned).2 ["comments"] source own comments rfl rfl
    reached "or" rfl
  obtain ⟨found, same, clamps⟩ := facts.1 expression rfl
  cases same
  exact ⟨filter, request, plan, own, source, comments, condition, built, scanned, planned, rfl,
    rfl, reached, rfl, rfl, expression, rfl, clamps⟩

end QueryGate
