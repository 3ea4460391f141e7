import QueryGate.Plan.Condition
import QueryGate.Table

/-!
# Plans

A plan tells a backend what to fetch: everything in it has passed a filter. The
members of its JSON form stand in a fixed order, and those that say nothing are
left out.
-/

namespace QueryGate

/-- The direction of an ordering. -/
inductive Direction where
  | ascending
  | descending
  deriving DecidableEq, Repr

/-- The word for a direction. -/
def Direction.word : Direction → String
  | ascending => "asc"
  | descending => "desc"

/-- A function of many values of a column. -/
inductive Aggregate where
  | max
  | min
  deriving DecidableEq, Repr

/-- The word for an aggregate. -/
def Aggregate.word : Aggregate → String
  | max => "MAX"
  | min => "MIN"

/-- How the rows of a plan are ordered. -/
inductive RowOrder where
  | random
  | column (column : String) (direction : Direction)
  | aggregate (function : Aggregate) (column : String) (direction : Direction)
  deriving DecidableEq, Repr

/-- An ordering as an object. -/
def RowOrder.toJson : RowOrder → Json
  | random => .object [("kind", .string "random")]
  | column name direction =>
      .object [
        ("kind", .string "column"),
        ("column", .string name),
        ("direction", .string direction.word)]
  | aggregate function name direction =>
      .object [
        ("kind", .string "aggregate"),
        ("function", .string function.word),
        ("column", .string name),
        ("direction", .string direction.word)]

/-- A function to compute, and the name that its result is given. -/
structure Computation where
  name : String
  arguments : List String
  label : String
  deriving DecidableEq, Repr

/-- A computation as an object. -/
def Computation.toJson (computation : Computation) : Json :=
  .object [
    ("name", .string computation.name),
    ("args", .strings computation.arguments),
    ("alias", .string computation.label)]

/-- What to fetch of one entity, and of each relation that is included. -/
structure Plan where
  entity : String
  projection : List String
  predicate : Option (Table String Condition)
  includes : List (String × Plan)
  order : Option RowOrder
  limit : Option Nat
  offset : Option Nat
  functions : List Computation
  deriving Repr

namespace Plan

/-- The plan of the first included relation of that name. -/
def include? (plan : Plan) (relation : String) : Option Plan :=
  plan.includes.lookup relation

/-- The condition that stands under a name. -/
def condition? (plan : Plan) (name : String) : Option Condition :=
  plan.predicate.bind fun rows => Table.get? rows name

/-- A member of an object, or nothing. -/
def optionalMember {α : Type} (name : String) (image : α → Json) :
    Option α → List (String × Json)
  | none => []
  | some value => [(name, image value)]

mutual

/-- The members of a plan's object. -/
def members : Plan → List (String × Json)
  | ⟨entity, projection, predicate, includes, order, limit, offset, functions⟩ =>
      [("entity", .string entity), ("projection", .strings projection)] ++
        optionalMember "predicate" (fun rows => .object (Condition.toJsonFields rows)) predicate ++
        [("include", .array (includesToJson includes))] ++
        optionalMember "order" RowOrder.toJson order ++
        optionalMember "limit" Json.nat limit ++
        optionalMember "offset" Json.nat offset ++
        if functions.isEmpty then []
        else [("functions", .array (functions.map Computation.toJson))]

/-- The included plans as objects, each starting with its relation. -/
def includesToJson : List (String × Plan) → List Json
  | [] => []
  | (relation, plan) :: rest =>
      .object (("relation", .string relation) :: plan.members) :: includesToJson rest

end

/-- A plan as an object. -/
def toJson (plan : Plan) : Json := .object plan.members

end Plan

end QueryGate
