import QueryGate.Filter.Error
import QueryGate.Filter.Spec
import QueryGate.Schema

/-!
# Filters

A filter says what queries may ask of one entity and of the relations that are
included from it. It is built from a specification that has been checked against a
schema, and it does not change after that.
-/

namespace QueryGate

/-- What queries may ask of an entity. -/
structure Filter where
  entity : String
  /-- The attributes that may be used, in the order in which they are returned. -/
  attributes : List String
  /-- The clauses that may be used, in order. -/
  clauses : List Clause
  /-- The relations that may be included. -/
  includes : List (String × Filter)
  bounds : Bounds
  statics : Statics
  deriving Repr

namespace Filter

/-- Whether the attribute may be used. -/
def allowsAttribute (filter : Filter) (name : String) : Bool :=
  filter.attributes.contains name

theorem allowsAttribute_iff {filter : Filter} {name : String} :
    filter.allowsAttribute name = true ↔ name ∈ filter.attributes :=
  List.contains_iff_mem

/-- Whether the clause may be used. -/
def allowsClause (filter : Filter) (clause : Clause) : Bool :=
  filter.clauses.contains clause

/-- The filter of a relation that may be included. -/
def include? (filter : Filter) (relation : String) : Option Filter :=
  Table.get? filter.includes relation

/-- The bound on a clause. -/
def clauseBound? (filter : Filter) (clause : Clause) : Option Bound :=
  Table.get? filter.bounds.clauses clause

/-- The bound on an attribute. -/
def attributeBound? (filter : Filter) (name : String) : Option Bound :=
  Table.get? filter.bounds.attributes name

/-- The bound on `limit` where no filter is specified. -/
def defaultLimit : Bound := ⟨1, 3⟩

/-- The filter of an entity for which none is specified: all attributes and
clauses, no relations, and few rows. -/
def ofEntity (entity : Entity) : Filter where
  entity := entity.name
  attributes := entity.attributes
  clauses := Clause.all
  includes := []
  bounds := { clauses := [(.limit, defaultLimit)] }
  statics := .none

/-- The filter without the clause `limit`, a bound on it, or a value for it. -/
def withoutLimit (filter : Filter) : Filter :=
  { filter with
    clauses := filter.clauses.filter (· != .limit)
    bounds := { filter.bounds with clauses := Table.erase filter.bounds.clauses .limit }
    statics :=
      { filter.statics with
        clauses := Table.erase filter.statics.clauses .limit
        clauses_sorted := Table.sorted_erase filter.statics.clauses_sorted .limit } }

/-- Checks that an entity has an attribute. -/
def checkAttribute (entity : Entity) (name : String) : Except ConfigError Unit :=
  if entity.hasAttribute name then .ok ()
  else .error (.unknownAttribute entity.name name)

/-- Checks that a bound contains an integer, and no negative one unless allowed. -/
def checkBound (entity name : String) (bound : Bound) (allowNegative : Bool) :
    Except ConfigError Unit :=
  if bound.max < bound.min then
    .error (.invalidBound entity name bound.min bound.max .minAboveMax)
  else if !allowNegative && bound.min < 0 then
    .error (.invalidBound entity name bound.min bound.max .negative)
  else .ok ()

/-- Checks what a specification says about an entity itself. -/
def checkOwn (name : String) (spec : Spec) (entity : Entity) : Except ConfigError Unit := do
  (spec.attributes.getD []).forM (checkAttribute entity)
  spec.bounds.attributes.forM fun (bounded, bound) => do
    checkAttribute entity bounded
    checkBound name bounded bound true
  spec.bounds.clauses.forM fun (clause, bound) => checkBound name clause.name bound false
  spec.statics.attributes.forM fun (fixed, _) => checkAttribute entity fixed

/-- The attributes that a specification permits: its own, each where it first
stands, or else those of the entity. -/
def permittedAttributes (spec : Spec) (entity : Entity) : List String :=
  match spec.attributes with
  | some attributes => attributes.eraseDups
  | none => entity.attributes

/-- The clauses that a specification permits, in order. -/
def permittedClauses (spec : Spec) : List Clause :=
  match spec.clauses with
  | some clauses => Clause.all.filter clauses.contains
  | none => Clause.all

mutual

/-- The filter that a specification describes for an entity of a schema. -/
def build (schema : Schema) (name : String) : Spec → Except ConfigError Filter
  | ⟨attributes, clauses, includes, bounds, statics⟩ =>
      match schema.entity? name with
      | none => .error (.unknownEntity name)
      | some entity => do
          let own : Spec := { attributes, clauses, bounds, statics }
          checkOwn name own entity
          let children ← buildIncludes schema name entity includes
          return {
            entity := name
            attributes := permittedAttributes own entity
            clauses := permittedClauses own
            includes := children
            bounds := bounds
            statics := statics }

/-- The filters of the relations that a specification includes. A relation that
leads to at most one row has no use for a limit, and its filter loses it. -/
def buildIncludes (schema : Schema) (name : String) (entity : Entity) :
    List (String × Spec) → Except ConfigError (List (String × Filter))
  | [] => .ok []
  | (relationName, spec) :: rest =>
      match entity.relation? relationName with
      | none => .error (.unknownRelation name relationName)
      | some relation => do
          let child ← build schema relation.target spec
          let child := if relation.cardinality.isSingular then child.withoutLimit else child
          let children ← buildIncludes schema name entity rest
          return (relationName, child) :: children

end

end Filter

end QueryGate
