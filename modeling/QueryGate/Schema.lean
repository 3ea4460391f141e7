import QueryGate.Table

/-!
# Schemas

What is known about the entities that can be queried: their attributes, and their
relations to each other.
-/

namespace QueryGate

/-- How many rows a relation leads to, and which side refers to the other. -/
inductive Cardinality where
  | hasOne
  | belongsTo
  | hasMany
  | belongsToMany
  deriving DecidableEq, Repr

namespace Cardinality

/-- The word for a cardinality. -/
def word : Cardinality → String
  | hasOne => "has_one"
  | belongsTo => "belongs_to"
  | hasMany => "has_many"
  | belongsToMany => "belongs_to_many"

/-- The cardinality that a word stands for. -/
def ofWord? : String → Option Cardinality
  | "has_one" => some hasOne
  | "belongs_to" => some belongsTo
  | "has_many" => some hasMany
  | "belongs_to_many" => some belongsToMany
  | _ => none

@[simp] theorem ofWord?_word (cardinality : Cardinality) :
    ofWord? cardinality.word = some cardinality := by
  cases cardinality <;> rfl

/-- Whether a relation leads to at most one row, which leaves nothing to page through. -/
def isSingular : Cardinality → Bool
  | hasOne | belongsTo => true
  | hasMany | belongsToMany => false

end Cardinality

/-- A relation of an entity to a target entity. -/
structure Relation where
  name : String
  cardinality : Cardinality
  target : String
  deriving DecidableEq, Repr

/-- An entity. -/
structure Entity where
  name : String
  attributes : List String := []
  relations : List Relation := []
  deriving DecidableEq, Repr

namespace Entity

/-- Whether the entity has the attribute. -/
def hasAttribute (entity : Entity) (name : String) : Bool :=
  entity.attributes.contains name

/-- The first relation of that name. -/
def relation? (entity : Entity) (name : String) : Option Relation :=
  entity.relations.find? fun relation => relation.name == name

end Entity

/-- Entities under the names by which they are found. -/
structure Schema where
  entities : Table String Entity := []
  deriving DecidableEq, Repr

namespace Schema

/-- The entity found under a name. -/
def entity? (schema : Schema) (name : String) : Option Entity :=
  Table.get? schema.entities name

/-- The schema with an entity under its own name. -/
def insert (schema : Schema) (entity : Entity) : Schema :=
  ⟨Table.insert entity.name entity schema.entities⟩

/-- The names under which there are entities, in order. -/
def names (schema : Schema) : List String := Table.keys schema.entities

/-- Entities without a name of their own get the one under which they are found. -/
def fillNames (schema : Schema) : Schema :=
  ⟨schema.entities.map fun (key, entity) =>
    (key, if entity.name.isEmpty then { entity with name := key } else entity)⟩

end Schema

end QueryGate
