import QueryGate.Config.Reader

/-!
# Printing configurations

Everything in a configuration as JSON, with every default written out. What is
printed reads back to the same configuration, unless it nests too deep to be
read.
-/

namespace QueryGate

/-- A table whose keys have names, as an object. -/
def namedTable {κ α : Type} (name : κ → String) (image : α → Json) (rows : Table κ α) : Json :=
  .object (rows.map fun (key, value) => (name key, image value))

/-- A bound as an object. -/
def Bound.toJson (bound : Bound) : Json :=
  .object [("min", .int bound.min), ("max", .int bound.max)]

/-- Bounds as an object. -/
def Bounds.toJson (bounds : Bounds) : Json :=
  .object [
    ("attributes", .ofTable Bound.toJson bounds.attributes),
    ("clauses", namedTable Clause.name Bound.toJson bounds.clauses)]

/-- Forced values as an object. -/
def Statics.toJson (statics : Statics) : Json :=
  .object [
    ("attributes", .ofTable id statics.attributes),
    ("clauses", namedTable Clause.name id statics.clauses)]

/-- Names of clauses as an array. -/
def clausesToJson (clauses : List Clause) : Json := .strings (clauses.map Clause.name)

mutual

/-- A filter specification as an object. -/
def Spec.toJson : Spec → Json
  | ⟨attributes, clauses, includes, bounds, statics⟩ =>
      .object [
        ("attributes", attributes.elim .null .strings),
        ("clauses", clauses.elim .null clausesToJson),
        ("includes", .object (Spec.toJsonRows includes)),
        ("bounds", bounds.toJson),
        ("statics", statics.toJson)]

/-- Filter specifications as members. -/
def Spec.toJsonRows : List (String × Spec) → List (String × Json)
  | [] => []
  | (name, spec) :: rest => (name, spec.toJson) :: Spec.toJsonRows rest

end

/-- A relation as an object. -/
def Relation.toJson (relation : Relation) : Json :=
  .object [
    ("name", .string relation.name),
    ("cardinality", .string relation.cardinality.word),
    ("target", .string relation.target)]

/-- An entity as an object. -/
def Entity.toJson (entity : Entity) : Json :=
  .object [
    ("name", .string entity.name),
    ("attributes", .strings entity.attributes),
    ("relations", .array (entity.relations.map Relation.toJson))]

/-- A schema as an object. -/
def Schema.toJson (schema : Schema) : Json :=
  .single "entities" (.ofTable Entity.toJson schema.entities)

/-- The options of scanning as an object. -/
def ScanOptions.toJson (options : ScanOptions) : Json :=
  .object [
    ("duplicate_includes", .string options.duplicates.word),
    ("max_depth", .nat options.maxDepth)]

/-- The options of planning as an object. -/
def PlanOptions.toJson (options : PlanOptions) : Json :=
  .single "aggregate_order" (.string options.aggregates.word)

/-- A configuration as an object. -/
def Config.toJson (config : Config) : Json :=
  .object [
    ("schema", config.schema.toJson),
    ("filters", .object (Spec.toJsonRows config.filters)),
    ("lexer", config.scanning.toJson),
    ("compiler", config.planning.toJson)]

mutual

/-- A filter as an object. -/
def Filter.toJson : Filter → Json
  | ⟨entity, attributes, clauses, includes, bounds, statics⟩ =>
      .object [
        ("entity", .string entity),
        ("attributes", .strings attributes),
        ("clauses", clausesToJson clauses),
        ("includes", .object (Filter.toJsonRows includes)),
        ("bounds", bounds.toJson),
        ("statics", statics.toJson)]

/-- Filters as members. -/
def Filter.toJsonRows : List (String × Filter) → List (String × Json)
  | [] => []
  | (name, filter) :: rest => (name, filter.toJson) :: Filter.toJsonRows rest

end

end QueryGate
