import QueryGate.Filter.Basic
import QueryGate.Plan.Paging
import QueryGate.Query.Scanner

/-!
# Configurations

A configuration describes the entities, the filters for some of them, and the
options of scanning and planning.
-/

namespace QueryGate

/-- A configuration. -/
structure Config where
  schema : Schema := {}
  filters : Table String Spec := []
  scanning : ScanOptions := {}
  planning : PlanOptions := {}
  deriving Repr

namespace Config

/-- The filters of the specifications, in order. -/
def buildSpecs (schema : Schema) : Table String Spec → Except ConfigError (Table String Filter)
  | [] => .ok []
  | (name, spec) :: rest => do
      let filter ← Filter.build schema name spec
      let filters ← buildSpecs schema rest
      return (name, filter) :: filters

/-- Adds default filters for the entities that have none. -/
def addDefaults (schema : Schema) (filters : Table String Filter) : Table String Filter :=
  schema.entities.foldl
    (fun filters (name, entity) =>
      match Table.get? filters name with
      | some _ => filters
      | none => Table.insert name (Filter.ofEntity entity) filters)
    filters

/-- The filters of all entities. -/
def buildFilters (config : Config) : Except ConfigError (Table String Filter) :=
  (buildSpecs config.schema config.filters).map (addDefaults config.schema)

end Config

end QueryGate
