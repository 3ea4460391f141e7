import QueryGate.Config.Basic
import QueryGate.Error
import QueryGate.Plan.Build

/-!
# Gates

A gate serves queries: it knows a filter for each entity that may be queried, and
takes a query all the way from percent-coded text to a plan.
-/

namespace QueryGate

/-- Filters by entity, and the options of scanning and planning. -/
structure Gate where
  scanning : ScanOptions := {}
  planning : PlanOptions := {}
  filters : Table String Filter := []
  deriving Repr

namespace Gate

/-- The gate that a configuration describes. -/
def ofConfig (config : Config) : Except ConfigError Gate :=
  config.buildFilters.map fun filters =>
    { scanning := config.scanning, planning := config.planning, filters := filters }

/-- The gate with a filter for the filter's own entity. -/
def withFilter (gate : Gate) (filter : Filter) : Gate :=
  { gate with filters := Table.insert filter.entity filter gate.filters }

/-- The filter of an entity. -/
def filter? (gate : Gate) (entity : String) : Option Filter :=
  Table.get? gate.filters entity

/-- The entities that may be queried, in order. -/
def entities (gate : Gate) : List String := Table.keys gate.filters

/-- The request that a percent-coded query denotes. -/
def request (gate : Gate) (raw : String) : Except Error Request := do
  let text ← (Text.Percent.decode raw).mapError .decoding
  (scan gate.scanning text).mapError .query

/-- The plan of a percent-coded query for an entity. -/
def plan (gate : Gate) (entity raw : String) : Except Error Plan :=
  match gate.filter? entity with
  | none => .error (.config (.unknownEntity entity))
  | some filter => do
      let request ← gate.request raw
      (request.plan gate.planning filter).mapError .plan

end Gate

end QueryGate
