import QueryGate.Config.Basic
import QueryGate.Json.Decode

/-!
# Reading configurations

The decoders of everything that a configuration consists of. Fields that are absent
have defaults, except those of relations and bounds.
-/

namespace QueryGate

open Written

/-- Decodes a clause. -/
def Clause.decode (room : Nat) (written : Written) : Option Clause :=
  word? ofName? room written

/-- Decodes a cardinality. -/
def Cardinality.decode (room : Nat) (written : Written) : Option Cardinality :=
  word? ofWord? room written

/-- The word for a policy. -/
def DuplicatePolicy.word : DuplicatePolicy → String
  | merge => "merge"
  | replace => "replace"
  | reject => "reject"

/-- The policy that a word stands for. -/
def DuplicatePolicy.ofWord? : String → Option DuplicatePolicy
  | "merge" => some merge
  | "replace" => some replace
  | "reject" => some reject
  | _ => none

@[simp] theorem DuplicatePolicy.ofWord?_word (policy : DuplicatePolicy) :
    ofWord? policy.word = some policy := by
  cases policy <;> rfl

/-- The word for a style. -/
def AggregateStyle.word : AggregateStyle → String
  | legacy => "legacy"
  | symmetric => "symmetric"

/-- The style that a word stands for. -/
def AggregateStyle.ofWord? : String → Option AggregateStyle
  | "legacy" => some legacy
  | "symmetric" => some symmetric
  | _ => none

@[simp] theorem AggregateStyle.ofWord?_word (style : AggregateStyle) :
    ofWord? style.word = some style := by
  cases style <;> rfl

/-- Decodes a bound. Both ends are needed. -/
def Bound.decode (room : Nat) (written : Written) : Option Bound := do
  let [some min, some max] ← fields? ["min", "max"] room written | none
  some ⟨← int64? min, ← int64? max⟩

/-- Decodes the bounds of a specification. -/
def Bounds.decode (room : Nat) (written : Written) : Option Bounds := do
  let [attributes, clauses] ← fields? ["attributes", "clauses"] room written | none
  some {
    attributes := ← orDefault (table? some Bound.decode (room - 1)) [] attributes
    clauses := ← orDefault (table? Clause.ofName? Bound.decode (room - 1)) [] clauses }

/-- Decodes the forced values of a specification. -/
def Statics.decode (room : Nat) (written : Written) : Option Statics := do
  let [attributes, clauses] ← fields? ["attributes", "clauses"] room written | .none
  some <| .ofRows
    (← orDefault (rows? some json? (room - 1)) [] attributes)
    (← orDefault (rows? Clause.ofName? json? (room - 1)) [] clauses)

/-- Decodes a filter specification, with a decoder for the specifications in it. -/
def Spec.decodeWith (includes? : Written → Option (List (String × Spec))) (room : Nat)
    (written : Written) : Option Spec := do
  let [attributes, clauses, includes, bounds, statics] ←
    fields? ["attributes", "clauses", "includes", "bounds", "statics"] (room + 1) written | none
  some {
    attributes := ← orNull (list? (fun _ => text?) room) attributes
    clauses := ← orNull (list? Clause.decode room) clauses
    includes := ← orDefault includes? [] includes
    bounds := ← orDefault (Bounds.decode room) {} bounds
    statics := ← orDefault (Statics.decode room) .none statics }

/-- Decodes a filter specification. The specifications in it are two levels further down. -/
def Spec.decode : (room : Nat) → Written → Option Spec
  | 0, _ => none
  | 1, written => decodeWith (fun _ => none) 0 written
  | room + 2, written =>
      decodeWith (fun written => (members? some (decode room) written).map Table.ofRows)
        (room + 1) written

/-- Decodes a relation. All of its fields are needed. -/
def Relation.decode (room : Nat) (written : Written) : Option Relation := do
  let [some name, some cardinality, some target] ←
    fields? ["name", "cardinality", "target"] room written | none
  some ⟨← text? name, ← Cardinality.decode (room - 1) cardinality, ← text? target⟩

/-- Decodes an entity. -/
def Entity.decode (room : Nat) (written : Written) : Option Entity := do
  let [name, attributes, relations] ←
    fields? ["name", "attributes", "relations"] room written | none
  some {
    name := ← orDefault text? "" name
    attributes := ← orDefault (list? (fun _ => text?) (room - 1)) [] attributes
    relations := ← orDefault (list? Relation.decode (room - 1)) [] relations }

/-- Decodes a schema. -/
def Schema.decode (room : Nat) (written : Written) : Option Schema := do
  let [entities] ← fields? ["entities"] room written | none
  some ⟨← orDefault (table? some Entity.decode (room - 1)) [] entities⟩

/-- Decodes the options of scanning. -/
def ScanOptions.decode (room : Nat) (written : Written) : Option ScanOptions := do
  let [duplicates, maxDepth] ← fields? ["duplicate_includes", "max_depth"] room written | none
  some {
    duplicates := ← orDefault (word? DuplicatePolicy.ofWord? (room - 1)) .merge duplicates
    maxDepth := ← orDefault nat64? 16 maxDepth }

/-- Decodes the options of planning. -/
def PlanOptions.decode (room : Nat) (written : Written) : Option PlanOptions := do
  let [aggregates] ← fields? ["aggregate_order"] room written | none
  some ⟨← orDefault (word? AggregateStyle.ofWord? (room - 1)) .legacy aggregates⟩

namespace Config

/-- Decodes a configuration. -/
def decode (room : Nat) (written : Written) : Option Config := do
  let [schema, filters, scanning, planning] ←
    fields? ["schema", "filters", "lexer", "compiler"] room written | none
  some {
    schema := ← orDefault (Schema.decode (room - 1)) {} schema
    filters := ← orDefault (table? some Spec.decode (room - 1)) [] filters
    scanning := ← orDefault (ScanOptions.decode (room - 1)) {} scanning
    planning := ← orDefault (PlanOptions.decode (room - 1)) {} planning }

/-- The configuration with the names of its entities filled in. -/
def fillNames (config : Config) : Config :=
  { config with schema := config.schema.fillNames }

/-- Reads a configuration. -/
def ofText (text : String) : Except ConfigError Config :=
  match (Written.read? text).bind (decode maxNesting) with
  | some config => .ok config.fillNames
  | none => .error .malformed

/-- Reads a configuration from the contents of its file, if that could be read. -/
def ofFile (contents : Option ByteArray) : Except ConfigError Config :=
  match contents.bind String.fromUTF8? with
  | some text => ofText text
  | none => .error .unreadable

end Config

end QueryGate
