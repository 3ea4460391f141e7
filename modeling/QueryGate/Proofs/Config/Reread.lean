import Mathlib
import QueryGate.Config.Printer
import QueryGate.Proofs.Config.Sound
import QueryGate.Proofs.Json.Decode
import QueryGate.Proofs.Json.Text

/-!
# Configurations that are read again

What is printed of a configuration is read as that configuration, unless it nests deeper than any
text may that is read. The printed text nests deeper than the text that was read may have done,
since all defaults are printed.
-/

namespace QueryGate

open Text Written
open Json (depthMembers)

variable {α : Type} {part? : (room : Nat) → Written → Option α} {image : α → Json}

/-! ### Tables with names -/

theorem named_text (key : String) : some (id key) = some key := rfl

theorem decodes_ofTable {rows : Table String α} (sorted : Table.Sorted rows)
    (each : ∀ row ∈ rows, Decodes part? (image row.2) row.2) :
    Decodes (table? some part?) (.ofTable image rows) rows :=
  decodes_table named_text sorted each

theorem decodes_clauses {rows : Table Clause α} (sorted : Table.Sorted rows)
    (each : ∀ row ∈ rows, Decodes part? (image row.2) row.2) :
    Decodes (table? Clause.ofName? part?) (namedTable Clause.name image rows) rows :=
  decodes_table Clause.ofName?_name sorted each

/-! ### Ranges and values -/

theorem Bound.decodes {bound : Bound} (sound : bound.Sound) :
    Decodes Bound.decode bound.toJson bound := by
  refine decodes_record (fun _ => rfl) (fun _ _ => rfl) (by simp) ?_
  intro room
  have min := decodes_int64 sound.1 room
  have max := decodes_int64 sound.2 room
  simp [min, max, ← ite_and]

theorem Bounds.decodes {bounds : Bounds} (sound : bounds.Sound) :
    Decodes Bounds.decode bounds.toJson bounds := by
  refine decodes_record (fun _ => rfl) (fun _ _ => rfl) (by simp) ?_
  intro room
  have attributes := decodes_ofTable sound.attributes_sorted
    (fun row member => Bound.decodes (sound.attributes row member)) room
  have clauses := decodes_clauses sound.clauses_sorted
    (fun row member => Bound.decodes (sound.clauses row member)) room
  simp [attributes, clauses, ← ite_and]

/-- The rows of forced values make these values. -/
theorem Statics.ofRows_self (statics : Statics) :
    Statics.ofRows statics.attributes statics.clauses = statics := by
  simp only [Statics.ofRows, Table.ofRows_eq_self statics.attributes_sorted,
    Table.ofRows_eq_self statics.clauses_sorted]

theorem Statics.decodes {statics : Statics} (sound : statics.All Json.Sound) :
    Decodes Statics.decode statics.toJson statics := by
  refine decodes_record (fun _ => rfl) (fun _ _ => rfl) (by simp) ?_
  intro room
  have eachAttribute : ∀ row ∈ statics.attributes, Decodes json? (id row.2) row.2 :=
    fun row member => decodes_json (sound.attributes row member)
  have eachClause : ∀ row ∈ statics.clauses, Decodes json? (id row.2) row.2 :=
    fun row member => decodes_json (sound.clauses row member)
  have attributes : Decodes (rows? some json?) (.ofTable id statics.attributes)
      statics.attributes := decodes_rows named_text eachAttribute
  have clauses : Decodes (rows? Clause.ofName? json?) (namedTable Clause.name id statics.clauses)
      statics.clauses := decodes_rows Clause.ofName?_name eachClause
  simp [attributes room, clauses room, ← ite_and, ofRows_self]

/-! ### Specifications -/

namespace Spec

theorem toJsonRows_eq_map (rows : List (String × Spec)) :
    toJsonRows rows = rows.map fun row => (id row.1, row.2.toJson) := by
  induction rows with
  | nil => rfl
  | cons row rest hypothesis =>
      rw [toJsonRows, hypothesis]
      rfl

/-- The specifications in a specification are those of a table one level further down. -/
theorem decode_succ (room : Nat) (written : Written) :
    decode (room + 1) written = decodeWith (table? some decode room) room written := by
  cases room <;> rfl

theorem decodes_attributes (names : List String) :
    Decodes (list? fun _ => text?) (.array (names.map .string)) names :=
  decodes_list fun name _ => decodes_text name

theorem decodes_clauses (clauses : List Clause) :
    Decodes (list? Clause.decode) (.array ((clauses.map Clause.name).map .string)) clauses := by
  have each : Decodes (list? Clause.decode) (.array _) clauses :=
    decodes_list fun clause _ => decodes_word Clause.ofName?_name clause
  rw [List.map_map]
  exact each

mutual

theorem decodes : ∀ {spec : Spec}, spec.Sound → Decodes Spec.decode spec.toJson spec
  | ⟨attributes, clauses, includes, bounds, statics⟩, ⟨sound, below⟩ => by
      refine decodes_record (fun _ => rfl) decode_succ (by simp) ?_
      intro room
      have names : orNull (list? (fun _ => text?) room)
          (some (ofJson (attributes.elim .null Json.strings))) =
            if (attributes.elim Json.null Json.strings).depth ≤ room then some attributes
            else none :=
        orNull_of_decodes decodes_attributes attributes room
      have permitted : orNull (list? Clause.decode room)
          (some (ofJson (clauses.elim .null clausesToJson))) =
            if (clauses.elim Json.null clausesToJson).depth ≤ room then some clauses else none :=
        orNull_of_decodes decodes_clauses clauses room
      have rows : Decodes (table? some Spec.decode) (.object (toJsonRows includes)) includes := by
        rw [toJsonRows_eq_map]
        exact decodes_table named_text sound.includes_sorted (decodes_rows below)
      have ranges := Bounds.decodes sound.bounds room
      have forced := Statics.decodes sound.statics room
      simp [names, permitted, rows room, ranges, forced, ← ite_and]

theorem decodes_rows : ∀ {rows : List (String × Spec)}, EveryRow IsSound rows →
    ∀ row ∈ rows, Decodes Spec.decode row.2.toJson row.2
  | [], _ => nofun
  | _ :: _, sound => List.forall_mem_cons.mpr ⟨decodes sound.1, decodes_rows sound.2⟩

end

end Spec

/-! ### Schemas and options -/

theorem Relation.decodes (relation : Relation) :
    Decodes Relation.decode relation.toJson relation := by
  refine decodes_record (fun _ => rfl) (fun _ _ => rfl) (by simp) ?_
  intro room
  have cardinality := decodes_word Cardinality.ofWord?_word relation.cardinality room
  have name := decodes_text relation.name room
  have target := decodes_text relation.target room
  simp [Cardinality.decode, name, cardinality, target, ← ite_and]

theorem Entity.decodes (entity : Entity) : Decodes Entity.decode entity.toJson entity := by
  refine decodes_record (fun _ => rfl) (fun _ _ => rfl) (by simp) ?_
  intro room
  have name := decodes_text entity.name room
  have attributes : Decodes (list? fun _ => text?) (.strings entity.attributes) entity.attributes :=
    Spec.decodes_attributes entity.attributes
  have relations : Decodes (list? Relation.decode) (.array _) entity.relations :=
    decodes_list fun relation _ => relation.decodes
  simp [name, attributes room, relations room, ← ite_and]

theorem Schema.decodes {schema : Schema} (sorted : Table.Sorted schema.entities) :
    Decodes Schema.decode schema.toJson schema := by
  refine decodes_record (fun _ => rfl) (fun _ _ => rfl) (by simp) ?_
  intro room
  have entities := decodes_ofTable sorted (fun row _ => row.2.decodes) room
  simp [entities]

theorem ScanOptions.decodes (options : ScanOptions) :
    Decodes ScanOptions.decode options.toJson options := by
  refine decodes_record (fun _ => rfl) (fun _ _ => rfl) (by simp) ?_
  intro room
  have duplicates := decodes_word DuplicatePolicy.ofWord?_word options.duplicates room
  have depth := decodes_nat64 options.maxDepth room
  simp [duplicates, depth, ← ite_and]

theorem PlanOptions.decodes (options : PlanOptions) :
    Decodes PlanOptions.decode options.toJson options := by
  refine decodes_record (fun _ => rfl) (fun _ _ => rfl) (by simp) ?_
  intro room
  have aggregates := decodes_word AggregateStyle.ofWord?_word options.aggregates room
  simp [aggregates]

namespace Config

theorem decodes {config : Config} (sound : config.Sound) :
    Decodes decode config.toJson config := by
  refine decodes_record (fun _ => rfl) (fun _ _ => rfl) (by simp) ?_
  intro room
  have schema := Schema.decodes sound.entities_sorted room
  have filters : Decodes (table? some Spec.decode) (.object (Spec.toJsonRows config.filters))
      config.filters := by
    rw [Spec.toJsonRows_eq_map]
    exact decodes_table named_text sound.filters_sorted
      fun row member => Spec.decodes (sound.filters row member)
  have scanning := config.scanning.decodes room
  have planning := config.planning.decodes room
  simp [schema, filters room, scanning, planning, ← ite_and]

end Config

/-! ### Numbers -/

namespace Json

theorem legible_of_fitsInt64 {value : Int} (fits : fitsInt64 value = true) :
    (int value).Legible := by
  simp only [fitsInt64, Bool.and_eq_true, decide_eq_true_eq] at fits
  obtain ⟨least, greatest⟩ := fits
  have wider : greatestInt64 ≤ greatestNat64 := by decide
  exact ⟨least, Int.le_trans greatest wider⟩

theorem legible_nat {value : Nat} (greatest : value ≤ greatestNat64) : (nat value).Legible :=
  ⟨by simp only [leastInt64]; omega, Int.ofNat_le.mpr greatest⟩

theorem legible_string (value : String) : (string value).Legible := trivial

theorem legible_strings (items : List String) : (strings items).Legible :=
  legible_array_iff.mpr <| List.forall_mem_map.mpr fun _ _ => trivial

theorem legible_ofTable {rows : Table String α} (each : ∀ row ∈ rows, (image row.2).Legible) :
    (ofTable image rows).Legible :=
  legible_object_iff.mpr (List.forall_mem_map.mpr each)

theorem legible_namedTable {rows : Table Clause α} (each : ∀ row ∈ rows, (image row.2).Legible) :
    (namedTable Clause.name image rows).Legible :=
  legible_object_iff.mpr (List.forall_mem_map.mpr each)

end Json

open Json

theorem Bound.legible {bound : Bound} (sound : bound.Sound) : bound.toJson.Legible := by
  simp [Bound.toJson, legible_object_iff, legible_of_fitsInt64 sound.1,
    legible_of_fitsInt64 sound.2]

theorem Bounds.legible {bounds : Bounds} (sound : bounds.Sound) : bounds.toJson.Legible := by
  have attributes := legible_ofTable fun row member => Bound.legible (sound.attributes row member)
  have clauses := legible_namedTable fun row member => Bound.legible (sound.clauses row member)
  simp [Bounds.toJson, legible_object_iff, attributes, clauses]

theorem Statics.legible {statics : Statics} (sound : statics.All Json.Sound)
    (whole : statics.All Json.Whole) : statics.toJson.Legible := by
  have attributes : (ofTable id statics.attributes).Legible :=
    legible_ofTable fun row member =>
      Json.Sound.legible (sound.attributes row member) (whole.attributes row member)
  have clauses : (namedTable Clause.name id statics.clauses).Legible :=
    legible_namedTable fun row member =>
      Json.Sound.legible (sound.clauses row member) (whole.clauses row member)
  simp [Statics.toJson, legible_object_iff, attributes, clauses]

namespace Spec

/-- A field that may be null holds no numbers if it holds none otherwise. -/
theorem legible_elim {β : Type} {field : Option β} {image : β → Json}
    (each : ∀ value, (image value).Legible) : (field.elim .null image).Legible := by
  cases field with
  | none => trivial
  | some value => exact each value

mutual

theorem legible : ∀ {spec : Spec}, spec.Sound → spec.Whole → spec.toJson.Legible
  | ⟨attributes, clauses, includes, bounds, statics⟩, ⟨sound, below⟩, ⟨whole, belowWhole⟩ => by
      have names : (attributes.elim .null strings).Legible := legible_elim legible_strings
      have permitted : (clauses.elim .null clausesToJson).Legible :=
        legible_elim fun clauses => legible_strings (clauses.map Clause.name)
      have rows : (object (toJsonRows includes)).Legible := legible_rows below belowWhole
      have ranges : bounds.toJson.Legible := Bounds.legible sound.bounds
      have forced : statics.toJson.Legible := Statics.legible sound.statics whole
      simp [toJson, legible_object_iff, names, permitted, rows, ranges, forced]

theorem legible_rows : ∀ {rows : List (String × Spec)}, EveryRow IsSound rows →
    EveryRow (fun part => part.statics.All Json.Whole) rows → (object (toJsonRows rows)).Legible
  | [], _, _ => ⟨trivial, trivial⟩
  | _ :: _, sound, whole =>
      ⟨trivial, legible sound.1 whole.1, (legible_rows sound.2 whole.2).2⟩

end

end Spec

theorem Relation.legible (relation : Relation) : relation.toJson.Legible :=
  legible_object_iff.mpr <| by simp [Json.legible_string]

theorem Entity.legible (entity : Entity) : entity.toJson.Legible := by
  have relations : (array (entity.relations.map Relation.toJson)).Legible :=
    legible_array_iff.mpr (List.forall_mem_map.mpr fun relation _ => relation.legible)
  simp [Entity.toJson, legible_object_iff, legible_string, legible_strings, relations]

namespace Config

theorem legible {config : Config} (sound : config.Sound) (whole : config.Whole) :
    config.toJson.Legible := by
  have entities : (ofTable Entity.toJson config.schema.entities).Legible :=
    legible_ofTable fun row _ => row.2.legible
  have filters : (object (Spec.toJsonRows config.filters)).Legible :=
    Spec.legible_rows (Spec.everyRow_iff.mpr sound.filters) (Spec.everyRow_iff.mpr whole)
  have schema : config.schema.toJson.Legible := by
    simp [Schema.toJson, single, legible_object_iff, entities]
  have scanning : config.scanning.toJson.Legible := by
    simp [ScanOptions.toJson, legible_object_iff, legible_string, legible_nat sound.maxDepth]
  have planning : config.planning.toJson.Legible := by
    simp [PlanOptions.toJson, single, legible_object_iff, legible_string]
  simp [Config.toJson, legible_object_iff, schema, filters, scanning, planning]

/-- What is printed of a configuration reads as it, if the names of its entities are filled in, and
unless it nests too deep. -/
theorem ofText_printed {config : Config} (sound : config.Sound) (whole : config.Whole)
    (filled : config.fillNames = config) :
    ofText config.toJson.compact =
      if config.toJson.depth ≤ maxNesting then .ok config else .error .malformed := by
  rw [ofText, read?_compact (legible sound whole), Option.bind_some, decodes sound maxNesting]
  by_cases fits : config.toJson.depth ≤ maxNesting
  · simp only [if_pos fits, filled]
  · simp only [if_neg fits]

/-- A configuration whose entities have names, or that was read, is read again from what is printed
of it, if no double is forced and if what is printed nests no deeper than a text may that is read.
Otherwise the printed text is not read at all. -/
theorem ofText_compact {config : Config} (whole : config.Whole)
    (given : config.Sound ∧ config.Named ∨ ∃ text, ofText text = .ok config) :
    ofText config.toJson.compact =
      if config.toJson.depth ≤ maxNesting then .ok config else .error .malformed := by
  obtain ⟨sound, named⟩ | ⟨text, read⟩ := given
  · exact ofText_printed sound whole (fillNames_of_named named)
  · obtain ⟨sound, filled⟩ := sound_of_ofText read
    exact ofText_printed sound whole filled

/-- Posts as they are written without a name. -/
def postsText : String :=
  "\x7b\"schema\":\x7b\"entities\":\x7b\"posts\":\x7b\x7d\x7d\x7d\x7d"

/-- Posts under a stated name, whose identifiers are forced to a list; and posts that are read
without a name. -/
theorem ofText_compact_posts :
    ∃ config other : Config, config.Sound ∧ config.Named ∧ config.Whole ∧ other.Whole ∧
      ofText postsText = .ok other ∧
      ofText config.toJson.compact = .ok config ∧ ofText other.toJson.compact = .ok other := by
  let spec : Spec :=
    { clauses := some [.limit]
      statics := .ofRows [("id", .array [.null, .int (-7)])] [(.limit, .string "3")] }
  let config : Config :=
    { schema := ⟨[("posts", { name := "articles", attributes := ["id"] })]⟩
      filters := [("posts", spec)] }
  have named : config.Named := by simp [Named, config]
  have whole : config.Whole := by
    refine List.forall_mem_singleton.mpr ⟨Statics.all_ofRows ?_ ?_, trivial⟩
    · exact List.forall_mem_singleton.mpr ⟨trivial, trivial, trivial, trivial⟩
    · exact List.forall_mem_singleton.mpr trivial
  have sound : config.Sound := by
    refine ⟨List.pairwise_singleton _ _, List.pairwise_singleton _ _, ?_, by decide⟩
    refine List.forall_mem_singleton.mpr ⟨⟨.nil, Bounds.sound_empty, ?_⟩, trivial⟩
    refine Statics.all_ofRows ?_ ?_
    · exact List.forall_mem_singleton.mpr ⟨trivial, trivial, ⟨by decide, by decide⟩, trivial⟩
    · exact List.forall_mem_singleton.mpr trivial
  let other : Config := { schema := ⟨[("posts", { name := "posts" })]⟩ }
  have read : ofText postsText = .ok other := by cbv
  have otherWhole : other.Whole := by simp [Whole, other]
  have fits : config.toJson.depth ≤ maxNesting := by cbv
  have otherFits : other.toJson.depth ≤ maxNesting := by cbv
  refine ⟨config, other, sound, named, whole, otherWhole, read, ?_, ?_⟩
  · rw [ofText_compact whole (.inl ⟨sound, named⟩), if_pos fits]
  · rw [ofText_compact otherWhole (.inr ⟨_, read⟩), if_pos otherFits]

end Config

/-- Arrays in one another. -/
def Json.nested : Nat → Json
  | 0 => .null
  | levels + 1 => .array [nested levels]

theorem Json.depth_nested (levels : Nat) : (nested levels).depth = levels := by
  induction levels with
  | zero => rfl
  | succ levels hypothesis => simp [nested, depth, depthItems, hypothesis]

theorem Json.every_nested {holds : Json → Prop} (null : holds .null)
    (array : ∀ items, holds (.array items)) (levels : Nat) : (nested levels).Every holds := by
  induction levels with
  | zero => exact null
  | succ levels hypothesis => exact ⟨array _, hypothesis, trivial⟩

namespace Config

/-- A configuration is deeper than what its filters force. -/
theorem depth_lt_of_forced {config : Config} {entity name : String} {spec : Spec} {value : Json}
    (filtered : (entity, spec) ∈ config.filters)
    (forced : (name, value) ∈ spec.statics.attributes) :
    value.depth < config.toJson.depth := by
  have inStatics : value.depth < spec.statics.toJson.depth :=
    calc
      value.depth < (ofTable id spec.statics.attributes).depth :=
        depth_lt_object name (List.mem_map_of_mem forced)
      _ < spec.statics.toJson.depth := depth_lt_object "attributes" List.mem_cons_self
  have inSpec : spec.statics.toJson.depth < spec.toJson.depth := by
    obtain ⟨attributes, clauses, includes, bounds, statics⟩ := spec
    exact depth_lt_object "statics" (by simp)
  have inConfig : spec.toJson.depth < config.toJson.depth :=
    calc
      spec.toJson.depth < (object (Spec.toJsonRows config.filters)).depth := by
        rw [Spec.toJsonRows_eq_map]
        exact depth_lt_object entity (List.mem_map_of_mem filtered)
      _ < config.toJson.depth := depth_lt_object "filters" (by simp)
  exact Nat.lt_trans inStatics (Nat.lt_trans inSpec inConfig)

/-- A list is forced that nests deeper than a text may that is read. -/
theorem exists_unread :
    ∃ config : Config, config.Sound ∧ config.Named ∧ config.Whole ∧
      ofText config.toJson.compact = .error .malformed := by
  let spec : Spec := { statics := .ofRows [("id", .nested 128)] [] }
  let config : Config :=
    { schema := ⟨[("posts", { name := "posts", attributes := ["id"] })]⟩
      filters := [("posts", spec)] }
  have named : config.Named := by simp [Named, config]
  have whole : config.Whole := by
    refine List.forall_mem_singleton.mpr ⟨Statics.all_ofRows ?_ (by simp), trivial⟩
    exact List.forall_mem_singleton.mpr (Json.every_nested trivial (fun _ => trivial) 128)
  have sound : config.Sound := by
    refine ⟨List.pairwise_singleton _ _, List.pairwise_singleton _ _, ?_, by decide⟩
    refine List.forall_mem_singleton.mpr ⟨⟨.nil, Bounds.sound_empty, ?_⟩, trivial⟩
    refine Statics.all_ofRows ?_ (by simp)
    exact List.forall_mem_singleton.mpr (Json.every_nested trivial (fun _ => trivial) 128)
  have deep : (Json.nested 128).depth < config.toJson.depth :=
    depth_lt_of_forced List.mem_cons_self (List.mem_singleton_self ("id", Json.nested 128))
  have exceeds : ¬ config.toJson.depth ≤ maxNesting := by
    rw [Json.depth_nested] at deep
    simp only [maxNesting]
    omega
  refine ⟨config, sound, named, whole, ?_⟩
  rw [ofText_printed sound whole (fillNames_of_named named), if_neg exceeds]

end Config

end QueryGate
