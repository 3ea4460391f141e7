import QueryGate.Config.Reader
import QueryGate.Proofs.Json.Sound

/-!
# Configurations that can be

The values that a configuration holds are values of their types: integers fit into 64 bits, tables
are in order, and so is every JSON value that is forced. Of every configuration that is read this is
so, and the names of its entities are filled in.
-/

namespace QueryGate

open Text Written

/-- Both ends of the range fit into 64 bits. -/
def Bound.Sound (bound : Bound) : Prop :=
  fitsInt64 bound.min = true ∧ fitsInt64 bound.max = true

/-- The tables of ranges are in order, and the ranges are sound. -/
structure Bounds.Sound (bounds : Bounds) : Prop where
  attributes_sorted : Table.Sorted bounds.attributes
  clauses_sorted : Table.Sorted bounds.clauses
  attributes : ∀ row ∈ bounds.attributes, row.2.Sound
  clauses : ∀ row ∈ bounds.clauses, row.2.Sound

/-- All values that are forced have the property. -/
structure Statics.All (holds : Json → Prop) (statics : Statics) : Prop where
  attributes : ∀ row ∈ statics.attributes, holds row.2
  clauses : ∀ row ∈ statics.clauses, holds row.2

theorem Bounds.sound_empty : ({} : Bounds).Sound := ⟨.nil, .nil, nofun, nofun⟩

theorem Statics.all_none (holds : Json → Prop) : Statics.none.All holds := ⟨nofun, nofun⟩

theorem Statics.all_ofRows {holds : Json → Prop} {attributes : List (String × Json)}
    {clauses : List (Clause × Json)} (eachAttribute : ∀ row ∈ attributes, holds row.2)
    (eachClause : ∀ row ∈ clauses, holds row.2) :
    (Statics.ofRows attributes clauses).All holds :=
  ⟨fun row member => eachAttribute row (Table.mem_ofRows member),
    fun row member => eachClause row (Table.mem_ofRows member)⟩

namespace Spec

mutual

/-- The specification has a property, and so have all specifications in it. -/
def Every (holds : Spec → Prop) : Spec → Prop
  | ⟨attributes, clauses, includes, bounds, statics⟩ =>
      holds ⟨attributes, clauses, includes, bounds, statics⟩ ∧ EveryRow holds includes

/-- All specifications of several relations have the property, and so have all in them. -/
def EveryRow (holds : Spec → Prop) : List (String × Spec) → Prop
  | [] => True
  | (_, spec) :: rest => spec.Every holds ∧ EveryRow holds rest

end

/-- The table of relations is in order, and ranges and values are sound. -/
structure IsSound (spec : Spec) : Prop where
  includes_sorted : Table.Sorted spec.includes
  bounds : spec.bounds.Sound
  statics : spec.statics.All Json.Sound

/-- The specification and all specifications in it are values of their type. -/
def Sound (spec : Spec) : Prop := spec.Every IsSound

/-- No double is forced by the specification or one in it. -/
def Whole (spec : Spec) : Prop := spec.Every fun part => part.statics.All Json.Whole

theorem everyRow_iff {holds : Spec → Prop} {rows : List (String × Spec)} :
    EveryRow holds rows ↔ ∀ row ∈ rows, row.2.Every holds := by
  induction rows with
  | nil => simp [EveryRow]
  | cons row rest hypothesis => rw [EveryRow, hypothesis, List.forall_mem_cons]

end Spec

namespace Config

/-- The configuration is a value of its type. -/
structure Sound (config : Config) : Prop where
  entities_sorted : Table.Sorted config.schema.entities
  filters_sorted : Table.Sorted config.filters
  filters : ∀ row ∈ config.filters, row.2.Sound
  maxDepth : config.scanning.maxDepth ≤ greatestNat64

/-- No double is forced by any filter. -/
def Whole (config : Config) : Prop := ∀ row ∈ config.filters, row.2.Whole

/-- All entities have names of their own. -/
def Named (config : Config) : Prop := ∀ row ∈ config.schema.entities, row.2.name ≠ ""

theorem fillNames_of_named {config : Config} (named : config.Named) :
    config.fillNames = config := by
  have same : config.schema.fillNames = config.schema := by
    refine congrArg Schema.mk ((List.map_congr_left ?_).trans (List.map_id _))
    rintro ⟨key, entity⟩ given
    have stated : entity.name.isEmpty = false := by simpa using named _ given
    simp only [stated, Bool.false_eq_true, if_false, id_eq]
  rw [fillNames, same]

/-- Names are filled in only once. -/
theorem fillNames_fillNames (config : Config) : config.fillNames.fillNames = config.fillNames := by
  simp only [fillNames, Schema.fillNames, List.map_map]
  congr 2
  apply List.map_congr_left
  rintro ⟨key, entity⟩ -
  cases stated : entity.name.isEmpty with
  | false => simp only [Function.comp_apply, stated, Bool.false_eq_true, if_false]
  | true => simp only [Function.comp_apply, stated, if_true, ite_self]

end Config

/-! ### What is decoded -/

theorem Bound.yields (room : Nat) : Yields (Bound.decode room) Bound.Sound := by
  apply yields_record
  intro fields bound sounds built
  split at built
  · simp only [Option.bind_eq_bind, Option.bind_eq_some_iff] at built
    obtain ⟨low, decodedMin, high, decodedMax, same⟩ := built
    cases same
    simp only [List.forall_mem_cons] at sounds
    obtain ⟨min, max, -⟩ := sounds
    exact ⟨yields_int64 _ _ (min _ rfl) decodedMin, yields_int64 _ _ (max _ rfl) decodedMax⟩
  · cases built

theorem Bounds.yields (room : Nat) : Yields (Bounds.decode room) Bounds.Sound := by
  apply yields_record
  intro fields bounds sounds built
  split at built
  · simp only [Option.bind_eq_bind, Option.bind_eq_some_iff] at built
    obtain ⟨_, decodedAttributes, _, decodedClauses, same⟩ := built
    cases same
    simp only [List.forall_mem_cons] at sounds
    obtain ⟨attributes, clauses, -⟩ := sounds
    have first := yields_orDefault (yields_table Bound.yields _) ⟨.nil, by simp⟩ attributes
      decodedAttributes
    have second := yields_orDefault (yields_table Bound.yields _) ⟨.nil, by simp⟩ clauses
      decodedClauses
    exact ⟨first.1, second.1, first.2, second.2⟩
  · cases built

theorem Statics.yields (room : Nat) : Yields (Statics.decode room) (Statics.All Json.Sound) := by
  apply yields_record
  intro fields statics sounds built
  split at built
  · simp only [Option.bind_eq_bind, Option.bind_eq_some_iff] at built
    obtain ⟨_, decodedAttributes, _, decodedClauses, same⟩ := built
    cases same
    simp only [List.forall_mem_cons] at sounds
    obtain ⟨attributes, clauses, -⟩ := sounds
    have first := yields_orDefault (yields_rows yields_json _) (by simp) attributes
      decodedAttributes
    have second := yields_orDefault (yields_rows yields_json _) (by simp) clauses
      decodedClauses
    exact Statics.all_ofRows first second
  · cases built

namespace Spec

theorem yields_decodeWith {includes? : Written → Option (List (String × Spec))}
    (each : Yields includes? fun rows => Table.Sorted rows ∧ ∀ row ∈ rows, row.2.Sound)
    (room : Nat) : Yields (decodeWith includes? room) Spec.Sound := by
  apply yields_record
  intro fields spec sounds built
  split at built
  · simp only [Option.bind_eq_bind, Option.bind_eq_some_iff] at built
    obtain ⟨_, -, _, -, _, decodedIncludes, _, decodedBounds, _, decodedStatics, same⟩ := built
    cases same
    simp only [List.forall_mem_cons] at sounds
    obtain ⟨-, -, includes, bounds, statics, -⟩ := sounds
    have below := yields_orDefault each ⟨.nil, by simp⟩ includes decodedIncludes
    have ranges := yields_orDefault (Bounds.yields room) Bounds.sound_empty bounds
      decodedBounds
    have forced := yields_orDefault (Statics.yields room) (Statics.all_none _) statics
      decodedStatics
    exact ⟨⟨below.1, ranges, forced⟩, everyRow_iff.mpr below.2⟩
  · cases built

theorem yields : ∀ room : Nat, Yields (Spec.decode room) Spec.Sound
  | 0 => fun _ _ _ decoded => by cases decoded
  | 1 => yields_decodeWith (fun _ _ _ decoded => by cases decoded) 0
  | room + 2 => by
      apply yields_decodeWith
      rintro written table sound decoded
      obtain ⟨rows, found, rfl⟩ := Option.map_eq_some_iff.mp decoded
      refine ⟨Table.sorted_ofRows rows, ?_⟩
      intro row member
      exact yields_members (yields room) written rows sound found row (Table.mem_ofRows member)

end Spec

theorem Schema.yields (room : Nat) :
    Yields (Schema.decode room) fun schema => Table.Sorted schema.entities := by
  apply yields_record
  intro fields schema sounds built
  split at built
  · simp only [Option.bind_eq_bind, Option.bind_eq_some_iff] at built
    obtain ⟨table, decodedEntities, same⟩ := built
    cases same
    simp only [List.forall_mem_cons] at sounds
    have any : ∀ room, Yields (Entity.decode room) fun _ => True := fun _ _ _ _ _ => trivial
    exact (yields_orDefault (yields_table any _) ⟨.nil, by simp⟩ sounds.1 decodedEntities).1
  · cases built

theorem ScanOptions.yields (room : Nat) :
    Yields (ScanOptions.decode room) fun options => options.maxDepth ≤ greatestNat64 := by
  apply yields_record
  intro fields options sounds built
  split at built
  · simp only [Option.bind_eq_bind, Option.bind_eq_some_iff] at built
    obtain ⟨_, -, _, decodedDepth, same⟩ := built
    cases same
    simp only [List.forall_mem_cons] at sounds
    exact yields_orDefault yields_nat64 (by decide) sounds.2.1 decodedDepth
  · cases built

namespace Config

theorem yields (room : Nat) : Yields (decode room) Config.Sound := by
  apply yields_record
  intro fields config sounds built
  split at built
  · simp only [Option.bind_eq_bind, Option.bind_eq_some_iff] at built
    obtain ⟨_, decodedSchema, _, decodedFilters, _, decodedScanning, _, -, same⟩ := built
    cases same
    simp only [List.forall_mem_cons] at sounds
    obtain ⟨schema, filters, scanning, -⟩ := sounds
    have entities := yields_orDefault (Schema.yields _) .nil schema decodedSchema
    have specs := yields_orDefault (yields_table Spec.yields _) ⟨.nil, by simp⟩ filters
      decodedFilters
    have depth := yields_orDefault (ScanOptions.yields _) (by decide) scanning decodedScanning
    exact ⟨entities, specs.1, specs.2, depth⟩
  · cases built

/-- What is read is a value of its type, and its entities have their names. -/
theorem sound_of_ofText {text : String} {config : Config} (read : ofText text = .ok config) :
    config.Sound ∧ config.fillNames = config := by
  rw [ofText] at read
  split at read
  · rename_i decoded found
    cases read
    obtain ⟨written, readText, made⟩ := Option.bind_eq_some_iff.mp found
    obtain ⟨entities, sorted, filters, depth⟩ := yields _ _ _ (sound_of_read? readText) made
    refine ⟨⟨?_, sorted, filters, depth⟩, fillNames_fillNames decoded⟩
    have keys : Table.keys decoded.fillNames.schema.entities =
        Table.keys decoded.schema.entities := by
      simp [Table.keys, fillNames, Schema.fillNames, Function.comp_def]
    rw [Table.sorted_iff_keys] at entities ⊢
    rwa [keys]
  · cases read

end Config

end QueryGate
