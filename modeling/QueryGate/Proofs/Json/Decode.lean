import QueryGate.Json.Decode
import QueryGate.Proofs.Json.Every

/-!
# Decoding what has been written

A decoder decodes a JSON value as a value of a type: it does so when the value has no more levels
than are allowed, and otherwise decodes nothing. What a decoder of a part decodes, a decoder of a
list, of a table or of a record made of such parts decodes as well.
-/

namespace QueryGate.Written

open Json (depthItems depthMembers)

variable {α κ : Type}

theorem ofItems_eq_map (items : List Json) : ofItems items = items.map ofJson := by
  induction items with
  | nil => rfl
  | cons item rest hypothesis => rw [ofItems, hypothesis, List.map_cons]

theorem ofMembers_eq_map (members : List (String × Json)) :
    ofMembers members = members.map fun member => (some member.1, ofJson member.2) := by
  induction members with
  | nil => rfl
  | cons member rest hypothesis => rw [ofMembers, hypothesis, List.map_cons]

/-- The decoder makes the value of the JSON value if there are levels enough, and nothing
otherwise. -/
def Decodes (decode : (room : Nat) → Written → Option α) (json : Json) (value : α) : Prop :=
  ∀ room, decode room (ofJson json) = if json.depth ≤ room then some value else none

/-- Items are decoded one by one, if each fits. -/
theorem mapM_eq_ite {β γ : Type} {decode : β → Option γ} (fits : β → Prop) [DecidablePred fits]
    (value : β → γ) {items : List β}
    (each : ∀ item ∈ items, decode item = if fits item then some (value item) else none) :
    items.mapM decode =
      if ∀ item ∈ items, fits item then some (items.map value) else none := by
  induction items with
  | nil => rfl
  | cons item rest hypothesis =>
      rw [List.forall_mem_cons] at each
      rw [List.mapM_cons, each.1, hypothesis each.2]
      simp only [List.forall_mem_cons]
      by_cases first : fits item
      · by_cases later : ∀ item ∈ rest, fits item
        · simp only [first, true_and, if_pos later]
          rfl
        · simp only [first, true_and, if_neg later]
          rfl
      · simp only [first, false_and, if_false]
        rfl

/-! ### Lists and tables -/

section Parts

variable {part? : (room : Nat) → Written → Option α} {image : α → Json}

theorem decodes_list {items : List α} (each : ∀ item ∈ items, Decodes part? (image item) item) :
    Decodes (list? part?) (.array (items.map image)) items := by
  intro room
  cases room with
  | zero => rfl
  | succ room =>
      have decoded := mapM_eq_ite (fun item => (image item).depth ≤ room) id
        fun item member => each item member room
      rw [list?, ofJson, items?, ofItems_eq_map, List.map_map, List.mapM_map]
      simp only [List.map_id] at decoded
      simpa [Json.depth, Json.depthItems_le_iff, Function.comp_def] using decoded

theorem members?_of_decodes {name? : String → Option κ} {name : κ → String} {rows : List (κ × α)}
    (named : ∀ key, name? (name key) = some key)
    (each : ∀ row ∈ rows, Decodes part? (image row.2) row.2) (room : Nat) :
    members? name? (part? room)
        (ofJson (.object (rows.map fun row => (name row.1, image row.2)))) =
      if depthMembers (rows.map fun row => (name row.1, image row.2)) ≤ room then some rows
      else none := by
  have eachRow : ∀ row ∈ rows,
      (do some (← name? (name row.1), ← part? room (ofJson (image row.2)))) =
        if (image row.2).depth ≤ room then some row else none := by
    intro row member
    rw [named, each row member room]
    by_cases fits : (image row.2).depth ≤ room <;> simp [fits]
  have decoded := mapM_eq_ite (fun row : κ × α => (image row.2).depth ≤ room) id eachRow
  have depth : depthMembers (rows.map fun row => (name row.1, image row.2)) ≤ room ↔
      ∀ row ∈ rows, (image row.2).depth ≤ room := by
    rw [Json.depthMembers_le_iff, List.forall_mem_map]
  rw [ofJson, members?, ofMembers_eq_map, List.map_map, List.mapM_map]
  simp only [List.map_id] at decoded
  simp only [depth]
  simpa [Function.comp_def] using decoded

theorem decodes_rows {name? : String → Option κ} {name : κ → String} {rows : List (κ × α)}
    (named : ∀ key, name? (name key) = some key)
    (each : ∀ row ∈ rows, Decodes part? (image row.2) row.2) :
    Decodes (rows? name? part?) (.object (rows.map fun row => (name row.1, image row.2))) rows := by
  intro room
  rw [Json.depth]
  cases room with
  | zero => rfl
  | succ room =>
      rw [rows?, members?_of_decodes named each]
      simp only [Nat.add_le_add_iff_right]

theorem decodes_table [Ord κ] [Std.TransOrd κ] [Std.LawfulEqOrd κ] [BEq κ] [LawfulBEq κ]
    {name? : String → Option κ} {name : κ → String} {rows : Table κ α}
    (named : ∀ key, name? (name key) = some key) (sorted : Table.Sorted rows)
    (each : ∀ row ∈ rows, Decodes part? (image row.2) row.2) :
    Decodes (table? name? part?) (.object (rows.map fun row => (name row.1, image row.2)))
      rows := by
  intro room
  rw [table?, decodes_rows named each room]
  split
  · rw [Option.map_some, Table.ofRows_eq_self sorted]
  · rfl

end Parts

/-! ### Single values -/

theorem decodes_text (value : String) : Decodes (fun _ => text?) (.string value) value :=
  fun _ => rfl

theorem decodes_word {meaning? : String → Option α} {word : α → String}
    (means : ∀ value, meaning? (word value) = some value) (value : α) :
    Decodes (word? meaning?) (.string (word value)) value := by
  intro room
  change word? meaning? room (.string (some (word value))) = some value
  rw [word?, Option.bind_some, means]

theorem decodes_int64 {value : Int} (fits : Text.fitsInt64 value) :
    Decodes (fun _ => int64?) (.int value) value := by
  intro room
  change (if Text.fitsInt64 value then some value else none) = some value
  rw [if_pos fits]

theorem decodes_nat64 (value : Nat) : Decodes (fun _ => nat64?) (.nat value) value := by
  intro room
  change (if 0 ≤ (value : Int) then some (value : Int).toNat else none) = some value
  rw [if_pos (Int.natCast_nonneg value), Int.toNat_natCast]

mutual

theorem decodes_json : ∀ {value : Json}, value.Sound → Decodes json? value value
  | .null, _, _ | .bool _, _, _ | .number _, _, _ | .string _, _, _ | .array _, _, 0
  | .object _, _, 0 => rfl
  | .array items, sound, room + 1 => by
      rw [ofJson, json?, jsonItems?_of_sound sound.2, Json.depth]
      by_cases fits : depthItems items ≤ room <;> simp [fits]
  | .object members, sound, room + 1 => by
      have sorted : Table.Sorted members := sound.1
      rw [ofJson, json?, jsonMembers?_of_sound sound.2, Json.depth]
      by_cases fits : depthMembers members ≤ room <;> simp [fits, Table.ofRows_eq_self sorted]

theorem jsonItems?_of_sound : ∀ {items : List Json} {room : Nat},
    Json.EveryItem Json.IsSound items →
    jsonItems? room (ofItems items) = if depthItems items ≤ room then some items else none
  | [], _, _ => rfl
  | item :: rest, room, sound => by
      have first := decodes_json sound.1 room
      rw [ofItems, jsonItems?, first, jsonItems?_of_sound sound.2, depthItems]
      simp only [Nat.max_le]
      by_cases fits : item.depth ≤ room <;> by_cases later : depthItems rest ≤ room <;>
        simp [fits, later]

theorem jsonMembers?_of_sound : ∀ {members : List (String × Json)} {room : Nat},
    Json.EveryMember Json.IsSound members →
    jsonMembers? room (ofMembers members) =
      if depthMembers members ≤ room then some members else none
  | [], _, _ => rfl
  | (name, value) :: rest, room, sound => by
      have first := decodes_json sound.1 room
      rw [ofMembers, jsonMembers?, first, jsonMembers?_of_sound sound.2, depthMembers]
      simp only [Nat.max_le]
      by_cases fits : value.depth ≤ room <;> by_cases later : depthMembers rest ≤ room <;>
        simp [fits, later]

end

/-! ### Records -/

section Records

variable {members : List (String × Json)}

@[simp] theorem depthMembers_cons_le_iff {name : String} {value : Json} {room : Nat} :
    depthMembers ((name, value) :: members) ≤ room ↔
      value.depth ≤ room ∧ depthMembers members ≤ room :=
  Nat.max_le

@[simp] theorem depthMembers_nil_le (room : Nat) : depthMembers [] ≤ room := Nat.zero_le room

@[simp] theorem orDefault_some (decode : Written → Option α) (default : α) (written : Written) :
    orDefault decode default (some written) = decode written := rfl

/-- What is bound to a value that fits goes on with it. -/
@[simp] theorem bind_ite {β : Type} (fits : Prop) [Decidable fits] (value : α)
    (next : α → Option β) :
    ((if fits then some value else none) >>= next) = if fits then next value else none := by
  split <;> rfl

theorem field?_of_mem (distinct : (members.map Prod.fst).Nodup) {member : String × Json}
    (given : member ∈ members) :
    field? (ofMembers members) member.1 = some (some (ofJson member.2)) := by
  obtain ⟨before, after, rfl⟩ := List.append_of_mem given
  rw [List.map_append, List.map_cons, List.nodup_append, List.nodup_cons] at distinct
  obtain ⟨-, ⟨notAfter, -⟩, notBefore⟩ := distinct
  -- No other member has the name, neither before this one nor behind it.
  have filtered :
      (ofMembers (before ++ member :: after)).filter (fun row => row.1 == some member.1) =
        [(some member.1, ofJson member.2)] := by
    simp only [ofMembers_eq_map, List.map_append, List.map_cons, List.filter_append]
    rw [List.filter_cons_of_pos (by simp), List.filter_eq_nil_iff.mpr, List.filter_eq_nil_iff.mpr,
      List.nil_append]
    · intro row given
      obtain ⟨other, within, rfl⟩ := List.mem_map.mp given
      have different : other.1 ≠ member.1 := by
        intro same
        exact notAfter (same ▸ List.mem_map_of_mem within)
      simpa using different
    · intro row given
      obtain ⟨other, within, rfl⟩ := List.mem_map.mp given
      have different : other.1 ≠ member.1 :=
        notBefore _ (List.mem_map_of_mem within) _ List.mem_cons_self
      simpa using different
  rw [field?, filtered]

theorem fields?_object (distinct : (members.map Prod.fst).Nodup) (room : Nat) :
    fields? (members.map Prod.fst) (room + 1) (ofJson (.object members)) =
      some (members.map fun member => some (ofJson member.2)) := by
  have texts : (ofMembers members).all (fun member => member.1.isSome) = true := by
    simp [ofMembers_eq_map]
  have each : ∀ member ∈ members, (field? (ofMembers members) ∘ Prod.fst) member =
      if True then some (some (ofJson member.2)) else none :=
    fun member given => field?_of_mem distinct given
  rw [ofJson, fields?, if_pos texts, List.mapM_map, mapM_eq_ite _ _ each]
  simp

/-- A record is decoded from its fields, one level further down. -/
theorem decodes_record {decode : (room : Nat) → Written → Option α}
    {build : (room : Nat) → List (Option Written) → Option α} {value : α}
    (full : ∀ written, decode 0 written = none)
    (shape : ∀ room written, decode (room + 1) written =
      (fields? (members.map Prod.fst) (room + 1) written).bind (build room))
    (distinct : (members.map Prod.fst).Nodup)
    (built : ∀ room, build room (members.map fun member => some (ofJson member.2)) =
      if depthMembers members ≤ room then some value else none) :
    Decodes decode (.object members) value := by
  intro room
  rw [Json.depth]
  cases room with
  | zero => exact full _
  | succ room =>
      rw [shape, fields?_object distinct, Option.bind_some, built]
      simp only [Nat.add_le_add_iff_right]

/-- A field that may be null is decoded from null or from a list. -/
theorem orNull_of_decodes {decode : (room : Nat) → Written → Option α} {image : α → List Json}
    (each : ∀ value, Decodes decode (.array (image value)) value) (field : Option α) (room : Nat) :
    orNull (decode room) (some (ofJson (field.elim .null fun value => .array (image value)))) =
      if (field.elim Json.null fun value => .array (image value)).depth ≤ room then some field
      else none := by
  cases field with
  | none => rfl
  | some value =>
      change (decode room (ofJson (.array (image value)))).map some = _
      rw [each value room, Option.elim_some]
      by_cases fits : (Json.array (image value)).depth ≤ room <;> simp [fits]

end Records

end QueryGate.Written
