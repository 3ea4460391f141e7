import QueryGate.Json.Decode
import QueryGate.Proofs.Json.Every
import QueryGate.Proofs.Result

/-!
# What is decoded from a text

Whatever is read from a text holds integers of 64 bits only, and what is decoded from it is a value
of its type: integers within their ranges, tables in order.
-/

namespace QueryGate

open Text

/-- The integers that numerals denote fit into 64 bits. -/
theorem Number.isSound_of_ofNumeral? {numeral : Numeral} {number : Number}
    (denoted : ofNumeral? numeral = some number) : (Json.number number).IsSound := by
  rw [ofNumeral?] at denoted
  cases found : numeral.int? with
  | none =>
      rw [found] at denoted
      obtain ⟨double, -, rfl⟩ := Option.map_eq_some_iff.mp denoted
      trivial
  | some integer =>
      rw [found] at denoted
      cases denoted
      rw [Numeral.int?] at found
      split at found
      · split at found
        · simp only [Option.ite_none_right_eq_some, fitsInt64, greatestInt64, Bool.and_eq_true,
            decide_eq_true_eq] at found
          obtain ⟨⟨positive, least, greatest⟩, same⟩ := found
          cases same
          exact ⟨least, by omega⟩
        · simp only [Option.ite_none_right_eq_some, fitsNat64, decide_eq_true_eq] at found
          obtain ⟨greatest, same⟩ := found
          cases same
          refine ⟨?_, by omega⟩
          simp only [leastInt64]
          omega
      · cases found

namespace Written

mutual

/-- All integers that are written fit into 64 bits. -/
def Sound : Written → Prop
  | null | bool _ | string _ | number none => True
  | number (some value) => (Json.number value).IsSound
  | array items => SoundItems items
  | object members => SoundMembers members

def SoundItems : List Written → Prop
  | [] => True
  | item :: rest => item.Sound ∧ SoundItems rest

def SoundMembers : List (Option String × Written) → Prop
  | [] => True
  | (_, value) :: rest => value.Sound ∧ SoundMembers rest

end

variable {α κ : Type}

theorem soundItems_iff {items : List Written} : SoundItems items ↔ ∀ item ∈ items, item.Sound := by
  induction items with
  | nil => simp [SoundItems]
  | cons item rest hypothesis => rw [SoundItems, hypothesis, List.forall_mem_cons]

theorem soundMembers_iff {members : List (Option String × Written)} :
    SoundMembers members ↔ ∀ member ∈ members, member.2.Sound := by
  induction members with
  | nil => simp [SoundMembers]
  | cons member rest hypothesis => rw [SoundMembers, hypothesis, List.forall_mem_cons]

mutual

theorem sound_of_readValue : ∀ {fuel : Nat} {text rest : List Char} {written : Written},
    readValue fuel text = some (written, rest) → written.Sound
  | 0, _, _, _, read => by cases read
  | fuel + 1, text, rest, written, read => by
      rw [readValue] at read
      split at read
      · obtain ⟨_, -, same⟩ := Option.bind_eq_some_iff.mp read
        cases same
        trivial
      · split at read
        · cases read
          trivial
        · obtain ⟨_, found, same⟩ := Option.bind_eq_some_iff.mp read
          cases same
          exact sound_of_readItems found
      · split at read
        · cases read
          trivial
        · obtain ⟨_, found, same⟩ := Option.bind_eq_some_iff.mp read
          cases same
          exact sound_of_readMembers found
      iterate 3
        · obtain ⟨_, -, same⟩ := Option.map_eq_some_iff.mp read
          cases same
          trivial
      · obtain ⟨⟨numeral, _⟩, -, same⟩ := Option.bind_eq_some_iff.mp read
        cases same
        cases denoted : Number.ofNumeral? numeral with
        | none => trivial
        | some number => exact Number.isSound_of_ofNumeral? denoted

theorem sound_of_readItems : ∀ {fuel : Nat} {text rest : List Char} {items : List Written},
    readItems fuel text = some (items, rest) → SoundItems items
  | 0, _, _, _, read => by cases read
  | fuel + 1, text, rest, items, read => by
      rw [readItems] at read
      obtain ⟨⟨item, behind⟩, first, read⟩ := Option.bind_eq_some_iff.mp read
      have sound := sound_of_readValue first
      simp only at read
      split at read
      · obtain ⟨_, later, same⟩ := Option.bind_eq_some_iff.mp read
        cases same
        exact ⟨sound, sound_of_readItems later⟩
      · cases read
        exact ⟨sound, trivial⟩
      · cases read

theorem sound_of_readMembers : ∀ {fuel : Nat} {text rest : List Char}
    {members : List (Option String × Written)},
    readMembers fuel text = some (members, rest) → SoundMembers members
  | 0, _, _, _, read => by cases read
  | fuel + 1, text, rest, members, read => by
      rw [readMembers] at read
      split at read
      · obtain ⟨_, -, read⟩ := Option.bind_eq_some_iff.mp read
        simp only at read
        split at read
        · obtain ⟨⟨item, behind⟩, first, read⟩ := Option.bind_eq_some_iff.mp read
          have sound := sound_of_readValue first
          simp only at read
          split at read
          · obtain ⟨_, later, same⟩ := Option.bind_eq_some_iff.mp read
            cases same
            exact ⟨sound, sound_of_readMembers later⟩
          · cases read
            exact ⟨sound, trivial⟩
          · cases read
        · cases read
      · cases read

end

/-- Whatever a text is read as, its integers fit into 64 bits. -/
theorem sound_of_read? {text : String} {written : Written} (read : read? text = some written) :
    written.Sound := by
  obtain ⟨⟨found, _⟩, readValue, same⟩ := Option.bind_eq_some_iff.mp read
  simp only [Option.ite_none_right_eq_some] at same
  cases same.2
  exact sound_of_readValue readValue

/-! ### Decoded values -/

/-- What the decoder makes of a value as written has the property. -/
def Yields (decode : Written → Option α) (holds : α → Prop) : Prop :=
  ∀ written value, written.Sound → decode written = some value → holds value

variable {holds : α → Prop} {part? : (room : Nat) → Written → Option α}

theorem yields_int64 : Yields int64? fun value => fitsInt64 value = true := by
  rintro written value - decoded
  cases written with
  | number value =>
      rcases value with _ | _ | _
      · cases decoded
      · simp only [int64?, Option.ite_none_right_eq_some] at decoded
        obtain ⟨fits, same⟩ := decoded
        cases same
        exact fits
      · cases decoded
  | _ => cases decoded

theorem yields_nat64 : Yields nat64? fun value => value ≤ greatestNat64 := by
  rintro written value sound decoded
  cases written with
  | number value =>
      rcases value with _ | integer | _
      · cases decoded
      · simp only [nat64?, Option.ite_none_right_eq_some] at decoded
        obtain ⟨natural, same⟩ := decoded
        cases same
        have greatest : integer ≤ greatestNat64 := sound.2
        omega
      · cases decoded
  | _ => cases decoded

mutual

theorem sound_of_json? (room : Nat) : ∀ {written : Written} {value : Json}, written.Sound →
    json? room written = some value → value.Sound
  | null, _, _, decoded | bool _, _, _, decoded | number none, _, _, decoded
  | string none, _, _, decoded | string (some _), _, _, decoded => by
      cases decoded <;> trivial
  | number (some _), _, sound, decoded => by
      cases decoded
      exact sound
  | array items, _, sound, decoded => by
      cases room with
      | zero => cases decoded
      | succ room =>
          obtain ⟨decodedItems, found, rfl⟩ := Option.map_eq_some_iff.mp decoded
          exact ⟨trivial, sound_of_jsonItems? room sound found⟩
  | object members, _, sound, decoded => by
      cases room with
      | zero => cases decoded
      | succ room =>
          obtain ⟨rows, found, rfl⟩ := Option.map_eq_some_iff.mp decoded
          refine Json.every_object_iff.mpr ⟨Table.sorted_ofRows rows, ?_⟩
          intro member given
          exact Json.everyMember_iff.mp (sound_of_jsonMembers? room sound found) member
            (Table.mem_ofRows given)

theorem sound_of_jsonItems? (room : Nat) : ∀ {items : List Written} {values : List Json},
    SoundItems items → jsonItems? room items = some values → Json.EveryItem Json.IsSound values
  | [], _, _, decoded => by
      cases decoded
      trivial
  | item :: rest, _, sound, decoded => by
      obtain ⟨value, first, decoded⟩ := Option.bind_eq_some_iff.mp decoded
      obtain ⟨values, later, same⟩ := Option.bind_eq_some_iff.mp decoded
      cases same
      exact ⟨sound_of_json? room sound.1 first, sound_of_jsonItems? room sound.2 later⟩

theorem sound_of_jsonMembers? (room : Nat) : ∀ {members : List (Option String × Written)}
    {rows : List (String × Json)}, SoundMembers members →
    jsonMembers? room members = some rows → Json.EveryMember Json.IsSound rows
  | [], _, _, decoded => by
      cases decoded
      trivial
  | (name, item) :: rest, _, sound, decoded => by
      obtain ⟨_, -, decoded⟩ := Option.bind_eq_some_iff.mp decoded
      obtain ⟨value, first, decoded⟩ := Option.bind_eq_some_iff.mp decoded
      obtain ⟨values, later, same⟩ := Option.bind_eq_some_iff.mp decoded
      cases same
      exact ⟨sound_of_json? room sound.1 first, sound_of_jsonMembers? room sound.2 later⟩

end

theorem yields_json (room : Nat) : Yields (json? room) Json.Sound :=
  fun _ _ sound decoded => sound_of_json? room sound decoded

/-- What is decoded item by item is decoded from some item. -/
theorem exists_of_mem_decoded {β γ : Type} {decode : β → Option γ} {items : List β}
    {values : List γ} (decoded : items.mapM decode = some values) {value : γ}
    (member : value ∈ values) : ∃ item ∈ items, decode item = some value := by
  induction items generalizing values with
  | nil =>
      cases decoded
      cases member
  | cons item rest hypothesis =>
      rw [List.mapM_cons] at decoded
      obtain ⟨head, first, decoded⟩ := Option.bind_eq_some_iff.mp decoded
      obtain ⟨tail, later, same⟩ := Option.bind_eq_some_iff.mp decoded
      cases same
      obtain rfl | member := List.mem_cons.mp member
      · exact ⟨item, List.mem_cons_self, first⟩
      · obtain ⟨other, given, found⟩ := hypothesis later member
        exact ⟨other, List.mem_cons_of_mem _ given, found⟩

/-- Members are decoded one by one. -/
theorem yields_members {name? : String → Option κ} {value? : Written → Option α}
    (each : Yields value? holds) :
    Yields (members? name? value?) fun rows => ∀ row ∈ rows, holds row.2 := by
  rintro written rows sound decoded
  cases written with
  | object members =>
      intro row member
      obtain ⟨⟨name, value⟩, given, found⟩ := exists_of_mem_decoded decoded member
      simp only [Option.bind_eq_bind, Option.bind_eq_some_iff] at found
      obtain ⟨_, -, _, -, decodedValue, found, same⟩ := found
      cases same
      exact each value decodedValue (soundMembers_iff.mp sound _ given) found
  | _ => cases decoded

theorem yields_rows {name? : String → Option κ} (each : ∀ room, Yields (part? room) holds)
    (room : Nat) : Yields (rows? name? part? room) fun rows => ∀ row ∈ rows, holds row.2 := by
  cases room with
  | zero => exact fun _ _ _ decoded => by cases decoded
  | succ room => exact yields_members (each room)

theorem yields_table [Ord κ] [Std.TransOrd κ] [Std.LawfulEqOrd κ] {name? : String → Option κ}
    (each : ∀ room, Yields (part? room) holds) (room : Nat) :
    Yields (table? name? part? room) fun rows =>
      Table.Sorted rows ∧ ∀ row ∈ rows, holds row.2 := by
  intro written table sound decoded
  obtain ⟨rows, found, rfl⟩ := Option.map_eq_some_iff.mp decoded
  refine ⟨Table.sorted_ofRows rows, ?_⟩
  intro row member
  exact yields_rows each room written rows sound found row (Table.mem_ofRows member)

theorem yields_orDefault {value? : Written → Option α} (each : Yields value? holds) {default : α}
    (given : holds default) {field : Option Written} (sound : ∀ written ∈ field, written.Sound)
    {value : α} (decoded : orDefault value? default field = some value) : holds value := by
  cases field with
  | none =>
      cases decoded
      exact given
  | some written => exact each written value (sound written rfl) decoded

/-- The values of the fields of a record that was read were read themselves. -/
theorem sound_of_fields? {names : List String} {room : Nat} {written : Written}
    {fields : List (Option Written)} (sound : written.Sound)
    (found : fields? names room written = some fields) :
    ∀ field ∈ fields, ∀ value ∈ field, value.Sound := by
  intro field member value given
  cases given
  cases room with
  | zero => cases found
  | succ room =>
      cases written with
      | object members =>
          simp only [fields?, Option.ite_none_right_eq_some] at found
          obtain ⟨name, -, read⟩ := exists_of_mem_decoded found.2 member
          rw [field?] at read
          split at read
          · cases read
          · rename_i stated alone
            cases read
            have within : stated ∈ members.filter fun row => row.1 == some name := by
              rw [alone]
              exact List.mem_cons_self
            exact soundMembers_iff.mp sound stated (List.mem_of_mem_filter within)
          · cases read
      | array items =>
          simp only [fields?, Option.ite_none_right_eq_some] at found
          obtain ⟨-, same⟩ := found
          cases same
          obtain member | member := List.mem_append.mp member
          · obtain ⟨item, within, same⟩ := List.mem_map.mp member
            cases same
            exact soundItems_iff.mp sound _ within
          · cases (List.mem_replicate.mp member).2
      | _ => cases found

/-- A record is built from its fields. -/
theorem yields_record {names : List String} {room : Nat} {build : List (Option Written) → Option α}
    (built : ∀ fields value, (∀ field ∈ fields, ∀ written ∈ field, written.Sound) →
      build fields = some value → holds value) :
    Yields (fun written => (fields? names room written).bind build) holds := by
  intro written value sound decoded
  obtain ⟨fields, found, made⟩ := Option.bind_eq_some_iff.mp decoded
  exact built fields value (sound_of_fields? sound found) made

end Written

end QueryGate
