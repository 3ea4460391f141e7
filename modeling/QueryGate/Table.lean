/-!
# Ordered tables

A table is a list of rows whose keys rise strictly. Every map that an answer can
show is one, so the order in which its rows come out is part of its meaning.

Types that contain tables of themselves spell the list of rows out, because a
nested inductive type does not see through an abbreviation.
-/

namespace QueryGate

universe u v w

/-- Rows of a key and its value, in strictly rising order of the keys. -/
abbrev Table (κ : Type u) (α : Type v) := List (κ × α)

namespace Table

variable {κ : Type u} {α : Type v} {β : Type w}

/-- The value that a key has in the table. -/
def get? [BEq κ] (rows : Table κ α) (key : κ) : Option α :=
  rows.lookup key

@[simp] theorem get?_nil [BEq κ] (key : κ) : get? ([] : Table κ α) key = none := rfl

theorem get?_cons [BEq κ] (row : κ × α) (rest : Table κ α) (key : κ) :
    get? (row :: rest) key = if key == row.1 then some row.2 else get? rest key := by
  rw [get?, List.lookup_cons]
  cases key == row.1 <;> rfl

theorem get?_eq_none_iff [BEq κ] [LawfulBEq κ] {rows : Table κ α} {key : κ} :
    get? rows key = none ↔ ∀ row ∈ rows, row.1 ≠ key := by
  induction rows with
  | nil => simp
  | cons row rest hypothesis =>
      rw [get?_cons, List.forall_mem_cons, ← hypothesis]
      by_cases same : key = row.1
      · simp [same]
      · simp [same, Ne.symm same]

/-- What is found under a key is one of the rows. -/
theorem mem_of_get? [BEq κ] [LawfulBEq κ] {rows : Table κ α} {key : κ} {value : α}
    (found : get? rows key = some value) : (key, value) ∈ rows := by
  induction rows with
  | nil => cases found
  | cons row rest hypothesis =>
      rw [get?_cons] at found
      split at found
      · rename_i same
        cases found
        rw [eq_of_beq same]
        exact List.mem_cons_self
      · exact List.mem_cons_of_mem _ (hypothesis found)

/-- What stands under a key is not changed when rows of other keys go. -/
theorem get?_filter [BEq κ] [LawfulBEq κ] (keep : κ → Bool) (rows : Table κ α) (key : κ) :
    get? (rows.filter fun row => keep row.1) key = if keep key then get? rows key else none := by
  induction rows with
  | nil => simp
  | cons row rest hypothesis =>
      rw [List.filter_cons, get?_cons]
      by_cases same : key = row.1
      · subst same
        split
        · simp [get?_cons]
        · rename_i dropped
          rw [hypothesis, if_neg dropped]
      · split
        · simp [get?_cons, same, hypothesis]
        · simp [same, hypothesis]

/-- Removes the row of a key. -/
def erase [BEq κ] (rows : Table κ α) (key : κ) : Table κ α :=
  rows.filter fun row => row.1 != key

/-- The keys, in order. -/
def keys (rows : Table κ α) : List κ :=
  rows.map Prod.fst

/-- Changes each value and keeps the keys. -/
def mapValues (image : α → β) (rows : Table κ α) : Table κ β :=
  rows.map fun row => (row.1, image row.2)

theorem get?_mapValues [BEq κ] (image : α → β) (rows : Table κ α) (key : κ) :
    get? (mapValues image rows) key = (get? rows key).map image := by
  induction rows with
  | nil => rfl
  | cons row rest hypothesis =>
      rw [mapValues, List.map_cons, get?_cons, get?_cons]
      split
      · rfl
      · exact hypothesis

theorem isSome_get?_iff [BEq κ] [LawfulBEq κ] {rows : Table κ α} {key : κ} :
    (get? rows key).isSome ↔ key ∈ keys rows := by
  induction rows with
  | nil => simp [keys]
  | cons row rest hypothesis =>
      rw [get?_cons, keys, List.map_cons, List.mem_cons, ← keys, ← hypothesis]
      by_cases same : key = row.1
      · simp [same]
      · simp [same]

variable [Ord κ]

/-- The rows rise strictly in their keys. -/
def Sorted (rows : Table κ α) : Prop :=
  rows.Pairwise fun earlier later => compare earlier.1 later.1 = .lt

theorem sorted_iff_keys (rows : Table κ α) :
    Sorted rows ↔ rows.keys.Pairwise fun earlier later => compare earlier later = .lt := by
  rw [Sorted, keys, List.pairwise_map]

theorem sorted_mapValues {image : α → β} {rows : Table κ α} (sorted : Sorted rows) :
    Sorted (mapValues image rows) :=
  List.Pairwise.map _ (fun _ _ below => below) sorted

/-- Puts a row in its place; a row that already has the key gives way to it. -/
def insert (key : κ) (value : α) : Table κ α → Table κ α
  | [] => [(key, value)]
  | row :: rest =>
      match compare key row.1 with
      | .lt => (key, value) :: row :: rest
      | .eq => (key, value) :: rest
      | .gt => row :: insert key value rest

/-- Puts each of the given rows in its place, one after the other. -/
def override (rows : Table κ α) (upper : List (κ × α)) : Table κ α :=
  upper.foldl (fun table row => insert row.1 row.2 table) rows

/-- The table of the given rows; of two rows with one key the later counts. -/
def ofRows (rows : List (κ × α)) : Table κ α := override [] rows

theorem mem_insert {rows : Table κ α} {key : κ} {value : α} {row : κ × α}
    (member : row ∈ insert key value rows) : row = (key, value) ∨ row ∈ rows := by
  induction rows with
  | nil => simpa [insert] using member
  | cons head rest hypothesis =>
      rw [insert] at member
      split at member <;> grind

theorem insert_ne_nil (key : κ) (value : α) (rows : Table κ α) : insert key value rows ≠ [] := by
  cases rows with
  | nil => simp [insert]
  | cons row rest =>
      rw [insert]
      split <;> simp

theorem mem_or_mem_of_mem_override {rows : Table κ α} {upper : List (κ × α)} {row : κ × α}
    (member : row ∈ override rows upper) : row ∈ upper ∨ row ∈ rows := by
  induction upper generalizing rows with
  | nil => exact .inr member
  | cons first rest hypothesis =>
      rw [List.mem_cons]
      rcases hypothesis member with later | member
      · exact .inl (.inr later)
      · rcases mem_insert member with rfl | old
        · exact .inl (.inl rfl)
        · exact .inr old

/-- The rows of a table are among the given ones. -/
theorem mem_ofRows {rows : List (κ × α)} {row : κ × α} (member : row ∈ ofRows rows) :
    row ∈ rows := by
  rcases mem_or_mem_of_mem_override member with given | old
  · exact given
  · cases old

theorem ofRows_ne_nil {rows : List (κ × α)} (written : rows ≠ []) : ofRows rows ≠ [] := by
  rw [← List.dropLast_concat_getLast written, ofRows, override, List.foldl_append]
  exact insert_ne_nil _ _ _

section Laws

open Std

variable [LawfulEqOrd κ]

/-- After an insertion the key has the new value and the others have theirs. -/
theorem get?_insert [BEq κ] [LawfulBEq κ] (rows : Table κ α) (key other : κ) (value : α) :
    get? (insert key value rows) other =
      if other == key then some value else get? rows other := by
  induction rows with
  | nil => simp [insert, get?_cons]
  | cons row rest hypothesis =>
      rw [insert]
      split
      · rw [get?_cons]
      · rename_i equal
        have same : key = row.1 := LawfulEqOrd.eq_of_compare equal
        simp only [get?_cons, ← same]
        split <;> rfl
      · rename_i above
        have different : key ≠ row.1 := by
          rintro rfl
          simp at above
        rw [get?_cons, hypothesis, get?_cons]
        by_cases first : other = row.1
        · subst first
          simp [different.symm]
        · simp [first]

/-- Insertion keeps the order of the keys. -/
theorem sorted_insert [TransOrd κ] {rows : Table κ α} (sorted : Sorted rows) (key : κ) (value : α) :
    Sorted (insert key value rows) := by
  induction rows with
  | nil => simp [insert, Sorted]
  | cons row rest hypothesis =>
      rcases List.pairwise_cons.mp sorted with ⟨before, sortedRest⟩
      rw [insert]
      split
      · rename_i below
        refine List.pairwise_cons.mpr ⟨?_, sorted⟩
        intro later member
        rcases List.mem_cons.mp member with rfl | member
        · exact below
        · exact TransCmp.lt_trans below (before later member)
      · rename_i equal
        have same : key = row.1 := LawfulEqOrd.eq_of_compare equal
        exact List.pairwise_cons.mpr ⟨same ▸ before, sortedRest⟩
      · rename_i above
        refine List.pairwise_cons.mpr ⟨?_, hypothesis sortedRest⟩
        intro later member
        rcases mem_insert member with rfl | member
        · exact OrientedCmp.lt_of_gt above
        · exact before later member

theorem sorted_override [TransOrd κ] {rows : Table κ α} (sorted : Sorted rows)
    (upper : List (κ × α)) : Sorted (override rows upper) := by
  induction upper generalizing rows with
  | nil => exact sorted
  | cons row rest hypothesis => exact hypothesis (sorted_insert sorted row.1 row.2)

theorem sorted_ofRows [TransOrd κ] (rows : List (κ × α)) : Sorted (ofRows rows) :=
  sorted_override .nil rows

omit [LawfulEqOrd κ] in
theorem sorted_erase [BEq κ] {rows : Table κ α} (sorted : Sorted rows) (key : κ) :
    Sorted (erase rows key) :=
  List.Pairwise.filter _ sorted

/-- In a table a row is found under its key. -/
theorem get?_eq_some_iff_mem [BEq κ] [LawfulBEq κ] {rows : Table κ α} (sorted : Sorted rows)
    (key : κ) (value : α) : get? rows key = some value ↔ (key, value) ∈ rows := by
  induction rows with
  | nil => simp
  | cons row rest hypothesis =>
      rcases List.pairwise_cons.mp sorted with ⟨before, sortedRest⟩
      rw [get?_cons, List.mem_cons]
      by_cases same : key = row.1
      · subst same
        simp only [beq_self_eq_true, ↓reduceIte, Option.some.injEq]
        constructor
        · intro equal
          exact .inl (by rw [← equal])
        · rintro (equal | later)
          · rw [← equal]
          · exact absurd (before _ later) (by simp)
      · simp only [beq_iff_eq, same, ↓reduceIte, hypothesis sortedRest]
        constructor
        · exact .inr
        · rintro (equal | later)
          · exact absurd (congrArg Prod.fst equal) same
          · exact later

/-- A key that is below those of all rows has none. -/
theorem get?_eq_none_of_before [BEq κ] [LawfulBEq κ] {rows : Table κ α} {key : κ}
    (before : ∀ row ∈ rows, compare key row.1 = .lt) : get? rows key = none := by
  rw [get?_eq_none_iff]
  intro row member equal
  have below := before row member
  rw [equal] at below
  simp at below

/-- A key that has a row in the overriding table has the value of that row. -/
theorem get?_override [BEq κ] [LawfulBEq κ] {upper : Table κ α} (sorted : Sorted upper)
    (rows : Table κ α) (key : κ) :
    get? (override rows upper) key = (get? upper key).or (get? rows key) := by
  induction upper generalizing rows with
  | nil => rfl
  | cons row rest hypothesis =>
      rcases List.pairwise_cons.mp sorted with ⟨before, sortedRest⟩
      have folded : override rows (row :: rest) = override (insert row.1 row.2 rows) rest := rfl
      rw [folded, hypothesis sortedRest, get?_insert, get?_cons]
      by_cases same : key = row.1
      · have absent : get? rest key = none := same ▸ get?_eq_none_of_before before
        rw [absent, same]
        simp
      · simp [same]

theorem mem_override_iff [TransOrd κ] [BEq κ] [LawfulBEq κ] {rows upper : Table κ α}
    (sorted : Sorted rows) (sortedUpper : Sorted upper) (row : κ × α) :
    row ∈ override rows upper ↔ row ∈ upper ∨ row ∈ rows ∧ get? upper row.1 = none := by
  have found : row ∈ override rows upper ↔
      (get? upper row.1).or (get? rows row.1) = some row.2 := by
    rw [← get?_override sortedUpper, get?_eq_some_iff_mem (sorted_override sorted upper)]
  rw [found, Option.or_eq_some_iff, get?_eq_some_iff_mem sorted,
    get?_eq_some_iff_mem sortedUpper]
  constructor
  · rintro (given | ⟨absent, old⟩)
    · exact .inl given
    · exact .inr ⟨old, absent⟩
  · rintro (given | ⟨old, absent⟩)
    · exact .inl given
    · exact .inr ⟨absent, old⟩

/-- Tables with the same values under all keys are the same. -/
theorem ext [TransOrd κ] [BEq κ] [LawfulBEq κ] {rows others : Table κ α} (sorted : Sorted rows)
    (sortedOthers : Sorted others) (same : ∀ key, get? rows key = get? others key) :
    rows = others := by
  induction rows generalizing others with
  | nil =>
      cases others with
      | nil => rfl
      | cons other later => simpa [get?_cons] using same other.1
  | cons row rest hypothesis =>
      cases others with
      | nil => simpa [get?_cons] using same row.1
      | cons other later =>
          obtain ⟨before, sortedRest⟩ := List.pairwise_cons.mp sorted
          obtain ⟨beforeOther, sortedLater⟩ := List.pairwise_cons.mp sortedOthers
          -- Neither of the first keys can be below the other: it would have no value there.
          have sameKey : row.1 = other.1 := by
            cases order : compare row.1 other.1 with
            | eq => exact LawfulEqOrd.eq_of_compare order
            | lt =>
                have absent : get? (other :: later) row.1 = none := by
                  apply get?_eq_none_of_before
                  intro found member
                  rcases List.mem_cons.mp member with rfl | member
                  · exact order
                  · exact TransCmp.lt_trans order (beforeOther found member)
                have present := same row.1
                simp [absent, get?_cons] at present
            | gt =>
                have below := OrientedCmp.lt_of_gt order
                have absent : get? (row :: rest) other.1 = none := by
                  apply get?_eq_none_of_before
                  intro found member
                  rcases List.mem_cons.mp member with rfl | member
                  · exact below
                  · exact TransCmp.lt_trans below (before found member)
                have present := same other.1
                simp [absent, get?_cons] at present
          have sameValue : row.2 = other.2 := by
            simpa [get?_cons, sameKey] using same other.1
          have sameRest : rest = later := by
            apply hypothesis sortedRest sortedLater
            intro key
            by_cases first : key = row.1
            · subst first
              rw [get?_eq_none_of_before before, get?_eq_none_of_before]
              intro found member
              rw [sameKey]
              exact beforeOther found member
            · simpa [get?_cons, first, sameKey ▸ first] using same key
          rw [sameRest, Prod.ext sameKey sameValue]

/-- The rows of a table make that table. -/
theorem ofRows_eq_self [TransOrd κ] [BEq κ] [LawfulBEq κ] {rows : Table κ α}
    (sorted : Sorted rows) : ofRows rows = rows := by
  apply ext (sorted_ofRows rows) sorted
  intro key
  rw [ofRows, get?_override sorted, get?_nil, Option.or_none]

/-- An insertion into the overriding table is one into the overridden table. -/
theorem override_insert [TransOrd κ] [BEq κ] [LawfulBEq κ] {rows upper : Table κ α}
    (sorted : Sorted rows) (sortedUpper : Sorted upper) (key : κ) (value : α) :
    override rows (insert key value upper) = insert key value (override rows upper) := by
  apply ext (sorted_override sorted _) (sorted_insert (sorted_override sorted upper) key value)
  intro other
  rw [get?_override (sorted_insert sortedUpper key value), get?_insert, get?_insert,
    get?_override sortedUpper]
  split <;> rfl

end Laws

end Table

end QueryGate
