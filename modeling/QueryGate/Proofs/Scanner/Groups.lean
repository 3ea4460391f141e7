import Mathlib
import QueryGate.Proofs.Scanner.Writing

/-!
# Groups side by side

A group of conditions is a parameter without a name. It is kept under the word of its connective,
whatever word it was written with, so that of several groups of one connective a query keeps the
last one.
-/

namespace QueryGate

open Control

theorem Connective.word_injective : Function.Injective Connective.word := by
  intro joining other same
  have found := congrArg Connective.ofWord? same
  simpa using found

/-! ### The last rows of their keys -/

/-- The item is the last one of its kind. -/
def Lasts {α κ : Type} (kind : α → κ) (items : List α) (item : α) : Prop :=
  ∃ before after, items = before ++ item :: after ∧ ∀ later ∈ after, kind later ≠ kind item

namespace Lasts

variable {α κ : Type} {kind : α → κ} {items : List α} {item other : α}

theorem mem (lasts : Lasts kind items item) : item ∈ items := by
  obtain ⟨before, after, rfl, -⟩ := lasts
  simp

theorem exists_of_ne_nil (written : items ≠ []) : ∃ item, Lasts kind items item :=
  ⟨items.getLast written, items.dropLast, [], (List.dropLast_concat_getLast written).symm, by simp⟩

/-- Where all items are of different kinds, each is the last one of its kind. -/
theorem of_nodup (distinct : (items.map kind).Nodup) (member : item ∈ items) :
    Lasts kind items item := by
  obtain ⟨before, after, rfl⟩ := List.append_of_mem member
  refine ⟨before, after, rfl, ?_⟩
  intro later inAfter same
  rw [List.map_append, List.map_cons] at distinct
  have fresh := (List.nodup_cons.mp distinct.of_append_right).1
  exact fresh (same ▸ List.mem_map_of_mem inAfter)

theorem concat_iff : Lasts kind (items ++ [other]) item ↔
    item = other ∨ Lasts kind items item ∧ kind other ≠ kind item := by
  constructor
  · rintro ⟨before, after, split, later⟩
    cases after using List.reverseRecOn with
    | nil => exact .inl (by simpa using (List.append_inj_right' split rfl).symm)
    | append_singleton after last _ =>
        rw [← List.cons_append, ← List.append_assoc] at split
        have parts := List.append_inj' split rfl
        have same : other = last := by simpa using parts.2
        rw [List.forall_mem_append, List.forall_mem_singleton, ← same] at later
        exact .inr ⟨⟨before, after, parts.1, later.1⟩, later.2⟩
  · rintro (rfl | ⟨⟨before, after, rfl, later⟩, different⟩)
    · exact ⟨items, [], rfl, by simp⟩
    · refine ⟨before, after ++ [other], by simp, ?_⟩
      rw [List.forall_mem_append, List.forall_mem_singleton]
      exact ⟨later, different⟩

theorem map_iff {β : Type} {image : α → β} {kind : β → κ} {found : β} :
    Lasts kind (items.map image) found ↔
      ∃ item, Lasts (kind ∘ image) items item ∧ image item = found := by
  constructor
  · rintro ⟨before, after, split, later⟩
    obtain ⟨first, rest, rfl, rfl, tail⟩ := List.map_eq_append_iff.mp split
    obtain ⟨item, last, rfl, rfl, rfl⟩ := List.map_eq_cons_iff.mp tail
    exact ⟨item, ⟨first, last, rfl, by simpa using later⟩, rfl⟩
  · rintro ⟨item, ⟨before, after, rfl, later⟩, rfl⟩
    exact ⟨before.map image, after.map image, by simp, by simpa using later⟩

theorem comp_iff {σ : Type} {name : κ → σ} (injective : Function.Injective name) :
    Lasts (name ∘ kind) items item ↔ Lasts kind items item := by
  simp only [Lasts, Function.comp_apply, injective.ne_iff]

end Lasts

/-- The rows of a table that is made of rows are the last ones of their keys. -/
theorem Table.mem_ofRows_iff {α : Type} {rows : List (String × α)} {row : String × α} :
    row ∈ Table.ofRows rows ↔ Lasts Prod.fst rows row := by
  induction rows using List.reverseRecOn with
  | nil =>
      constructor
      · rintro ⟨⟩
      · intro lasts
        cases lasts.mem
  | append_singleton rows last hypothesis =>
      have folded : Table.ofRows (rows ++ [last]) =
          Table.insert last.1 last.2 (Table.ofRows rows) := by
        rw [Table.ofRows, Table.override, List.foldl_append]
        rfl
      have sorted := Table.sorted_ofRows rows
      rw [folded, Lasts.concat_iff, ← hypothesis,
        ← Table.get?_eq_some_iff_mem (Table.sorted_insert sorted last.1 last.2),
        Table.get?_insert, ← Table.get?_eq_some_iff_mem sorted]
      by_cases same : row.1 = last.1
      · have pair : row = last ↔ last.2 = row.2 :=
          ⟨fun equal => by rw [equal], fun equal => Prod.ext same equal.symm⟩
        simp [same, pair]
      · have other : row ≠ last := fun equal => same (by rw [equal])
        simp [same, other, Ne.symm same]

/-! ### Groups in a query -/

/-- A text that is read as a group is a parameter by itself, by whatever word it begins. -/
theorem exists_writes_of_readGroup {text : List Char} {joining : Connective}
    {expression : Expression} (read : readGroup 0 text = .ok (joining, expression)) :
    ∃ limit edits, Nests limit edits ∧
      Writes text (edits ++ [.assign [] (.predicate joining.word expression)]) := by
  have whole := read
  rw [readGroup_eq, bind_eq_ok_iff] at read
  obtain ⟨call?, found, read⟩ := read
  cases call? with
  | none => cases read
  | some call =>
      simp only [bind_eq_ok_iff, pure_eq_ok_iff, Prod.mk.injEq] at read
      obtain ⟨_, -, _, -, rfl, -⟩ := read
      obtain ⟨word, rfl, word?, -, depth, balanced⟩ := Call.called_of_read found
      obtain ⟨edits, nests, writes⟩ :=
        exists_writes_called (Connective.isName_of_ofWord? word?) word? balanced whole
      exact ⟨depth + 1, edits, nests, writes⟩

/-- Brackets that are counted in a text that is accepted are not too many. -/
theorem nests_of_applyAll {options : ScanOptions} {limit : Nat} {edits later : List Edit}
    {request result : Request} (nests : Nests limit edits)
    (applied : Edit.applyAll options request (edits ++ later) = some result) :
    Nests options.maxDepth edits := by
  induction edits with
  | nil => exact .nil _
  | cons edit rest hypothesis =>
      rw [Nests, List.forall_mem_cons] at nests
      obtain ⟨⟨depth, inner, -, rfl⟩, others⟩ := nests
      rw [List.cons_append, Edit.applyAll_cons, Edit.apply] at applied
      split at applied
      · cases applied
      · rename_i fits
        rw [Nests, List.forall_mem_cons]
        exact ⟨⟨depth, inner, by omega, rfl⟩, hypothesis others applied⟩

/-- A text that makes a request of a blank root is scanned into that request. -/
theorem exists_scan_of_turns {options : ScanOptions} {text : String} {edits : List Edit}
    {room : Nat} {result : Request} (writes : Writes text.toList edits)
    (turns : Edit.Turns options edits room (.blank 0 Request.rootName) result)
    (fits : room ≤ options.maxDepth) :
    ∃ request, scan options text = .ok request ∧ request.unnumbered = result := by
  have root : (Request.blank 0 Request.rootName).at? [] = some (.blank 0 Request.rootName) := rfl
  have applied := turns.applied (.blank 0 Request.rootName) root (by simpa using fits)
  rw [funext Edit.under_nil, List.map_id', Request.update, Request.put_of_name turns.name]
    at applied
  exact exists_scan_of_applyAll writes applied

/-- A group that is accepted as a whole query. -/
structure ScannedGroup (options : ScanOptions) where
  text : String
  joining : Connective
  expression : Expression
  request : Request
  read : readGroup 0 text.toList = .ok (joining, expression)
  scanned : scan options text = .ok request

/-- The request that has nothing but predicates. -/
def Request.ofPredicates (predicates : Table String Expression) : Request :=
  ⟨0, rootName, { predicates := predicates }, []⟩

namespace ScannedGroup

variable {options : ScanOptions}

/-- What a query with the group says under the word of its connective. -/
def row (group : ScannedGroup options) : String × Expression :=
  (group.joining.word, group.expression)

/-- The query in which groups stand side by side. -/
def query (groups : List (ScannedGroup options)) : String :=
  "&".intercalate (groups.map text)

theorem exists_writes (group : ScannedGroup options) :
    ∃ edits, Nests options.maxDepth edits ∧
      Writes group.text.toList (edits ++ [.assign [] (.predicate group.row.1 group.row.2)]) := by
  obtain ⟨_, edits, nests, writes⟩ := exists_writes_of_readGroup group.read
  exact ⟨edits, nests_of_applyAll nests (applyAll_of_scan writes group.scanned), writes⟩

/-- A query of groups has nothing but the last group of each connective. -/
theorem exists_scan_query (groups : List (ScannedGroup options)) :
    ∃ request, scan options (query groups) = .ok request ∧
      request.unnumbered = .ofPredicates (Table.ofRows (groups.map row)) := by
  have builds : Builds options 0 (groups.map fun group => group.text.toList)
      (.blank 0 Request.rootName) (.ofPredicates (Table.ofRows (groups.map row))) := by
    have folded := Builds.foldl_predicates {} (groups.map row)
    rw [List.foldl_map] at folded
    have same : Table.ofRows (groups.map row) = Table.override [] (groups.map row) := rfl
    rw [same, Request.ofPredicates, ← folded]
    apply Builds.changes
    intro group _
    exact group.exists_writes
  obtain ⟨edits, writes, turns⟩ := builds.exists_writes
  apply exists_scan_of_turns _ turns (Nat.zero_le _)
  rwa [query, String.toList_intercalate, List.map_map]

end ScannedGroup

end QueryGate
