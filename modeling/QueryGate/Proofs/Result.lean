import Mathlib.Data.List.Forall2
import QueryGate.Query.Brackets

/-!
# Successes of chained steps

A chain of steps that can fail succeeds exactly when each of its steps does. The
lemmas here open such chains, so that no later proof unfolds a bind.
-/

namespace QueryGate

universe u v

variable {ε : Type u} {α β : Type v}

theorem bind_eq_ok_iff {result : Except ε α} {next : α → Except ε β} {value : β} :
    result >>= next = .ok value ↔ ∃ found, result = .ok found ∧ next found = .ok value := by
  cases result <;> simp [bind, Except.bind]

theorem bind_eq_error_iff {result : Except ε α} {next : α → Except ε β} {error : ε} :
    result >>= next = .error error ↔
      result = .error error ∨ ∃ found, result = .ok found ∧ next found = .error error := by
  cases result <;> simp [bind, Except.bind]

/-- A mapped result is a failure exactly when the result is. -/
theorem map_eq_error_iff {image : α → β} {result : Except ε α} {error : ε} :
    result.map image = .error error ↔ result = .error error := by
  cases result <;> simp [Except.map]

theorem map_bind_eq {γ : Type v} {result : Except ε α} {next : α → Except ε β} {image : β → γ} :
    (result >>= next).map image = result >>= fun found => (next found).map image := by
  cases result <;> rfl

theorem bind_of_map {γ : Type v} {result : Except ε α} {image : α → γ} {next : γ → Except ε β} :
    result.map image >>= next = result >>= fun found => next (image found) := by
  cases result <;> rfl

theorem pure_eq_ok_iff {found value : α} :
    (pure found : Except ε α) = .ok value ↔ found = value := by
  simp [pure, Except.pure]

/-- A traversal succeeds exactly when it does so item by item. -/
theorem mapM_eq_ok_iff {image : α → Except ε β} {items : List α} {results : List β} :
    items.mapM image = .ok results ↔
      List.Forall₂ (fun item result => image item = .ok result) items results := by
  induction items generalizing results with
  | nil =>
      rw [List.mapM_nil, pure_eq_ok_iff, List.forall₂_nil_left_iff]
      exact eq_comm
  | cons item rest hypothesis =>
      simp only [List.mapM_cons, bind_eq_ok_iff, pure_eq_ok_iff, hypothesis,
        List.forall₂_cons_left_iff]
      constructor
      · rintro ⟨result, first, others, later, rfl⟩
        exact ⟨result, others, first, later, rfl⟩
      · rintro ⟨result, others, first, later, rfl⟩
        exact ⟨result, first, others, later, rfl⟩

/-- What is paired with an item of the second list stands in the first. -/
theorem exists_of_mem_right {related : α → β → Prop} {items : List α} {results : List β}
    (pairs : List.Forall₂ related items results) {result : β} (member : result ∈ results) :
    ∃ item ∈ items, related item result := by
  induction pairs with
  | nil => cases member
  | cons first _ hypothesis =>
      rcases List.mem_cons.mp member with rfl | member
      · exact ⟨_, List.mem_cons_self, first⟩
      · rcases hypothesis member with ⟨item, itemMember, found⟩
        exact ⟨item, List.mem_cons_of_mem _ itemMember, found⟩

theorem map_eq_map_of_pairs {γ : Type u} {image : α → γ} {other : β → γ} {items : List α}
    {results : List β}
    (pairs : List.Forall₂ (fun item result => other result = image item) items results) :
    results.map other = items.map image := by
  induction pairs with
  | nil => rfl
  | cons same _ hypothesis => rw [List.map_cons, List.map_cons, same, hypothesis]

/-- Each result of a traversal is that of one of its items. -/
theorem exists_of_mem_mapM {image : α → Except ε β} {items : List α} {results : List β}
    (traversed : items.mapM image = .ok results) {result : β} (member : result ∈ results) :
    ∃ item ∈ items, image item = .ok result :=
  exists_of_mem_right (mapM_eq_ok_iff.mp traversed) member

/-- Items can be paired with results exactly when each of them has one. -/
theorem exists_forall₂_iff {related : α → β → Prop} {items : List α} :
    (∃ results, List.Forall₂ related items results) ↔
      ∀ item ∈ items, ∃ result, related item result := by
  induction items with
  | nil => simp
  | cons item rest hypothesis =>
      rw [List.forall_mem_cons, ← hypothesis]
      constructor
      · rintro ⟨_, pairs⟩
        cases pairs with
        | cons first later => exact ⟨⟨_, first⟩, _, later⟩
      · rintro ⟨⟨result, first⟩, results, later⟩
        exact ⟨result :: results, .cons first later⟩

theorem exists_mapM_eq_ok_iff {image : α → Except ε β} {items : List α} :
    (∃ results, items.mapM image = .ok results) ↔
      ∀ item ∈ items, ∃ result, image item = .ok result := by
  simp only [mapM_eq_ok_iff, exists_forall₂_iff]

/-- A traversal fails as one of its items does. -/
theorem exists_of_mapM_eq_error {image : α → Except ε β} {items : List α} {error : ε}
    (failed : items.mapM image = .error error) : ∃ item ∈ items, image item = .error error := by
  induction items with
  | nil => cases failed
  | cons item rest hypothesis =>
      rw [List.mapM_cons, bind_eq_error_iff] at failed
      obtain first | ⟨_, -, later⟩ := failed
      · exact ⟨item, List.mem_cons_self, first⟩
      · obtain later | ⟨_, -, ended⟩ := bind_eq_error_iff.mp later
        · obtain ⟨other, member, found⟩ := hypothesis later
          exact ⟨other, List.mem_cons_of_mem _ member, found⟩
        · cases ended

/-- Checks of several items succeed exactly when each of them does. -/
theorem forM_eq_ok_iff {check : α → Except ε PUnit} {items : List α} :
    items.forM check = .ok ⟨⟩ ↔ ∀ item ∈ items, check item = .ok ⟨⟩ := by
  induction items with
  | nil => simp [pure, Except.pure]
  | cons item rest hypothesis =>
      change (check item >>= fun _ => rest.forM check) = .ok ⟨⟩ ↔ _
      rw [bind_eq_ok_iff, List.forall_mem_cons, ← hypothesis]
      constructor
      · rintro ⟨_, first, later⟩
        exact ⟨first, later⟩
      · rintro ⟨first, later⟩
        exact ⟨⟨⟩, first, later⟩

/-- Items that show the same as some sources are traversed like the sources. -/
theorem mapM_of_map_eq {κ : Type u} {σ : Type v} {read : α → Except ε β} {shows : α → κ}
    {source : σ → κ} {image : σ → β} {items : List α} {sources : List σ}
    (same : items.map shows = sources.map source)
    (each : ∀ given ∈ sources, ∀ item, shows item = source given → read item = .ok (image given)) :
    items.mapM read = .ok (sources.map image) := by
  induction sources generalizing items with
  | nil =>
      rw [List.map_nil, List.map_eq_nil_iff] at same
      rw [same]
      rfl
  | cons given rest hypothesis =>
      obtain ⟨item, others, rfl, first, later⟩ := List.map_eq_cons_iff.mp same
      rw [List.forall_mem_cons] at each
      rw [List.mapM_cons, hypothesis later each.2, each.1 item first]
      rfl

/-- A fold whose steps succeed or fail for each item alone succeeds exactly when each of
them does. -/
theorem exists_foldlM_eq_ok_iff {step : β → α → Except ε β} {Good : α → Prop} {items : List α}
    (steps : ∀ item ∈ items, ∀ state, (∃ next, step state item = .ok next) ↔ Good item)
    (start : β) :
    (∃ last, items.foldlM step start = .ok last) ↔ ∀ item ∈ items, Good item := by
  induction items generalizing start with
  | nil => simp [pure, Except.pure]
  | cons item rest hypothesis =>
      have later := hypothesis fun item member => steps item (List.mem_cons_of_mem _ member)
      simp only [List.foldlM_cons, bind_eq_ok_iff, List.forall_mem_cons]
      rw [← steps item List.mem_cons_self start]
      constructor
      · rintro ⟨last, next, stepped, folded⟩
        exact ⟨⟨next, stepped⟩, (later next).mp ⟨last, folded⟩⟩
      · rintro ⟨⟨next, stepped⟩, good⟩
        rcases (later next).mpr good with ⟨last, folded⟩
        exact ⟨last, next, stepped, folded⟩

theorem length_mapM {image : α → Except ε β} {items : List α} {results : List β}
    (traversed : items.mapM image = .ok results) : results.length = items.length :=
  (mapM_eq_ok_iff.mp traversed).length_eq.symm

end QueryGate
