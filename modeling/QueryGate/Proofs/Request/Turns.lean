import QueryGate.Proofs.Request.Edit
import QueryGate.Proofs.Request.Locality

/-!
# Edits of a part of a request

Some edits make one node of another when it stands at the root. They do the same wherever the
node stands in a request, as long as there is room for the levels below it: the rest of the
request stays what it was.
-/

namespace QueryGate

namespace Request

/-- A change at a path is one of the nodes on the way. -/
theorem update_append (change : Request → Request) (path rest : Path) (request : Request) :
    request.update change (path ++ rest) =
      request.update (fun node => node.update change rest) path := by
  induction path generalizing request with
  | nil => rfl
  | cons name path hypothesis =>
      have same : onWay change name (path ++ rest) =
          onWay (fun node => node.update change rest) name path := by
        funext child
        rw [onWay, onWay, hypothesis]
      rw [List.cons_append, update_cons, update_cons, same]

end Request

namespace Edit

open Request

/-- The edits make `after` of `before` wherever that stands with room for so many levels. -/
structure Turns (options : ScanOptions) (edits : List Edit) (room : Nat)
    (before after : Request) : Prop where
  name : after.name = before.name
  applied : ∀ {tree : Request} {path : Path}, tree.Distinct → tree.at? path = some before →
    path.length + room ≤ options.maxDepth →
    applyAll options tree (edits.map (under path)) = some (tree.update (put after) path)

theorem under_under (base path : Path) (edit : Edit) :
    (edit.under path).under base = edit.under (base ++ path) := by
  cases edit <;> simp [under]

namespace Turns

variable {options : ScanOptions} {edits later : List Edit} {room : Nat}
  {before middle after : Request}

theorem nil (options : ScanOptions) (room : Nat) (before : Request) :
    Turns options [] room before before where
  name := rfl
  applied := by
    intro tree path distinct found _
    have unchanged : tree.update id path = tree.update (put before) path :=
      distinct.update_eq_put found rfl
    rw [List.map_nil, applyAll_nil, ← unchanged, update_id]

theorem append (first : Turns options edits room before middle)
    (second : Turns options later room middle after) :
    Turns options (edits ++ later) room before after where
  name := second.name.trans first.name
  applied := by
    intro tree path distinct found fits
    have applied := first.applied distinct found fits
    have distinctMiddle := kept_of_applyAll distinct_of_apply distinct applied
    have foundMiddle : (tree.update (put middle) path).at? path = some middle := by
      have reached := at?_update_append (name_put middle) path [] tree
      rw [List.append_nil, found] at reached
      rw [reached, Option.bind_some, at?, put_of_name first.name]
    have twice := update_comp (put middle) (put after) (name_put middle) path tree
    rw [List.map_append, applyAll_append, applied, Option.bind_some,
      second.applied distinctMiddle foundMiddle fits, twice]
    rfl

theorem assign (options : ScanOptions) (room : Nat) (before : Request) (change : Terms.Change) :
    Turns options [.assign [] change] room before
      { before with terms := change.apply before.terms } where
  name := rfl
  applied := by
    intro tree path distinct found _
    rw [List.map_singleton, under, List.append_nil, applyAll_single, apply, updateTerms,
      distinct.update_eq_put found rfl]

/-- Brackets that are not too deep change nothing. -/
theorem nests (room : Nat) (before : Request)
    (each : ∀ edit ∈ edits, ∃ depth ≤ options.maxDepth, edit = .nest depth) :
    Turns options edits room before before := by
  induction edits with
  | nil => exact nil options room before
  | cons edit edits hypothesis =>
      rw [List.forall_mem_cons] at each
      obtain ⟨⟨depth, shallow, rfl⟩, others⟩ := each
      refine ⟨rfl, ?_⟩
      intro tree path distinct found fits
      rw [List.map_cons, under, applyAll_cons, apply, if_neg (by omega), Option.bind_some]
      exact (hypothesis others).applied distinct found fits

/-- A relation that is not there yet is added, whatever the policy. -/
theorem attach {name : String} (absent : before.child? name = none) :
    Turns options [.attach [] name] (room + 1) before (addChild (.blank 0 name) before) where
  name := rfl
  applied := by
    intro tree path distinct found fits
    have absentThere : ((tree.at? path).bind fun node => node.child? name) = none := by
      rw [found, Option.bind_some, absent]
    rw [List.map_singleton, under, List.append_nil, applyAll_single, apply, if_neg (by omega),
      absentThere, distinct.update_ensureChild_of_none absentThere,
      distinct.update_replaceChild_of_none absentThere, distinct.update_eq_put found rfl]
    cases options.duplicates <;> rfl

/-- Edits of a child are edits of its parent. -/
theorem within {name : String} {child changed : Request} (found : before.child? name = some child)
    (turns : Turns options edits room child changed) :
    Turns options (edits.map (under [name])) (room + 1) before
      (before.update (put changed) [name]) where
  name := rfl
  applied := by
    intro tree path distinct foundParent fits
    have foundChild : tree.at? (path ++ [name]) = some child := by
      rw [at?_append, foundParent, Option.bind_some, at?, found]
      rfl
    have regrouped : (edits.map (under [name])).map (under path) =
        edits.map (under (path ++ [name])) := by
      rw [List.map_map]
      exact List.map_congr_left fun edit _ => under_under path [name] edit
    have length : (path ++ [name]).length + room ≤ options.maxDepth := by
      rw [List.length_append, List.length_singleton]
      omega
    rw [regrouped, turns.applied distinct foundChild length, update_append,
      distinct.update_eq_put foundParent rfl]

end Turns

end Edit

end QueryGate
