import Mathlib
import QueryGate.Proofs.Scanner.Edits
import QueryGate.Proofs.Scanner.Spelling

/-!
# A query in the parentheses of a relation

What a query asks of the root it asks of a relation when it stands in that relation's
parentheses. The relation costs one level of depth.
-/

namespace QueryGate

namespace Request

/-- A root that asks for nothing but a relation, of which it asks what the request asks. -/
def asRelation (name : String) (request : Request) : Request :=
  ⟨0, rootName, {}, [{ request with name := name }]⟩

theorem unnumbered_asRelation (name : String) (request : Request) :
    (request.asRelation name).unnumbered = request.unnumbered.asRelation name := by
  cases request
  rfl

/-- The change does not look at the name of a node. -/
def IgnoresName (change : Request → Request) : Prop :=
  ∀ (node : Request) (name : String),
    change { node with name := name } = { change node with name := name }

theorem ignoresName_ensureChild (name : String) : IgnoresName (ensureChild name) := by
  intro node other
  have same : ({ node with name := other } : Request).child? name = node.child? name := rfl
  rw [ensureChild, ensureChild, same]
  split <;> rfl

theorem ignoresName_update {change : Request → Request} (ignores : IgnoresName change)
    (path : Path) : IgnoresName fun request => request.update change path := by
  intro node name
  cases path with
  | nil => exact ignores node name
  | cons first path => rfl

/-- A change of the relation is a change of what is asked of it. -/
theorem update_asRelation {change : Request → Request} (ignores : IgnoresName change)
    (name : String) (path : Path) (request : Request) :
    (request.asRelation name).update change (name :: path) =
      (request.update change path).asRelation name := by
  simp only [asRelation, update_cons, List.map_cons, List.map_nil, onWay, beq_self_eq_true,
    if_true]
  rw [← ignoresName_update ignores path request name]

theorem child?_at?_asRelation (name : String) (path : Path) (other : String)
    (request : Request) :
    ((request.asRelation name).at? (name :: path)).bind (fun node => node.child? other) =
      (request.at? path).bind fun node => node.child? other := by
  have found : (request.asRelation name).child? name = some { request with name := name } := by
    simp [asRelation, child?]
  rw [at?, found, Option.bind_some]
  cases path with
  | nil => rfl
  | cons first path => rfl

end Request

namespace Edit

variable {options : ScanOptions} {request result : Request}

/-- An edit that is allowed can be made one level deeper if the depth may be greater by one. -/
theorem apply_asRelation {edit : Edit} (name : String)
    (applied : edit.apply options request = some result) :
    (edit.under [name]).apply { options with maxDepth := options.maxDepth + 1 }
      (request.asRelation name) = some (result.asRelation name) := by
  cases edit with
  | assign node change =>
      cases applied
      have ignores : Request.IgnoresName fun node =>
          { node with terms := change.apply node.terms } :=
        fun _ _ => rfl
      exact congrArg some (Request.update_asRelation ignores name node request)
  | attach parent child =>
      have ensured := Request.update_asRelation (Request.ignoresName_ensureChild child) name parent
        request
      have replaced := Request.update_asRelation
        (fun _ _ => rfl : Request.IgnoresName (Request.replaceChild child)) name parent request
      have seen := Request.child?_at?_asRelation name parent child request
      simp only [under, apply, List.cons_append, List.nil_append, List.length_cons,
        Nat.add_lt_add_iff_right, seen, ensured, replaced]
      rw [apply] at applied
      split at applied <;> rename_i fits
      · cases applied
      · rw [if_neg fits]
        cases policy : options.duplicates with
        | merge | replace =>
            simp only [policy] at applied ⊢
            cases applied
            rfl
        | reject =>
            simp only [policy] at applied ⊢
            split at applied <;> rename_i repeated
            · cases applied
            · rw [if_neg repeated]
              cases applied
              rfl
  | nest depth =>
      rw [apply] at applied
      split at applied <;> rename_i fits
      · cases applied
      · cases applied
        simp only [under, apply]
        rw [if_neg (by omega)]

/-- The first relation of a blank root is all that there is. -/
theorem attach_root (fits : 0 < options.maxDepth) (name : String) :
    (attach [] name).apply options (.blank 0 Request.rootName) =
      some ((Request.blank 0 Request.rootName).asRelation name) := by
  have allowed : ¬options.maxDepth < ([] : Path).length + 1 := by
    rw [List.length_nil]
    omega
  rw [apply, if_neg allowed]
  cases options.duplicates <;> rfl

/-- Edits that are allowed can be made one level deeper if the depth may be greater by one. -/
theorem applyAll_asRelation {edits : List Edit} (name : String)
    (applied : applyAll options request edits = some result) :
    applyAll { options with maxDepth := options.maxDepth + 1 } (request.asRelation name)
      (edits.map (under [name])) = some (result.asRelation name) := by
  induction edits generalizing request with
  | nil =>
      cases applied
      rfl
  | cons edit edits hypothesis =>
      rw [applyAll_cons, Option.bind_eq_some_iff] at applied
      obtain ⟨next, first, later⟩ := applied
      rw [List.map_cons, applyAll_cons, apply_asRelation name first]
      exact hypothesis later

end Edit

namespace Control

/-- A relation with a query in its parentheses attaches the relation and asks the query of it. -/
theorem writes_asRelation {relation inner : String} {edits : List Edit} (named : IsName relation)
    (writes : Writes inner.toList edits) :
    Writes ("includes=" ++ relation ++ "(" ++ inner ++ ")").toList
      (.attach [] relation :: edits.map (Edit.under [relation])) := by
  have run := (Runs.includes [] []).append (Runs.enclosed [] [] [] named writes)
  have ends := Writes.intro run (.closed [] [] rfl) rfl
  simpa [String.append_assoc] using ends

end Control

/-- A query that is accepted is accepted in the parentheses of a relation, where one more
level of depth is allowed, and asks there for the same. -/
theorem scan_asRelation {options : ScanOptions} {relation inner : String} {request : Request}
    (named : IsName relation) (scanned : scan options inner = .ok request) :
    ∃ nested, scan { options with maxDepth := options.maxDepth + 1 }
        ("includes=" ++ relation ++ "(" ++ inner ++ ")") = .ok nested ∧
      nested.toJson =
        (⟨0, Request.rootName, {}, [{ request with name := relation }]⟩ : Request).toJson := by
  obtain ⟨edits, writes⟩ := exists_writes_of_scan scanned
  have asked := Edit.applyAll_asRelation relation (applyAll_of_scan writes scanned)
  have made : Edit.applyAll { options with maxDepth := options.maxDepth + 1 }
      (.blank 0 Request.rootName) (.attach [] relation :: edits.map (Edit.under [relation])) =
        some (request.unnumbered.asRelation relation) := by
    rw [Edit.applyAll_cons, Edit.attach_root (Nat.succ_pos _)]
    exact asked
  obtain ⟨nested, scannedNested, same⟩ :=
    exists_scan_of_applyAll (Control.writes_asRelation named writes) made
  refine ⟨nested, scannedNested, ?_⟩
  apply Request.toJson_eq_of_unnumbered
  rw [same]
  exact (Request.unnumbered_asRelation relation request).symm

theorem scan_asRelation_comments :
    ∃ request nested, scan { maxDepth := 1 } "text=a&includes=author" = .ok request ∧
      scan { maxDepth := 2 } ("includes=" ++ "comments" ++ "(" ++ "text=a&includes=author" ++ ")") =
        .ok nested ∧
      nested.toJson =
        (⟨0, Request.rootName, {}, [{ request with name := "comments" }]⟩ : Request).toJson := by
  let request : Request :=
    ⟨0, "root", { predicates := [("text", .literal "a")] }, [⟨1, "author", {}, []⟩]⟩
  have named : IsName "comments" := by decide
  have scanned : scan { maxDepth := 1 } "text=a&includes=author" = .ok request := by cbv
  obtain ⟨nested, scannedNested, same⟩ := scan_asRelation named scanned
  exact ⟨request, nested, scanned, scannedNested, same⟩

end QueryGate
