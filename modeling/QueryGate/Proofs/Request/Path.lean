import Mathlib.Data.List.Nodup
import QueryGate.Proofs.Request.Every

/-!
# Changes along a path

Where the children of every node have different names, a path leads to one node at
most, and a change at its end is a change of that node alone. Changes that keep the
name of a node keep all paths in front of it.
-/

namespace QueryGate

namespace Request

/-- The change leaves every node its name. -/
def KeepsName (change : Request → Request) : Prop :=
  ∀ node : Request, (change node).name = node.name

variable {change other : Request → Request} {request node : Request} {name : String}

@[simp] theorem blank_name (number : Nat) (name : String) : (blank number name).name = name := rfl

@[simp] theorem blank_terms (number : Nat) (name : String) : (blank number name).terms = {} := rfl

@[simp] theorem blank_includes (number : Nat) (name : String) :
    (blank number name).includes = [] := rfl

theorem name_of_child? {child : Request} (found : request.child? name = some child) :
    child.name = name := by
  simpa using List.find?_some found

theorem mem_of_child? {child : Request} (found : request.child? name = some child) :
    child ∈ request.includes :=
  List.mem_of_find?_eq_some found

theorem child?_eq_none_iff :
    request.child? name = none ↔ ∀ child ∈ request.includes, child.name ≠ name := by
  simp [child?]

theorem child?_addChild (child request : Request) (name : String) :
    (addChild child request).child? name =
      (request.child? name).or (if child.name == name then some child else none) := by
  rw [child?, addChild, List.find?_append, List.find?_singleton, child?]

theorem child?_removeChild {name other : String} (request : Request) (different : other ≠ name) :
    (request.removeChild name).child? other = request.child? other := by
  rw [child?, removeChild, List.find?_filter, child?]
  congr 1
  funext child
  by_cases named : child.name = other
  · simp [named, different]
  · simp [named]

theorem child?_removeChild_self (name : String) (request : Request) :
    (request.removeChild name).child? name = none := by
  simp [child?, removeChild]

/-- A change that keeps all names changes the child that a name finds. -/
theorem find?_map_of_keepsName (keeps : KeepsName change) (children : List Request)
    (name : String) :
    (children.map change).find? (fun child => child.name == name) =
      (children.find? fun child => child.name == name).map change := by
  have kept : (fun child : Request => child.name == name) ∘ change =
      fun child => child.name == name := by
    funext child
    exact congrArg (· == name) (keeps child)
  rw [List.find?_map, kept]

/-- What the change of a path does to a child on the way. -/
def onWay (change : Request → Request) (name : String) (path : Path) (child : Request) :
    Request :=
  if child.name == name then child.update change path else child

theorem update_cons (change : Request → Request) (name : String) (path : Path)
    (request : Request) :
    request.update change (name :: path) =
      { request with includes := request.includes.map (onWay change name path) } := rfl

theorem name_update (keeps : KeepsName change) (path : Path) :
    KeepsName fun request => request.update change path := by
  intro node
  cases path with
  | nil => exact keeps node
  | cons name path => rfl

theorem name_onWay (keeps : KeepsName change) (name : String) (path : Path) :
    KeepsName (onWay change name path) := by
  intro child
  rw [onWay]
  split
  · exact name_update keeps path child
  · rfl

theorem child?_update_cons (keeps : KeepsName change) (name : String) (path : Path)
    (request : Request) (other : String) :
    (request.update change (name :: path)).child? other =
      (request.child? other).map (onWay change name path) :=
  find?_map_of_keepsName (name_onWay keeps name path) request.includes other

theorem at?_append (request : Request) (path rest : Path) :
    request.at? (path ++ rest) = (request.at? path).bind fun node => node.at? rest := by
  induction path generalizing request with
  | nil => rfl
  | cons name path hypothesis =>
      rw [List.cons_append, at?, at?]
      cases request.child? name with
      | none => rfl
      | some child => exact hypothesis child

theorem isSome_at?_of_append {path rest : Path} (found : (request.at? (path ++ rest)).isSome) :
    (request.at? path).isSome := by
  rw [at?_append] at found
  exact Option.isSome_of_isSome_bind found

/-- Behind the node that is changed, the paths are those of the changed node. -/
theorem at?_update_append (keeps : KeepsName change) (path rest : Path) (request : Request) :
    (request.update change path).at? (path ++ rest) =
      (request.at? path).bind fun node => (change node).at? rest := by
  induction path generalizing request with
  | nil => rfl
  | cons name path hypothesis =>
      rw [List.cons_append, at?, at?, child?_update_cons keeps]
      cases found : request.child? name with
      | none => rfl
      | some child =>
          have named : (child.name == name) = true := by simpa using name_of_child? found
          simp only [Option.map_some, Option.bind_some, onWay, named, if_true]
          exact hypothesis child

theorem update_id (path : Path) (request : Request) : request.update id path = request := by
  induction path generalizing request with
  | nil => rfl
  | cons name path hypothesis =>
      have unchanged : onWay id name path = id := by
        funext child
        rw [onWay, hypothesis, ite_self]
        rfl
      rw [update_cons, unchanged, List.map_id]
      cases request
      rfl

theorem update_comp (first second : Request → Request) (keeps : KeepsName first) (path : Path)
    (request : Request) :
    (request.update first path).update second path =
      request.update (fun node => second (first node)) path := by
  induction path generalizing request with
  | nil => rfl
  | cons name path hypothesis =>
      rw [update_cons, update_cons, update_cons, List.map_map]
      congr 2
      funext child
      by_cases named : child.name = name
      · simp [onWay, named, name_update keeps path child, hypothesis]
      · simp [onWay, named]

/-- No two children of a node have the same name. -/
inductive Distinct : Request → Prop where
  | node {number : Nat} {name : String} {terms : Terms} {includes : List Request} :
      (includes.map Request.name).Nodup → (∀ child ∈ includes, Distinct child) →
      Distinct ⟨number, name, terms, includes⟩

namespace Distinct

theorem names (distinct : Distinct request) : (request.includes.map Request.name).Nodup := by
  cases distinct with
  | node names _ => exact names

theorem children (distinct : Distinct request) : ∀ child ∈ request.includes, Distinct child := by
  cases distinct with
  | node _ below => exact below

theorem of_parts (names : (request.includes.map Request.name).Nodup)
    (below : ∀ child ∈ request.includes, Distinct child) : Distinct request := by
  cases request with
  | mk number name terms includes => exact .node names below

theorem blank (number : Nat) (name : String) : Distinct (.blank number name) :=
  .node List.nodup_nil (by simp)

/-- Every child is the one that its name finds. -/
theorem child?_eq_some (distinct : Distinct request) {child : Request}
    (member : child ∈ request.includes) : request.child? child.name = some child := by
  cases found : request.child? child.name with
  | none => exact absurd rfl (child?_eq_none_iff.mp found child member)
  | some first =>
      have same := List.inj_on_of_nodup_map distinct.names (mem_of_child? found) member
        (name_of_child? found)
      rw [same]

theorem update (keeps : KeepsName change) (kept : ∀ node, Distinct node → Distinct (change node))
    (path : Path) (distinct : Distinct request) : Distinct (request.update change path) := by
  induction path generalizing request with
  | nil => exact kept request distinct
  | cons name path hypothesis =>
      apply of_parts
      · have sameNames : (request.update change (name :: path)).includes.map Request.name =
            request.includes.map Request.name := by
          rw [update_cons, List.map_map]
          exact List.map_congr_left fun child _ => name_onWay keeps name path child
        rw [sameNames]
        exact distinct.names
      · intro child member
        rcases List.mem_map.mp member with ⟨old, oldMember, rfl⟩
        have oldDistinct := distinct.children old oldMember
        split
        · exact hypothesis oldDistinct
        · exact oldDistinct

/-- Two changes that do the same to the one node at a path do the same to the request. -/
theorem update_congr (distinct : Distinct request) {path : Path}
    (same : ∀ node, request.at? path = some node → change node = other node) :
    request.update change path = request.update other path := by
  induction path generalizing request with
  | nil => exact same request rfl
  | cons name path hypothesis =>
      rw [update_cons, update_cons]
      congr 1
      apply List.map_congr_left
      intro child member
      rw [onWay, onWay]
      split
      · rename_i named
        apply hypothesis (distinct.children child member)
        intro node reached
        apply same
        have found := distinct.child?_eq_some member
        rw [eq_of_beq named] at found
        rw [at?, found]
        exact reached
      · rfl

end Distinct

/-- Makes sure that there is a child of the name. -/
def ensureChild (name : String) (request : Request) : Request :=
  if (request.child? name).isSome then request else addChild (.blank 0 name) request

/-- Makes a new last child of the name, in place of the one that there may be. -/
def replaceChild (name : String) (request : Request) : Request :=
  addChild (.blank 0 name) (request.removeChild name)

theorem name_ensureChild (name : String) : KeepsName (ensureChild name) := by
  intro node
  rw [ensureChild]
  split <;> rfl

theorem name_replaceChild (name : String) : KeepsName (replaceChild name) := fun _ => rfl

theorem isSome_child?_ensureChild (name : String) (request : Request) :
    ((request.ensureChild name).child? name).isSome := by
  rw [ensureChild]
  split
  · assumption
  · simp [child?, addChild]

theorem isSome_child?_replaceChild (name : String) (request : Request) :
    ((request.replaceChild name).child? name).isSome := by
  simp [replaceChild, child?, addChild]

namespace Distinct

theorem addChild {child : Request} (distinct : Distinct request) (added : Distinct child)
    (absent : request.child? child.name = none) : Distinct (Request.addChild child request) := by
  rw [child?_eq_none_iff] at absent
  apply of_parts
  · rw [Request.addChild, List.map_append, List.nodup_append]
    refine ⟨distinct.names, by simp, ?_⟩
    intro name member last lastMember
    rcases List.mem_map.mp member with ⟨old, oldMember, rfl⟩
    rw [List.map_singleton, List.mem_singleton] at lastMember
    rw [lastMember]
    exact absent old oldMember
  · intro node member
    rcases List.mem_append.mp member with member | member
    · exact distinct.children node member
    · rw [List.mem_singleton.mp member]
      exact added

theorem removeChild (name : String) (distinct : Distinct request) :
    Distinct (request.removeChild name) := by
  apply of_parts
  · exact distinct.names.sublist (List.filter_sublist.map Request.name)
  · intro node member
    exact distinct.children node (List.mem_filter.mp member).1

theorem ensureChild (name : String) (distinct : Distinct request) :
    Distinct (request.ensureChild name) := by
  rw [Request.ensureChild]
  split
  · exact distinct
  · rename_i absent
    exact distinct.addChild (.blank 0 name) (by simpa using absent)

theorem replaceChild (name : String) (distinct : Distinct request) :
    Distinct (request.replaceChild name) := by
  apply (distinct.removeChild name).addChild (.blank 0 name)
  rw [child?_eq_none_iff]
  intro child member
  simpa using (List.mem_filter.mp member).2

end Distinct

/-- Where there is no such child yet, making sure of it adds one. -/
theorem ensureChild_of_none (absent : request.child? name = none) :
    request.ensureChild name = addChild (.blank 0 name) request := by
  simp [ensureChild, absent]

theorem ensureChild_of_some {child : Request} (found : request.child? name = some child) :
    request.ensureChild name = request := by
  simp [ensureChild, found]

theorem replaceChild_of_none (absent : request.child? name = none) :
    request.replaceChild name = addChild (.blank 0 name) request := by
  have kept : request.removeChild name = request := by
    have all : request.includes.filter (fun child => child.name != name) = request.includes := by
      simpa [List.filter_eq_self] using child?_eq_none_iff.mp absent
    rw [removeChild, all]
    cases request
    rfl
  rw [replaceChild, kept]

namespace Distinct

variable {path : Path}

theorem update_ensureChild_of_none (distinct : Distinct request)
    (absent : ((request.at? path).bind fun node => node.child? name) = none) :
    request.update (Request.ensureChild name) path =
      request.update (Request.addChild (.blank 0 name)) path := by
  apply distinct.update_congr
  intro node reached
  rw [reached] at absent
  exact ensureChild_of_none absent

theorem update_replaceChild_of_none (distinct : Distinct request)
    (absent : ((request.at? path).bind fun node => node.child? name) = none) :
    request.update (Request.replaceChild name) path =
      request.update (Request.addChild (.blank 0 name)) path := by
  apply distinct.update_congr
  intro node reached
  rw [reached] at absent
  exact replaceChild_of_none absent

theorem update_ensureChild_of_some (distinct : Distinct request) {child : Request}
    (present : ((request.at? path).bind fun node => node.child? name) = some child) :
    request.update (Request.ensureChild name) path = request := by
  have unchanged : request.update (Request.ensureChild name) path = request.update id path := by
    apply distinct.update_congr
    intro node reached
    rw [reached] at present
    exact ensureChild_of_some present
  rw [unchanged, update_id]

end Distinct

end Request

end QueryGate
