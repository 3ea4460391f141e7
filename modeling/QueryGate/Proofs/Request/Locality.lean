import Mathlib
import QueryGate.Proofs.Request.Path

/-!
# What a change leaves as it was

A change at the end of a path is seen behind that end alone: every other node keeps its name,
its number, its terms and the numbers of its children. The number of nodes grows by as many as
the changed node grows by.
-/

namespace QueryGate

namespace Request

/-- Nodes that differ in nothing but what is below their children. -/
structure SameTop (node other : Request) : Prop where
  number : node.number = other.number
  name : node.name = other.name
  terms : node.terms = other.terms
  includes : node.includes.map Request.number = other.includes.map Request.number

theorem SameTop.refl (node : Request) : SameTop node node := ⟨rfl, rfl, rfl, rfl⟩

/-- The change leaves every node its number. -/
def KeepsNumber (change : Request → Request) : Prop :=
  ∀ node : Request, (change node).number = node.number

variable {change : Request → Request} {request node : Request} {path : Path} {name : String}

theorem number_update (keeps : KeepsNumber change) (path : Path) :
    KeepsNumber fun request => request.update change path := by
  intro node
  cases path with
  | nil => exact keeps node
  | cons name path => rfl

theorem number_onWay (keeps : KeepsNumber change) (name : String) (path : Path) :
    KeepsNumber (onWay change name path) := by
  intro child
  rw [onWay]
  split
  · exact number_update keeps path child
  · rfl

/-- A change at the end of a path is seen behind that end alone. -/
theorem rel_at?_update (keepsName : KeepsName change) (keepsNumber : KeepsNumber change)
    {rest : Path} (elsewhere : ¬ path <+: rest) :
    Option.Rel SameTop ((request.update change path).at? rest) (request.at? rest) := by
  induction path generalizing request rest with
  | nil => exact absurd List.nil_prefix elsewhere
  | cons name path hypothesis =>
      cases rest with
      | nil =>
          refine .some ⟨rfl, rfl, rfl, ?_⟩
          rw [update_cons, List.map_map]
          exact List.map_congr_left fun child _ => number_onWay keepsNumber name path child
      | cons other rest =>
          rw [at?, at?, child?_update_cons keepsName]
          cases found : request.child? other with
          | none => exact .none
          | some child =>
              rw [Option.map_some, Option.bind_some, Option.bind_some]
              have named := name_of_child? found
              by_cases same : other = name
              · subst same
                rw [onWay, if_pos (by simpa using named)]
                apply hypothesis
                intro below
                exact elsewhere (List.cons_prefix_cons.mpr ⟨rfl, below⟩)
              · rw [onWay, if_neg (by rw [named]; simpa using same)]
                cases child.at? rest with
                | none => exact .none
                | some node => exact .some (.refl node)

/-- What is found elsewhere after a change was there before. -/
theorem exists_of_at?_update (keepsName : KeepsName change) (keepsNumber : KeepsNumber change)
    {rest : Path} {after : Request} (elsewhere : ¬ path <+: rest)
    (found : (request.update change path).at? rest = some after) :
    ∃ before, request.at? rest = some before ∧ after.SameTop before := by
  have related : Option.Rel SameTop ((request.update change path).at? rest) (request.at? rest) :=
    rel_at?_update keepsName keepsNumber elsewhere
  rw [found] at related
  cases before : request.at? rest with
  | none =>
      rw [before] at related
      cases related
  | some old =>
      rw [before] at related
      cases related with
      | some top => exact ⟨old, rfl, top⟩

/-- What was elsewhere before a change is found there after it. -/
theorem exists_at?_update (keepsName : KeepsName change) (keepsNumber : KeepsNumber change)
    {rest : Path} {before : Request} (elsewhere : ¬ path <+: rest)
    (found : request.at? rest = some before) :
    ∃ after, (request.update change path).at? rest = some after ∧
      after.number = before.number := by
  have related : Option.Rel SameTop ((request.update change path).at? rest) (request.at? rest) :=
    rel_at?_update keepsName keepsNumber elsewhere
  rw [found] at related
  cases after : (request.update change path).at? rest with
  | none =>
      rw [after] at related
      cases related
  | some new =>
      rw [after] at related
      cases related with
      | some top => exact ⟨new, rfl, top.number⟩

/-- The path leads to the node of that number. -/
def Leads (request : Request) (path : Path) (number : Nat) : Prop :=
  ∃ node, request.at? path = some node ∧ node.number = number

/-- The nodes around a change keep their places. -/
theorem Leads.update_around {around : Path} {number : Nat} (leads : request.Leads around number)
    (keepsName : KeepsName change) (keepsNumber : KeepsNumber change)
    (before : around <+: path) : (request.update change path).Leads around number := by
  obtain ⟨node, found, same⟩ := leads
  by_cases within : path <+: around
  · have whole :=
      List.IsPrefix.eq_of_length before (Nat.le_antisymm before.length_le within.length_le)
    subst whole
    have changed := at?_update_append keepsName around [] request
    rw [List.append_nil, found, Option.bind_some, at?] at changed
    exact ⟨change node, changed, (keepsNumber node).trans same⟩
  · obtain ⟨after, foundAfter, sameNumber⟩ := exists_at?_update keepsName keepsNumber within found
    exact ⟨after, foundAfter, sameNumber.trans same⟩

/-- All nodes keep their places if those below the change do. -/
theorem Leads.update {other : Path} {number : Nat} (leads : request.Leads other number)
    (keepsName : KeepsName change) (keepsNumber : KeepsNumber change)
    (found : request.at? path = some node)
    (kept : ∀ {rest : Path} {number : Nat}, node.Leads rest number →
      (change node).Leads rest number) : (request.update change path).Leads other number := by
  obtain ⟨before, foundBefore, same⟩ := leads
  by_cases within : path <+: other
  · obtain ⟨rest, rfl⟩ := within
    rw [at?_append, found, Option.bind_some] at foundBefore
    obtain ⟨after, foundAfter, sameNumber⟩ := kept ⟨before, foundBefore, same⟩
    refine ⟨after, ?_, sameNumber⟩
    rw [at?_update_append keepsName, found, Option.bind_some, foundAfter]
  · obtain ⟨after, foundAfter, sameNumber⟩ :=
      exists_at?_update keepsName keepsNumber within foundBefore
    exact ⟨after, foundAfter, sameNumber.trans same⟩

theorem exists_parent_of_at? (found : request.at? (path ++ [name]) = some node) :
    ∃ parent, request.at? path = some parent ∧ parent.child? name = some node := by
  rw [at?_append, Option.bind_eq_some_iff] at found
  obtain ⟨parent, foundParent, foundNode⟩ := found
  refine ⟨parent, foundParent, ?_⟩
  rw [at?] at foundNode
  cases child : parent.child? name with
  | none =>
      rw [child] at foundNode
      cases foundNode
  | some below =>
      rw [child] at foundNode
      exact foundNode

theorem at?_child (found : request.at? path = some node) {child : Request}
    (foundChild : node.child? name = some child) : request.at? (path ++ [name]) = some child := by
  rw [at?_append, found, Option.bind_some, at?, foundChild]
  rfl

theorem Distinct.at_path (distinct : request.Distinct) (found : request.at? path = some node) :
    node.Distinct := by
  induction path generalizing request with
  | nil =>
      cases found
      exact distinct
  | cons name path hypothesis =>
      rw [at?, Option.bind_eq_some_iff] at found
      obtain ⟨child, foundChild, foundNode⟩ := found
      exact hypothesis (distinct.children child (mem_of_child? foundChild)) foundNode

/-- A node in place of another, of which only the name is left. -/
def put (content node : Request) : Request := { content with name := node.name }

theorem name_put (content : Request) : KeepsName (put content) := fun _ => rfl

theorem put_of_name {content : Request} (same : content.name = node.name) :
    put content node = content := by
  rw [put, ← same]
  cases content
  rfl

/-- A change of the one node at a path puts what it makes of the node in its place. -/
theorem Distinct.update_eq_put (distinct : request.Distinct) (found : request.at? path = some node)
    (name : (change node).name = node.name) :
    request.update change path = request.update (put (change node)) path := by
  apply distinct.update_congr
  intro other same
  rw [found] at same
  cases same
  exact (put_of_name name).symm

theorem Distinct.update_at (distinct : request.Distinct) (found : request.at? path = some node)
    (name : (change node).name = node.name) (changed : (change node).Distinct) :
    (request.update change path).Distinct := by
  rw [distinct.update_eq_put found name]
  apply distinct.update (name_put _)
  intro other _
  exact .of_parts changed.names changed.children

/-! ### Sizes -/

theorem size_eq (request : Request) : request.size = 1 + sizeAll request.includes := by
  cases request
  rw [size]

theorem sizeAll_eq_sum (requests : List Request) :
    sizeAll requests = (requests.map size).sum := by
  induction requests with
  | nil => rfl
  | cons request rest hypothesis => rw [sizeAll, List.map_cons, List.sum_cons, hypothesis]

theorem size_pos (request : Request) : 0 < request.size := by
  rw [size_eq]
  omega

/-- A change adds to a request as many nodes as to the node that it changes. -/
theorem Distinct.size_update (distinct : request.Distinct) (found : request.at? path = some node) :
    (request.update change path).size + node.size = request.size + (change node).size := by
  induction path generalizing request with
  | nil =>
      cases found
      rw [Request.update, Nat.add_comm]
  | cons name path hypothesis =>
      rw [at?, Option.bind_eq_some_iff] at found
      obtain ⟨child, foundChild, foundNode⟩ := found
      have member := mem_of_child? foundChild
      have named := name_of_child? foundChild
      have changed := hypothesis (distinct.children child member) foundNode
      obtain ⟨before, after, split⟩ := List.append_of_mem member
      have different : ∀ other ∈ before ++ after, onWay change name path other = other := by
        have names := distinct.names
        rw [split, List.map_append, List.map_cons, List.nodup_middle, List.nodup_cons,
          ← List.map_append] at names
        intro other memberOther
        rw [onWay, if_neg]
        intro same
        rw [beq_iff_eq, ← named] at same
        exact names.1 (same ▸ List.mem_map_of_mem memberOther)
      rw [List.forall_mem_append] at different
      have first : before.map (onWay change name path) = before :=
        List.map_congr_left different.1 |>.trans before.map_id'
      have last : after.map (onWay change name path) = after :=
        List.map_congr_left different.2 |>.trans after.map_id'
      have middle : onWay change name path child = child.update change path := by
        rw [onWay, if_pos (by simpa using named)]
      rw [size_eq, size_eq request, update_cons, sizeAll_eq_sum, sizeAll_eq_sum, split]
      simp only [List.map_append, List.map_cons, first, last, middle, List.sum_append,
        List.sum_cons]
      omega

end Request

end QueryGate
