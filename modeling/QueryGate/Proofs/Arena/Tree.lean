import QueryGate.Proofs.Arena.WellFormed
import QueryGate.Proofs.Request.Locality

/-!
# The request in an arena

An arena stores a request if each node of the request is the node of its number. Nodes of the
arena that the root does not lead to are none of the request. In a linked arena a number leads
back along the parents in one way, so that no two paths of the request end at one number; this
is what lets a node be changed without a look at the others.
-/

namespace QueryGate

namespace Arena

/-- The nodes that the root leads to. -/
inductive Reaches (arena : Arena) : Nat → Prop where
  | root : Reaches arena 0
  | child {id child : Nat} {node : ArenaNode} :
      Reaches arena id → arena.node? id = some node → child ∈ node.includes → Reaches arena child

/-- The node is the one of its number, and so are its children. -/
def Shows (arena : Arena) (node : Request) : Prop :=
  ∃ parent, arena.node? node.number =
    some ⟨node.name, parent, node.terms, node.includes.map Request.number⟩

/-- Every node of the request is in the arena, the root first. -/
structure Stores (arena : Arena) (request : Request) : Prop where
  root : request.number = 0
  distinct : request.Distinct
  nodes : ∀ {path : Path} {node : Request}, request.at? path = some node → arena.Shows node

theorem Stores.start : Arena.start.Stores (.blank 0 Request.rootName) where
  root := rfl
  distinct := .blank 0 Request.rootName
  nodes := by
    intro path node found
    cases path with
    | nil =>
        cases found
        exact ⟨none, rfl⟩
    | cons name path => cases found

/-- Requests that are read one by one are read together. -/
theorem mapM_eq_some_of_map {read : Nat → Option Request} {requests : List Request}
    (each : ∀ child ∈ requests, read child.number = some child) :
    (requests.map Request.number).mapM read = some requests := by
  induction requests with
  | nil => rfl
  | cons child rest hypothesis =>
      rw [List.forall_mem_cons] at each
      rw [List.map_cons, List.mapM_cons, each.1, hypothesis each.2]
      rfl

namespace Stores

variable {arena : Arena} {request node child : Request} {path : Path} {name : String}
  (stores : arena.Stores request)
include stores

theorem at?_of_mem (found : request.at? path = some node) (member : child ∈ node.includes) :
    request.at? (path ++ [child.name]) = some child :=
  Request.at?_child found ((stores.distinct.at_path found).child?_eq_some member)

/-- A child has the number of its parent. -/
theorem node?_of_mem (linked : arena.Linked) (found : request.at? path = some node)
    (member : child ∈ node.includes) :
    arena.node? child.number = some
      ⟨child.name, some node.number, child.terms, child.includes.map Request.number⟩ := by
  obtain ⟨parent, entry⟩ := stores.nodes found
  obtain ⟨above, entryChild⟩ := stores.nodes (stores.at?_of_mem found member)
  obtain ⟨below, foundBelow, parentOf, -⟩ := linked.included entry (List.mem_map_of_mem member)
  rw [entryChild] at foundBelow
  cases foundBelow
  cases parentOf
  exact entryChild

/-- The depth of a node is the number of relations that lead to it. -/
theorem depthOf?_eq (linked : arena.Linked) (found : request.at? path = some node) :
    arena.depthOf? node.number = some path.length := by
  induction path using List.reverseRecOn generalizing node with
  | nil =>
      cases found
      rw [stores.root]
      exact linked.depthOf?_root
  | append_singleton path name hypothesis =>
      obtain ⟨parent, foundParent, foundNode⟩ := Request.exists_parent_of_at? found
      rw [List.length_append]
      exact linked.depthOf?_of_parent
        (stores.node?_of_mem linked foundParent (Request.mem_of_child? foundNode)) rfl
        (hypothesis foundParent)

/-- Two paths that lead to one number are the same. -/
theorem path_unique (linked : arena.Linked) {other : Path} {second : Request}
    (found : request.at? path = some node) (foundOther : request.at? other = some second)
    (same : node.number = second.number) : path = other := by
  -- Both paths are as long as the node is deep, and lead to it through its only parent.
  induction path using List.reverseRecOn generalizing node other second with
  | nil =>
      have depth := stores.depthOf?_eq linked found
      rw [same, stores.depthOf?_eq linked foundOther] at depth
      exact (List.length_eq_zero_iff.mp (Option.some.inj depth)).symm
  | append_singleton path name hypothesis =>
      have depth := stores.depthOf?_eq linked found
      rw [same, stores.depthOf?_eq linked foundOther, List.length_append] at depth
      cases other using List.reverseRecOn with
      | nil => cases depth
      | append_singleton other last =>
          obtain ⟨parent, foundParent, foundNode⟩ := Request.exists_parent_of_at? found
          obtain ⟨parentOther, foundParentOther, foundSecond⟩ :=
            Request.exists_parent_of_at? foundOther
          have entry := stores.node?_of_mem linked foundParent (Request.mem_of_child? foundNode)
          have entryOther := stores.node?_of_mem linked foundParentOther
            (Request.mem_of_child? foundSecond)
          rw [same, entryOther] at entry
          injection Option.some.inj entry with sameName sameParent
          have samePath := hypothesis foundParent foundParentOther (Option.some.inj sameParent).symm
          rw [samePath, ← Request.name_of_child? foundNode, ← sameName,
            Request.name_of_child? foundSecond]

/-- The root leads to every node of the request. -/
theorem reaches (found : request.at? path = some node) : arena.Reaches node.number := by
  induction path using List.reverseRecOn generalizing node with
  | nil =>
      cases found
      rw [stores.root]
      exact .root
  | append_singleton path name hypothesis =>
      obtain ⟨parent, foundParent, foundNode⟩ := Request.exists_parent_of_at? found
      obtain ⟨_, entry⟩ := stores.nodes foundParent
      exact .child (hypothesis foundParent) entry
        (List.mem_map_of_mem (Request.mem_of_child? foundNode))

/-- The child of a name has the same number in the arena. -/
theorem findInclude?_eq (found : request.at? path = some node) (name : String) :
    arena.findInclude? node.number name = (node.child? name).map Request.number := by
  obtain ⟨_, entry⟩ := stores.nodes found
  rw [findInclude?, entry, Option.bind_some, List.find?_map, Request.child?]
  congr 1
  apply List.find?_congr
  intro child member
  obtain ⟨_, entryChild⟩ := stores.nodes (stores.at?_of_mem found member)
  rw [Function.comp_apply, entryChild, Option.any_some]

/-! ### What is read from an arena -/

/-- Each level of a request is read with one level less; its numbers are greater than those of
the levels above it. -/
theorem requestWithin?_eq (linked : arena.Linked) (found : request.at? path = some node)
    {levels : Nat} (enough : arena.nodes.length ≤ levels + node.number) :
    arena.requestWithin? levels node.number = some node := by
  have distinct := stores.distinct.at_path found
  induction distinct generalizing path levels with
  | @node number name terms includes names below hypothesis =>
      obtain ⟨parent, entry⟩ := stores.nodes found
      have inside := lt_length_of_node? entry
      cases levels with
      | zero => omega
      | succ levels =>
          have each : ∀ child ∈ includes,
              arena.requestWithin? levels child.number = some child := by
            intro child member
            have greater := linked.lt_child entry (List.mem_map_of_mem member)
            exact hypothesis child member (stores.at?_of_mem found member) (by omega)
          have read := mapM_eq_some_of_map each
          simp [requestWithin?, entry, read]

/-- All nodes on a stack of nodes of the request are counted, and all below them. -/
theorem countWithin?_eq (stack : List Request)
    (each : ∀ node ∈ stack, ∃ path, request.at? path = some node) {steps : Nat}
    (enough : Request.sizeAll stack ≤ steps) :
    arena.countWithin? steps (stack.map Request.number) = some (Request.sizeAll stack) := by
  induction steps generalizing stack with
  | zero =>
      cases stack with
      | nil => rfl
      | cons node stack =>
          have positive := node.size_pos
          rw [Request.sizeAll] at enough
          omega
  | succ steps hypothesis =>
      cases stack with
      | nil => rfl
      | cons node stack =>
          rw [List.forall_mem_cons] at each
          obtain ⟨⟨path, found⟩, others⟩ := each
          obtain ⟨_, entry⟩ := stores.nodes found
          have pushed : (node.includes.map Request.number).reverse ++ stack.map Request.number =
              (node.includes.reverse ++ stack).map Request.number := by
            rw [List.map_append, List.map_reverse]
          have sizes : Request.sizeAll (node.includes.reverse ++ stack) + 1 =
              Request.sizeAll (node :: stack) := by
            rw [Request.sizeAll, Request.size_eq]
            simp only [Request.sizeAll_eq_sum, List.map_append, List.map_reverse, List.sum_append,
              List.sum_reverse]
            omega
          have onStack : ∀ other ∈ node.includes.reverse ++ stack,
              ∃ path, request.at? path = some other := by
            intro other member
            rw [List.mem_append, List.mem_reverse] at member
            obtain below | before := member
            · exact ⟨_, stores.at?_of_mem found below⟩
            · exact others other before
          have counted := hypothesis _ onStack (by omega)
          rw [← sizes, List.map_cons, countWithin?, entry]
          simp only [Option.bind_eq_bind, Option.bind_some]
          rw [pushed, counted]
          rfl

/-- As many nodes are counted as the request has. -/
theorem nodeCount?_eq (small : request.size ≤ arena.nodes.length) :
    arena.nodeCount? = some request.size := by
  have onStack : ∀ node ∈ [request], ∃ path, request.at? path = some node := by
    intro node member
    exact ⟨[], by rw [List.mem_singleton.mp member, Request.at?]⟩
  have size : Request.sizeAll [request] = request.size := by
    rw [Request.sizeAll, Request.sizeAll, Nat.add_zero]
  have counted := stores.countWithin?_eq [request] onStack (size ▸ small)
  rwa [List.map_singleton, stores.root, size] at counted

theorem request?_root (linked : arena.Linked) : arena.request? 0 = some request := by
  have found : request.at? [] = some request := rfl
  rw [← stores.root]
  exact stores.requestWithin?_eq linked found (Nat.le_add_right _ _)

theorem toJson?_eq (linked : arena.Linked) : arena.toJson? = some request.toJson := by
  rw [toJson?, stores.request?_root linked, Option.map_some]

end Stores

end Arena

end QueryGate
