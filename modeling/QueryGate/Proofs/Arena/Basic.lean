import QueryGate.Query.Request

/-!
# Arenas

The nodes of a request kept side by side. A node is known by its number, which is its place in
the arena; a child has the number of its parent, and a parent has the numbers of its children in
order. A node that is no longer a child of any other stays where it is.

Nothing in the definitions says that a chain of parents ends or that nodes are not included in
each other, so what walks along numbers may go on for ever. A walk is given as many steps as there
are nodes: one that needs more comes to some node again. It has no result if it does not end
within them. In an arena that is well-formed every walk has one.
-/

namespace QueryGate

/-- A node, its parent, and the numbers of its children. -/
structure ArenaNode where
  name : String
  parent : Option Nat
  terms : Terms
  includes : List Nat
  deriving Repr, Inhabited

/-- Nodes in the order in which they were made. -/
structure Arena where
  nodes : List ArenaNode
  deriving Repr, Inhabited

namespace Arena

/-- The root alone. -/
def start : Arena := ⟨[⟨Request.rootName, none, {}, []⟩]⟩

/-- The node of a number. -/
def node? (arena : Arena) (id : Nat) : Option ArenaNode := arena.nodes[id]?

/-- Changes the node of a number. -/
def update (change : ArenaNode → ArenaNode) (id : Nat) (arena : Arena) : Arena :=
  ⟨arena.nodes.modify id change⟩

/-- Changes the terms of a node. -/
def updateTerms (change : Terms → Terms) (id : Nat) (arena : Arena) : Arena :=
  arena.update (fun node => { node with terms := change node.terms }) id

/-- Adds a node at the end. -/
def push (node : ArenaNode) (arena : Arena) : Arena := ⟨arena.nodes ++ [node]⟩

/-- The child of a node that has the given name. -/
def findInclude? (arena : Arena) (id : Nat) (name : String) : Option Nat :=
  (arena.node? id).bind fun node => node.includes.find? fun child =>
    (arena.node? child).any fun below => below.name == name

/-- Makes a new last child. -/
def addInclude (arena : Arena) (parent : Nat) (name : String) : Arena × Nat :=
  ((arena.push ⟨name, some parent, {}, []⟩).update
    (fun node => { node with includes := node.includes ++ [arena.nodes.length] }) parent,
    arena.nodes.length)

/-- Takes a child from its parent. The child is still there. -/
def detachInclude (arena : Arena) (parent child : Nat) : Arena :=
  arena.update (fun node => { node with includes := node.includes.filter (· != child) }) parent

/-- How many nodes are around a node, if so many steps lead from it beyond the root. -/
def depthWithin? (arena : Arena) (steps id : Nat) : Option Nat :=
  match steps with
  | 0 => none
  | steps + 1 => do
      let node ← arena.node? id
      match node.parent with
      | none => some 0
      | some parent =>
          let depth ← arena.depthWithin? steps parent
          return depth + 1

/-- How many nodes are around a node. -/
def depthOf? (arena : Arena) (id : Nat) : Option Nat := arena.depthWithin? arena.nodes.length id

/-- The number of nodes on a stack and below them, if so many steps empty the stack. -/
def countWithin? (arena : Arena) (steps : Nat) (stack : List Nat) : Option Nat :=
  match steps, stack with
  | _, [] => some 0
  | 0, _ :: _ => none
  | steps + 1, id :: rest => do
      let node ← arena.node? id
      let count ← arena.countWithin? steps (node.includes.reverse ++ rest)
      return count + 1

/-- The number of nodes that the root leads to. -/
def nodeCount? (arena : Arena) : Option Nat := arena.countWithin? arena.nodes.length [0]

/-- A node and everything below it as a request, if it has not more levels. -/
def requestWithin? (arena : Arena) (levels id : Nat) : Option Request :=
  match levels with
  | 0 => none
  | levels + 1 => do
      let node ← arena.node? id
      let includes ← node.includes.mapM (arena.requestWithin? levels)
      return ⟨id, node.name, node.terms, includes⟩

/-- A node and everything below it, as a request. -/
def request? (arena : Arena) (id : Nat) : Option Request :=
  arena.requestWithin? arena.nodes.length id

/-- The canonical form. -/
def toJson? (arena : Arena) : Option Json := (arena.request? 0).map Request.toJson

variable {arena : Arena} {id other : Nat}

theorem node?_update (change : ArenaNode → ArenaNode) (id other : Nat) (arena : Arena) :
    (arena.update change id).node? other =
      if other = id then (arena.node? id).map change else arena.node? other := by
  rw [node?, update, List.getElem?_modify]
  by_cases same : other = id
  · subst same
    simp [node?]
  · rw [if_neg same]
    simp [Ne.symm same, node?]

theorem node?_push (node : ArenaNode) (id : Nat) (arena : Arena) :
    (arena.push node).node? id = if id = arena.nodes.length then some node else arena.node? id := by
  rw [node?, push]
  by_cases last : id = arena.nodes.length
  · simp [last]
  · rw [if_neg last]
    by_cases old : id < arena.nodes.length
    · rw [List.getElem?_append_left old, node?]
    · rw [List.getElem?_eq_none (by simp; omega), node?, List.getElem?_eq_none (by omega)]

theorem lt_length_of_node? {node : ArenaNode} (found : arena.node? id = some node) :
    id < arena.nodes.length :=
  (List.getElem?_eq_some_iff.mp found).1

theorem isSome_node?_iff : (arena.node? id).isSome ↔ id < arena.nodes.length := by
  simp [node?]

@[simp] theorem length_update (change : ArenaNode → ArenaNode) (id : Nat) (arena : Arena) :
    (arena.update change id).nodes.length = arena.nodes.length := by
  simp [update]

@[simp] theorem length_push (node : ArenaNode) (arena : Arena) :
    (arena.push node).nodes.length = arena.nodes.length + 1 := by
  simp [push]

end Arena

end QueryGate
