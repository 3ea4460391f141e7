import QueryGate.Query.Request

/-!
# What holds at every node of a request

The nodes of a request are reached from its root by paths of relation names. A
property of the terms of every node survives each change that a scanner makes to a
request: one of a node's terms, a new child, a removed child.
-/

namespace QueryGate

namespace Request

/-- The nodes at the end of a path. Where the children of a node have different
names there is at most one. -/
inductive Node : Request → Path → Request → Prop where
  | root (request : Request) : Node request [] request
  | child {request child node : Request} {path : Path} :
      child ∈ request.includes → Node child path node →
      Node request (child.name :: path) node

/-- The terms of every node have a property. -/
inductive Every (holds : Terms → Prop) : Request → Prop where
  | node {number : Nat} {name : String} {terms : Terms} {includes : List Request} :
      holds terms → (∀ child ∈ includes, Every holds child) →
      Every holds ⟨number, name, terms, includes⟩

namespace Every

variable {holds : Terms → Prop} {request : Request}

theorem terms (every : Every holds request) : holds request.terms := by
  cases every with
  | node own _ => exact own

theorem children (every : Every holds request) :
    ∀ child ∈ request.includes, Every holds child := by
  cases every with
  | node _ below => exact below

theorem at_node (every : Every holds request) {path : Path} {node : Request}
    (reached : request.Node path node) : Every holds node := by
  induction reached with
  | root => exact every
  | child member _ hypothesis => exact hypothesis (every.children _ member)

theorem of_parts (own : holds request.terms)
    (below : ∀ child ∈ request.includes, Every holds child) : Every holds request := by
  cases request with
  | mk number name terms includes => exact .node own below

theorem blank (empty : holds {}) (number : Nat) (name : String) :
    Every holds (.blank number name) :=
  .node empty (by simp)

/-- A change at the end of a path that keeps the property there keeps it everywhere. -/
theorem update {change : Request → Request}
    (kept : ∀ node, Every holds node → Every holds (change node)) (path : Path)
    (every : Every holds request) : Every holds (request.update change path) := by
  induction path generalizing request with
  | nil => exact kept request every
  | cons name path hypothesis =>
      apply of_parts
      · exact every.terms
      · intro child member
        simp only [Request.update, List.mem_map] at member
        rcases member with ⟨old, oldMember, equal⟩
        have oldEvery := every.children old oldMember
        rw [← equal]
        split
        · exact hypothesis oldEvery
        · exact oldEvery

theorem updateTerms {change : Terms → Terms} (kept : ∀ terms, holds terms → holds (change terms))
    (path : Path) (every : Every holds request) :
    Every holds (request.updateTerms change path) := by
  apply every.update
  intro node nodeEvery
  apply of_parts
  · exact kept node.terms nodeEvery.terms
  · exact nodeEvery.children

theorem addChild {child : Request} (every : Every holds request) (added : Every holds child) :
    Every holds (Request.addChild child request) := by
  apply of_parts
  · exact every.terms
  · intro node member
    rcases List.mem_append.mp member with member | member
    · exact every.children node member
    · rw [List.mem_singleton.mp member]
      exact added

theorem removeChild (name : String) (every : Every holds request) :
    Every holds (request.removeChild name) := by
  apply of_parts
  · exact every.terms
  · intro node member
    exact every.children node (List.mem_filter.mp member).1

end Every

end Request

end QueryGate
