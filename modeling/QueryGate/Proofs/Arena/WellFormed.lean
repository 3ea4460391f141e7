import QueryGate.Proofs.Arena.Basic

/-!
# Well-formed arenas

The numbers in an arena agree with each other: a parent stands before its children, a child is
listed by its parent alone and once, and children of one node have different names. This is so
for detached nodes too, except that nobody lists them. Nodes that are changed, added and
detached as a request asks for it keep an arena well-formed.
-/

namespace QueryGate

namespace Arena

/-- Parents and children agree. -/
structure Linked (arena : Arena) : Prop where
  root : ∃ node, arena.node? 0 = some node ∧ node.parent = none
  parent : ∀ {id : Nat} {node : ArenaNode}, arena.node? id = some node → id ≠ 0 →
    ∃ parent < id, node.parent = some parent
  included : ∀ {id child : Nat} {node : ArenaNode}, arena.node? id = some node →
    child ∈ node.includes →
    ∃ below, arena.node? child = some below ∧ below.parent = some id ∧ below.name ≠ ""
  once : ∀ {id : Nat} {node : ArenaNode}, arena.node? id = some node → node.includes.Nodup
  names : ∀ {id first second : Nat} {node one two : ArenaNode}, arena.node? id = some node →
    first ∈ node.includes → second ∈ node.includes → arena.node? first = some one →
    arena.node? second = some two → one.name = two.name → first = second

/-- Parents and children agree, and no node is too deep. -/
structure WellFormed (limit : Nat) (arena : Arena) : Prop extends Linked arena where
  depth : ∀ {id : Nat}, id < arena.nodes.length →
    ∃ depth ≤ limit, arena.depthOf? id = some depth

variable {arena later : Arena} {id parent child limit : Nat} {node : ArenaNode}

/-! ### Depths -/

theorem depthWithin?_of_root (found : arena.node? id = some node) (root : node.parent = none)
    (steps : Nat) : arena.depthWithin? (steps + 1) id = some 0 := by
  simp [depthWithin?, found, root]

theorem depthWithin?_of_parent (found : arena.node? id = some node)
    (below : node.parent = some parent) (steps : Nat) :
    arena.depthWithin? (steps + 1) id = (arena.depthWithin? steps parent).map (· + 1) := by
  simp only [depthWithin?, found, below, Option.bind_eq_bind, Option.bind_some, Option.map_eq_bind]
  rfl

namespace Linked

variable (linked : arena.Linked)
include linked

theorem lt_of_parent (found : arena.node? id = some node) (parentOf : node.parent = some parent) :
    parent < id := by
  have notRoot : id ≠ 0 := by
    intro same
    obtain ⟨root, foundRoot, none⟩ := linked.root
    rw [same, foundRoot] at found
    cases found
    rw [none] at parentOf
    cases parentOf
  obtain ⟨other, before, parentOfOther⟩ := linked.parent found notRoot
  rw [parentOf] at parentOfOther
  cases parentOfOther
  exact before

theorem lt_child (found : arena.node? id = some node) (member : child ∈ node.includes) :
    id < child := by
  obtain ⟨below, foundBelow, parentOf, -⟩ := linked.included found member
  exact linked.lt_of_parent foundBelow parentOf

/-- Depths stay the same where all parents do, whatever steps are allowed. -/
theorem depthWithin?_congr
    (kept : ∀ {id : Nat} {node : ArenaNode}, arena.node? id = some node →
      ∃ other, later.node? id = some other ∧ other.parent = node.parent)
    (inside : id < arena.nodes.length) {steps others : Nat} (enough : id < steps)
    (enoughOthers : id < others) :
    later.depthWithin? others id = arena.depthWithin? steps id := by
  -- A parent is found with one step less, and its number is smaller.
  induction id using Nat.strongRecOn generalizing steps others with
  | ind id hypothesis =>
      obtain ⟨node, found⟩ := Option.isSome_iff_exists.mp (isSome_node?_iff.mpr inside)
      obtain ⟨other, foundLater, same⟩ := kept found
      obtain ⟨steps, rfl⟩ := Nat.exists_eq_add_of_lt enough
      obtain ⟨others, rfl⟩ := Nat.exists_eq_add_of_lt enoughOthers
      by_cases root : id = 0
      · subst root
        obtain ⟨rootNode, foundRoot, none⟩ := linked.root
        rw [found] at foundRoot
        cases foundRoot
        rw [depthWithin?_of_root found none, depthWithin?_of_root foundLater (same.trans none)]
      · obtain ⟨parent, before, parentOf⟩ := linked.parent found root
        have above : later.depthWithin? (id + others) parent =
            arena.depthWithin? (id + steps) parent :=
          hypothesis parent before (by omega) (by omega) (by omega)
        rw [depthWithin?_of_parent found parentOf,
          depthWithin?_of_parent foundLater (same.trans parentOf), above]

theorem depthOf?_congr
    (kept : ∀ {id : Nat} {node : ArenaNode}, arena.node? id = some node →
      ∃ other, later.node? id = some other ∧ other.parent = node.parent)
    (inside : id < arena.nodes.length) : later.depthOf? id = arena.depthOf? id := by
  obtain ⟨node, found⟩ := Option.isSome_iff_exists.mp (isSome_node?_iff.mpr inside)
  obtain ⟨other, foundLater, -⟩ := kept found
  exact linked.depthWithin?_congr kept inside inside (lt_length_of_node? foundLater)

theorem depthOf?_root : arena.depthOf? 0 = some 0 := by
  obtain ⟨node, found, none⟩ := linked.root
  obtain ⟨steps, length⟩ := Nat.exists_eq_add_of_lt (lt_length_of_node? found)
  rw [depthOf?, length]
  exact depthWithin?_of_root found none _

/-- A child is one level below its parent. -/
theorem depthOf?_of_parent (found : arena.node? id = some node)
    (parentOf : node.parent = some parent) {depth : Nat}
    (above : arena.depthOf? parent = some depth) : arena.depthOf? id = some (depth + 1) := by
  have before := linked.lt_of_parent found parentOf
  have inside := lt_length_of_node? found
  obtain ⟨steps, length⟩ := Nat.exists_eq_add_of_lt inside
  have fewer : arena.depthWithin? (id + steps) parent = arena.depthOf? parent :=
    linked.depthWithin?_congr (fun found => ⟨_, found, rfl⟩) (by omega) (by omega) (by omega)
  rw [depthOf?, length, depthWithin?_of_parent found parentOf, fewer, above, Option.map_some]

end Linked

/-! ### Changes -/

theorem Linked.start : Arena.start.Linked := by
  have only : ∀ {id : Nat} {node : ArenaNode}, Arena.start.node? id = some node →
      id = 0 ∧ node = ⟨Request.rootName, none, {}, []⟩ := by
    intro id node found
    have inside := lt_length_of_node? found
    have first : id = 0 := by simpa [Arena.start] using inside
    subst first
    exact ⟨rfl, (Option.some.inj found).symm⟩
  refine ⟨⟨_, rfl, rfl⟩, ?_, ?_, ?_, ?_⟩
  · intro id node found notRoot
    exact absurd (only found).1 notRoot
  · intro id child node found member
    rw [(only found).2] at member
    cases member
  · intro id node found
    rw [(only found).2]
    exact List.nodup_nil
  · intro id first second node one two found member
    rw [(only found).2] at member
    cases member

theorem WellFormed.start (limit : Nat) : Arena.start.WellFormed limit where
  toLinked := .start
  depth := by
    intro id inside
    have first : id = 0 := by simpa [Arena.start] using inside
    subst first
    exact ⟨0, Nat.zero_le limit, Linked.start.depthOf?_root⟩

/-- A change that leaves a node its name and its parent, and no children but its own. -/
structure Prunes (change : ArenaNode → ArenaNode) : Prop where
  name : ∀ node, (change node).name = node.name
  parent : ∀ node, (change node).parent = node.parent
  includes : ∀ node, (change node).includes.Sublist node.includes

/-- What is found after a change was there before, but for what the change does. -/
theorem Prunes.exists_of_update {change : ArenaNode → ArenaNode} (prunes : Prunes change)
    (found : (arena.update change parent).node? id = some node) :
    ∃ old, arena.node? id = some old ∧ node.name = old.name ∧ node.parent = old.parent ∧
      node.includes.Sublist old.includes := by
  rw [node?_update] at found
  split at found
  · rename_i same
    obtain ⟨old, foundOld, rfl⟩ := Option.map_eq_some_iff.mp found
    rw [same]
    exact ⟨old, foundOld, prunes.name old, prunes.parent old, prunes.includes old⟩
  · exact ⟨node, found, rfl, rfl, .refl _⟩

/-- What was there before a change is found after it. -/
theorem Prunes.exists_update {change : ArenaNode → ArenaNode} (prunes : Prunes change)
    (parent : Nat) (found : arena.node? id = some node) :
    ∃ new, (arena.update change parent).node? id = some new ∧ new.name = node.name ∧
      new.parent = node.parent := by
  rw [node?_update]
  split
  · rename_i same
    rw [← same, found]
    exact ⟨change node, rfl, prunes.name node, prunes.parent node⟩
  · exact ⟨node, found, rfl, rfl⟩

theorem Linked.update {change : ArenaNode → ArenaNode} (linked : arena.Linked)
    (prunes : Prunes change) (parent : Nat) : (arena.update change parent).Linked where
  root := by
    obtain ⟨root, found, none⟩ := linked.root
    obtain ⟨new, foundNew, -, parentOf⟩ := prunes.exists_update parent found
    exact ⟨new, foundNew, parentOf.trans none⟩
  parent := by
    intro id node found notRoot
    obtain ⟨old, foundOld, -, same, -⟩ := prunes.exists_of_update found
    rw [same]
    exact linked.parent foundOld notRoot
  included := by
    intro id child node found member
    obtain ⟨old, foundOld, -, -, fewer⟩ := prunes.exists_of_update found
    obtain ⟨below, foundBelow, parentOf, named⟩ := linked.included foundOld (fewer.subset member)
    obtain ⟨new, foundNew, name, parentOfNew⟩ := prunes.exists_update parent foundBelow
    exact ⟨new, foundNew, parentOfNew.trans parentOf, by rwa [name]⟩
  once := by
    intro id node found
    obtain ⟨old, foundOld, -, -, fewer⟩ := prunes.exists_of_update found
    exact (linked.once foundOld).sublist fewer
  names := by
    intro id first second node one two found memberFirst memberSecond foundOne foundTwo same
    obtain ⟨old, foundOld, -, -, fewer⟩ := prunes.exists_of_update found
    obtain ⟨oldOne, foundOldOne, nameOne, -, -⟩ := prunes.exists_of_update foundOne
    obtain ⟨oldTwo, foundOldTwo, nameTwo, -, -⟩ := prunes.exists_of_update foundTwo
    rw [nameOne, nameTwo] at same
    exact linked.names foundOld (fewer.subset memberFirst) (fewer.subset memberSecond)
      foundOldOne foundOldTwo same

theorem WellFormed.update {change : ArenaNode → ArenaNode} (wellFormed : arena.WellFormed limit)
    (prunes : Prunes change) (parent : Nat) : (arena.update change parent).WellFormed limit where
  toLinked := wellFormed.toLinked.update prunes parent
  depth := by
    intro id inside
    rw [length_update] at inside
    obtain ⟨depth, small, found⟩ := wellFormed.depth inside
    refine ⟨depth, small, ?_⟩
    rw [wellFormed.depthOf?_congr _ inside]
    · exact found
    · intro other node foundNode
      obtain ⟨new, foundNew, -, parentOf⟩ := prunes.exists_update parent foundNode
      exact ⟨new, foundNew, parentOf⟩

/-! ### New children -/

section AddInclude

variable {name : String}

theorem node?_addInclude (inside : parent < arena.nodes.length) (name : String) (id : Nat) :
    (arena.addInclude parent name).1.node? id =
      if id = arena.nodes.length then some ⟨name, some parent, {}, []⟩
      else (arena.node? id).map fun node =>
        if id = parent then { node with includes := node.includes ++ [arena.nodes.length] }
        else node := by
  rw [addInclude, node?_update, node?_push, node?_push]
  by_cases last : id = arena.nodes.length
  · have notParent : id ≠ parent := by omega
    simp [last, last ▸ notParent]
  · have old : parent ≠ arena.nodes.length := by omega
    by_cases same : id = parent
    · simp [same, old]
    · simp [last, same]

/-- What is found beside a new child was there before. -/
theorem exists_of_addInclude (inside : parent < arena.nodes.length)
    (found : (arena.addInclude parent name).1.node? id = some node) :
    (id = arena.nodes.length ∧ node = ⟨name, some parent, {}, []⟩) ∨
      ∃ old, arena.node? id = some old ∧ node.name = old.name ∧ node.parent = old.parent ∧
        (node.includes = old.includes ∨
          id = parent ∧ node.includes = old.includes ++ [arena.nodes.length]) := by
  rw [node?_addInclude inside] at found
  split at found
  · rename_i last
    exact .inl ⟨last, (Option.some.inj found).symm⟩
  · obtain ⟨old, foundOld, rfl⟩ := Option.map_eq_some_iff.mp found
    refine .inr ⟨old, foundOld, ?_⟩
    split
    · rename_i same
      exact ⟨rfl, rfl, .inr ⟨same, rfl⟩⟩
    · exact ⟨rfl, rfl, .inl rfl⟩

theorem exists_addInclude (inside : parent < arena.nodes.length) (name : String)
    (found : arena.node? id = some node) :
    ∃ new, (arena.addInclude parent name).1.node? id = some new ∧ new.name = node.name ∧
      new.parent = node.parent := by
  have notLast : id ≠ arena.nodes.length := Nat.ne_of_lt (lt_length_of_node? found)
  rw [node?_addInclude inside, if_neg notLast, found, Option.map_some]
  split <;> exact ⟨_, rfl, rfl, rfl⟩

theorem length_addInclude (arena : Arena) (parent : Nat) (name : String) :
    (arena.addInclude parent name).1.nodes.length = arena.nodes.length + 1 := by
  simp [addInclude]

/-- The numbers of children that were there before are old ones. -/
theorem Linked.lt_length_of_mem (linked : arena.Linked) (found : arena.node? id = some node)
    (member : child ∈ node.includes) : child < arena.nodes.length := by
  obtain ⟨below, foundBelow, -⟩ := linked.included found member
  exact lt_length_of_node? foundBelow

/-- A child is an old one or the new one. -/
theorem mem_of_addInclude (inside : parent < arena.nodes.length)
    (found : (arena.addInclude parent name).1.node? id = some node)
    (member : child ∈ node.includes) :
    (∃ old, arena.node? id = some old ∧ child ∈ old.includes) ∨
      id = parent ∧ child = arena.nodes.length := by
  obtain ⟨-, rfl⟩ | ⟨old, foundOld, -, -, listed⟩ := exists_of_addInclude inside found
  · cases member
  · obtain same | ⟨same, more⟩ := listed
    · exact .inl ⟨old, foundOld, same ▸ member⟩
    · rw [more, List.mem_append, List.mem_singleton] at member
      exact member.imp (fun memberOld => ⟨old, foundOld, memberOld⟩) fun last => ⟨same, last⟩

/-- Old children keep their names. -/
theorem Linked.exists_of_mem_addInclude (linked : arena.Linked)
    (inside : parent < arena.nodes.length) (found : arena.node? id = some node)
    (member : child ∈ node.includes) {later : ArenaNode}
    (foundLater : (arena.addInclude parent name).1.node? child = some later) :
    ∃ below, arena.node? child = some below ∧ below.name = later.name := by
  obtain ⟨below, foundBelow, -⟩ := linked.included found member
  obtain ⟨new, foundNew, same, -⟩ := exists_addInclude inside name foundBelow
  rw [foundLater] at foundNew
  cases foundNew
  exact ⟨below, foundBelow, same.symm⟩

/-- Where none was found, no child has the name. -/
theorem findInclude?_eq_none (absent : arena.findInclude? id name = none)
    (found : arena.node? id = some node) :
    ∀ child ∈ node.includes, ∀ below, arena.node? child = some below → below.name ≠ name := by
  rw [findInclude?, found, Option.bind_some, List.find?_eq_none] at absent
  intro child member below foundBelow same
  apply absent child member
  rw [foundBelow]
  simpa using same

theorem node?_addInclude_length (inside : parent < arena.nodes.length) (name : String) :
    (arena.addInclude parent name).1.node? arena.nodes.length =
      some ⟨name, some parent, {}, []⟩ := by
  rw [node?_addInclude inside, if_pos rfl]

/-- Children are still told apart by their names: two old ones as before, and the new one from each
of them. -/
theorem Linked.names_addInclude (linked : arena.Linked) (found : arena.node? parent = some node)
    (absent : arena.findInclude? parent name = none) {first second : Nat} {entry one two : ArenaNode}
    (foundEntry : (arena.addInclude parent name).1.node? id = some entry)
    (memberFirst : first ∈ entry.includes) (memberSecond : second ∈ entry.includes)
    (foundOne : (arena.addInclude parent name).1.node? first = some one)
    (foundTwo : (arena.addInclude parent name).1.node? second = some two)
    (same : one.name = two.name) : first = second := by
  have inside := lt_length_of_node? found
  have other : ∀ {child : Nat} {old one two : ArenaNode}, arena.node? parent = some old →
      child ∈ old.includes → (arena.addInclude parent name).1.node? child = some one →
      (arena.addInclude parent name).1.node? arena.nodes.length = some two →
      one.name ≠ two.name := by
    intro child old one two foundOld member foundOne foundTwo same
    obtain ⟨below, foundBelow, sameName⟩ :=
      linked.exists_of_mem_addInclude inside foundOld member foundOne
    rw [node?_addInclude_length inside] at foundTwo
    cases foundTwo
    rw [found] at foundOld
    cases foundOld
    exact findInclude?_eq_none absent found child member below foundBelow (sameName.trans same)
  obtain ⟨old, foundOld, memberOld⟩ | ⟨rfl, rfl⟩ := mem_of_addInclude inside foundEntry memberFirst
  · obtain ⟨again, foundAgain, memberAgain⟩ | ⟨rfl, rfl⟩ :=
      mem_of_addInclude inside foundEntry memberSecond
    · obtain ⟨belowOne, foundBelowOne, sameOne⟩ :=
        linked.exists_of_mem_addInclude inside foundOld memberOld foundOne
      obtain ⟨belowTwo, foundBelowTwo, sameTwo⟩ :=
        linked.exists_of_mem_addInclude inside foundAgain memberAgain foundTwo
      rw [foundOld] at foundAgain
      cases foundAgain
      exact linked.names foundOld memberOld memberAgain foundBelowOne foundBelowTwo
        (by rw [sameOne, sameTwo, same])
    · exact absurd same (other foundOld memberOld foundOne foundTwo)
  · obtain ⟨again, foundAgain, memberAgain⟩ | ⟨-, rfl⟩ :=
      mem_of_addInclude inside foundEntry memberSecond
    · exact absurd same.symm (other foundAgain memberAgain foundTwo foundOne)
    · rfl

/-- A new child of a node is linked to it, if no other child has the name. -/
theorem Linked.addInclude (linked : arena.Linked) (found : arena.node? parent = some node)
    (named : name ≠ "")
    (absent : arena.findInclude? parent name = none) : (arena.addInclude parent name).1.Linked := by
  have inside := lt_length_of_node? found
  have blank := node?_addInclude_length inside name
  refine ⟨?_, ?_, ?_, ?_, ?_⟩
  · obtain ⟨root, foundRoot, none⟩ := linked.root
    obtain ⟨new, foundNew, -, parentOf⟩ := exists_addInclude inside name foundRoot
    exact ⟨new, foundNew, parentOf.trans none⟩
  · intro id other foundOther notRoot
    obtain ⟨rfl, rfl⟩ | ⟨old, foundOld, -, same, -⟩ := exists_of_addInclude inside foundOther
    · exact ⟨parent, inside, rfl⟩
    · rw [same]
      exact linked.parent foundOld notRoot
  · intro id child other foundOther member
    obtain ⟨old, foundOld, memberOld⟩ | ⟨rfl, rfl⟩ := mem_of_addInclude inside foundOther member
    · obtain ⟨below, foundBelow, parentOf, namedBelow⟩ := linked.included foundOld memberOld
      obtain ⟨new, foundNew, name, parentOfNew⟩ := exists_addInclude inside name foundBelow
      exact ⟨new, foundNew, parentOfNew.trans parentOf, by rwa [name]⟩
    · exact ⟨_, blank, rfl, named⟩
  · intro id other foundOther
    obtain ⟨-, rfl⟩ | ⟨old, foundOld, -, -, listed⟩ := exists_of_addInclude inside foundOther
    · exact List.nodup_nil
    · have once := linked.once foundOld
      obtain same | ⟨-, more⟩ := listed
      · rwa [same]
      · rw [more, List.nodup_append]
        refine ⟨once, by simp, ?_⟩
        intro child member last memberLast
        have old := linked.lt_length_of_mem foundOld member
        rw [List.mem_singleton.mp memberLast]
        omega
  · exact fun entry first second => linked.names_addInclude found absent entry first second

/-- Nodes that were there before stay at their depths. -/
theorem Linked.depthOf?_addInclude_old (linked : arena.Linked) (inside : parent < arena.nodes.length)
    (old : id < arena.nodes.length) :
    (arena.addInclude parent name).1.depthOf? id = arena.depthOf? id := by
  apply linked.depthOf?_congr _ old
  intro other node found
  obtain ⟨new, foundNew, -, parentOf⟩ := exists_addInclude inside name found
  exact ⟨new, foundNew, parentOf⟩

/-- A new child is one level below its parent. -/
theorem Linked.depthOf?_addInclude (linked : arena.Linked) (found : arena.node? parent = some node)
    (named : name ≠ "") (absent : arena.findInclude? parent name = none) {depth : Nat}
    (above : arena.depthOf? parent = some depth) :
    (arena.addInclude parent name).1.depthOf? (arena.addInclude parent name).2 =
      some (depth + 1) := by
  have inside := lt_length_of_node? found
  have aboveLater : (arena.addInclude parent name).1.depthOf? parent = some depth :=
    (linked.depthOf?_addInclude_old inside inside).trans above
  exact (linked.addInclude found named absent).depthOf?_of_parent
    (node?_addInclude_length inside name) rfl aboveLater

theorem WellFormed.addInclude (wellFormed : arena.WellFormed limit)
    (found : arena.node? parent = some node) (named : name ≠ "")
    (absent : arena.findInclude? parent name = none) {depth : Nat}
    (above : arena.depthOf? parent = some depth) (shallow : depth + 1 ≤ limit) :
    (arena.addInclude parent name).1.WellFormed limit where
  toLinked := wellFormed.toLinked.addInclude found named absent
  depth := by
    intro id inside
    rw [length_addInclude] at inside
    by_cases last : id = arena.nodes.length
    · subst last
      exact ⟨depth + 1, shallow, wellFormed.depthOf?_addInclude found named absent above⟩
    · have old : id < arena.nodes.length := by omega
      obtain ⟨levels, small, foundLevels⟩ := wellFormed.depth old
      refine ⟨levels, small, ?_⟩
      rw [wellFormed.depthOf?_addInclude_old (lt_length_of_node? found) old, foundLevels]

end AddInclude

end Arena

end QueryGate
