import QueryGate.Proofs.Arena.Tree
import QueryGate.Proofs.Request.Edit

/-!
# Changes of a stored request

What a scanner does to a request along a path it does to an arena at a number. If the arena
stores the request before, it stores the changed request afterwards.
-/

namespace QueryGate

namespace Request

theorem keepsNumber_terms (change : Terms → Terms) :
    KeepsNumber fun node => { node with terms := change node.terms } :=
  fun _ => rfl

theorem keepsNumber_addChild (child : Request) : KeepsNumber (addChild child) := fun _ => rfl

theorem keepsNumber_removeChild (name : String) : KeepsNumber (removeChild name) := fun _ => rfl

theorem keepsName_addChild (child : Request) : KeepsName (addChild child) := fun _ => rfl

theorem keepsName_removeChild (name : String) : KeepsName (removeChild name) := fun _ => rfl

variable {request node child : Request} {path other : Path} {name : String} {number : Nat}

theorem child?_addChild_of_none (absent : request.child? child.name = none) (name : String) :
    (addChild child request).child? name =
      if name = child.name then some child else request.child? name := by
  rw [child?_addChild]
  by_cases same : name = child.name
  · simp [same, absent]
  · simp [same, Ne.symm same]

theorem Leads.updateTerms (leads : request.Leads other number)
    (found : request.at? path = some node)
    (change : Terms → Terms) : (request.updateTerms change path).Leads other number := by
  apply leads.update (Edit.keepsName_terms change) (keepsNumber_terms change) found
  intro rest below leadsBelow
  obtain ⟨after, foundAfter, same⟩ := leadsBelow
  cases rest with
  | nil =>
      cases foundAfter
      exact ⟨_, rfl, same⟩
  | cons name rest => exact ⟨after, foundAfter, same⟩

theorem Leads.addChild (leads : request.Leads other number) (found : request.at? path = some node)
    (absent : node.child? child.name = none) :
    (request.update (Request.addChild child) path).Leads other number := by
  apply leads.update (keepsName_addChild child) (keepsNumber_addChild child) found
  intro rest below leadsBelow
  obtain ⟨after, foundAfter, same⟩ := leadsBelow
  cases rest with
  | nil =>
      cases foundAfter
      exact ⟨_, rfl, same⟩
  | cons name rest =>
      refine ⟨after, ?_, same⟩
      have old : name ≠ child.name := by
        intro taken
        rw [taken, at?, absent] at foundAfter
        cases foundAfter
      rw [at?, child?_addChild_of_none absent, if_neg old]
      exact foundAfter

theorem leads_addChild (found : request.at? path = some node)
    (absent : node.child? child.name = none) :
    (request.update (Request.addChild child) path).Leads (path ++ [child.name]) child.number := by
  refine ⟨child, ?_, rfl⟩
  rw [at?_update_append (keepsName_addChild child), found, Option.bind_some, at?,
    child?_addChild_of_none absent, if_pos rfl]
  rfl

theorem Distinct.size_updateTerms (distinct : request.Distinct)
    (found : request.at? path = some node) (change : Terms → Terms) :
    (request.updateTerms change path).size = request.size := by
  have grown : (request.updateTerms change path).size + node.size =
      request.size + ({ node with terms := change node.terms } : Request).size :=
    distinct.size_update found
  have same : ({ node with terms := change node.terms } : Request).size = node.size := by
    rw [size_eq, size_eq node]
  omega

theorem Distinct.size_addChild (distinct : request.Distinct) (found : request.at? path = some node)
    (number : Nat) (name : String) :
    (request.update (Request.addChild (.blank number name)) path).size = request.size + 1 := by
  have grown : (request.update (Request.addChild (.blank number name)) path).size + node.size =
      request.size + (Request.addChild (.blank number name) node).size :=
    distinct.size_update found
  have added : (Request.addChild (.blank number name) node).size = node.size + 1 := by
    rw [size_eq, size_eq node]
    simp only [Request.addChild, sizeAll_eq_sum, List.map_append, List.map_singleton,
      List.sum_append, List.sum_singleton]
    rfl
  omega

theorem Distinct.size_removeChild_le (distinct : request.Distinct)
    (found : request.at? path = some node) (name : String) :
    (request.update (Request.removeChild name) path).size ≤ request.size := by
  have shrunk : (request.update (Request.removeChild name) path).size + node.size =
      request.size + (node.removeChild name).size :=
    distinct.size_update found
  have fewer : (node.removeChild name).size ≤ node.size := by
    have sublist : ((node.removeChild name).includes.map size).Sublist (node.includes.map size) :=
      List.filter_sublist.map size
    rw [size_eq, size_eq node, sizeAll_eq_sum, sizeAll_eq_sum]
    exact Nat.add_le_add_left (sublist.sum_le_sum fun _ _ => Nat.zero_le _) 1
  omega

end Request

namespace Arena

namespace Stores

variable {arena later : Arena} {request node child : Request} {path : Path} {name : String}
  {limit : Nat} {change : Request → Request}

/-- A change of a node changes the entry of its number alone. -/
theorem update (stores : arena.Stores request) (linked : arena.Linked)
    (keepsName : Request.KeepsName change) (keepsNumber : Request.KeepsNumber change)
    (found : request.at? path = some node) (distinct : (change node).Distinct)
    (kept : ∀ {id : Nat} {entry : ArenaNode}, arena.node? id = some entry → id ≠ node.number →
      later.node? id = some entry)
    (changed : ∀ {rest : Path} {below : Request}, (change node).at? rest = some below →
      later.Shows below) : later.Stores (request.update change path) where
  root := (Request.number_update keepsNumber path request).trans stores.root
  distinct := stores.distinct.update_at found (keepsName node) distinct
  nodes := by
    intro other after foundAfter
    by_cases within : path <+: other
    · obtain ⟨rest, rfl⟩ := within
      rw [Request.at?_update_append keepsName, found] at foundAfter
      exact changed foundAfter
    · obtain ⟨before, foundBefore, top⟩ :=
        Request.exists_of_at?_update keepsName keepsNumber within foundAfter
      have different : before.number ≠ node.number := by
        intro same
        have samePath := stores.path_unique linked foundBefore found same
        exact within (samePath ▸ List.prefix_refl path)
      obtain ⟨parent, entry⟩ := stores.nodes foundBefore
      refine ⟨parent, ?_⟩
      rw [top.number, top.name, top.terms, top.includes]
      exact kept entry different

/-- What is below a node is untouched by a change of its entry. -/
theorem shows_below (stores : arena.Stores request) (linked : arena.Linked)
    (found : request.at? path = some node) {rest : Path} {below : Request}
    (foundBelow : node.at? (name :: rest) = some below)
    (kept : ∀ {id : Nat} {entry : ArenaNode}, arena.node? id = some entry → id ≠ node.number →
      later.node? id = some entry) : later.Shows below := by
  have foundThere : request.at? (path ++ name :: rest) = some below := by
    rw [Request.at?_append, found, Option.bind_some, foundBelow]
  have different : below.number ≠ node.number := by
    intro same
    have samePath := stores.path_unique linked foundThere found same
    simp at samePath
  obtain ⟨parent, entry⟩ := stores.nodes foundThere
  exact ⟨parent, kept entry different⟩

theorem updateTerms (stores : arena.Stores request) (linked : arena.Linked)
    (found : request.at? path = some node) (change : Terms → Terms) :
    (arena.updateTerms change node.number).Stores (request.updateTerms change path) := by
  have distinct := stores.distinct.at_path found
  have kept : ∀ {id : Nat} {entry : ArenaNode}, arena.node? id = some entry → id ≠ node.number →
      (arena.updateTerms change node.number).node? id = some entry := by
    intro id entry foundEntry different
    rw [Arena.updateTerms, node?_update, if_neg different, foundEntry]
  apply stores.update linked (Edit.keepsName_terms change) (Request.keepsNumber_terms change) found
    (.of_parts distinct.names distinct.children) kept
  intro rest below foundBelow
  cases rest with
  | nil =>
      cases foundBelow
      obtain ⟨parent, entry⟩ := stores.nodes found
      exact ⟨parent, by simp [Arena.updateTerms, node?_update, entry]⟩
  | cons name rest =>
      have foundBefore : node.at? (name :: rest) = some below := foundBelow
      exact stores.shows_below linked found foundBefore kept

/-- A new node at the end of the arena is a new child. -/
theorem addInclude (stores : arena.Stores request) (linked : arena.Linked)
    (found : request.at? path = some node) (absent : node.child? name = none) :
    (arena.addInclude node.number name).1.Stores
      (request.update (Request.addChild (.blank arena.nodes.length name)) path) := by
  obtain ⟨parent, entry⟩ := stores.nodes found
  have inside := lt_length_of_node? entry
  have kept : ∀ {id : Nat} {entry : ArenaNode}, arena.node? id = some entry → id ≠ node.number →
      (arena.addInclude node.number name).1.node? id = some entry := by
    intro id entry foundEntry different
    have old : id ≠ arena.nodes.length := Nat.ne_of_lt (lt_length_of_node? foundEntry)
    rw [node?_addInclude inside, if_neg old, foundEntry, Option.map_some, if_neg different]
  apply stores.update linked (Request.keepsName_addChild _) (Request.keepsNumber_addChild _) found
    ((stores.distinct.at_path found).addChild (.blank _ name) absent) kept
  intro rest below foundBelow
  cases rest with
  | nil =>
      cases foundBelow
      refine ⟨parent, ?_⟩
      have old : node.number ≠ arena.nodes.length := Nat.ne_of_lt inside
      rw [Request.addChild, node?_addInclude inside, if_neg old, entry]
      simp [Request.blank]
  | cons other rest =>
      rw [Request.at?, Request.child?_addChild_of_none absent, Request.blank_name] at foundBelow
      split at foundBelow
      · -- Below the new child there is nothing.
        cases rest with
        | nil =>
            cases foundBelow
            exact ⟨some node.number, node?_addInclude_length inside name⟩
        | cons next rest => cases foundBelow
      · have foundBefore : node.at? (other :: rest) = some below := foundBelow
        exact stores.shows_below linked found foundBefore kept

/-- Two children of a node have the same number exactly if they have the same name. -/
theorem number_eq_iff (stores : arena.Stores request) (linked : arena.Linked)
    (found : request.at? path = some node) {other : Request} (member : other ∈ node.includes)
    (foundChild : node.child? name = some child) :
    other.number = child.number ↔ other.name = name := by
  constructor
  · intro same
    have samePath := stores.path_unique linked (stores.at?_of_mem found member)
      (Request.at?_child found foundChild) same
    simpa using samePath
  · intro named
    have again := (stores.distinct.at_path found).child?_eq_some member
    rw [named, foundChild] at again
    cases again
    rfl

/-- A node that is detached is no child any more. -/
theorem detachInclude (stores : arena.Stores request) (linked : arena.Linked)
    (found : request.at? path = some node) (foundChild : node.child? name = some child) :
    (arena.detachInclude node.number child.number).Stores
      (request.update (Request.removeChild name) path) := by
  have kept : ∀ {id : Nat} {entry : ArenaNode}, arena.node? id = some entry → id ≠ node.number →
      (arena.detachInclude node.number child.number).node? id = some entry := by
    intro id entry foundEntry different
    rw [Arena.detachInclude, node?_update, if_neg different, foundEntry]
  apply stores.update linked (Request.keepsName_removeChild name)
    (Request.keepsNumber_removeChild name) found
    ((stores.distinct.at_path found).removeChild name) kept
  intro rest below foundBelow
  cases rest with
  | nil =>
      cases foundBelow
      obtain ⟨parent, entry⟩ := stores.nodes found
      refine ⟨parent, ?_⟩
      have others : (node.includes.map Request.number).filter (· != child.number) =
          (node.includes.filter fun other => other.name != name).map Request.number := by
        rw [List.filter_map]
        congr 1
        apply List.filter_congr
        intro other member
        have same := stores.number_eq_iff linked found member foundChild
        rw [Function.comp_apply, Bool.eq_iff_iff, bne_iff_ne, bne_iff_ne, ne_eq, ne_eq, same]
      simp [Arena.detachInclude, node?_update, entry, Request.removeChild, others]
  | cons other rest =>
      by_cases same : other = name
      · rw [same, Request.at?, Request.child?_removeChild_self] at foundBelow
        cases foundBelow
      · rw [Request.at?, Request.child?_removeChild node same] at foundBelow
        have foundBefore : node.at? (other :: rest) = some below := foundBelow
        exact stores.shows_below linked found foundBefore kept

end Stores

/-! ### Relations that are attached -/

/-- A relation is attached at the end of a path: the arena stores the request with it, and the
nodes around it are where they were. -/
structure Attached (limit : Nat) (request : Request) (parent : Path) (name : String)
    (later : Request) (arena : Arena) (child : Nat) : Prop where
  linked : arena.Linked
  wellFormed : parent.length + 1 ≤ limit → arena.WellFormed limit
  stores : arena.Stores later
  leads : later.Leads (parent ++ [name]) child
  around : ∀ {path : Path} {number : Nat}, path <+: parent → request.Leads path number →
    later.Leads path number
  small : later.size ≤ arena.nodes.length

namespace Attached

variable {arena : Arena} {request node child : Request} {path : Path} {name : String} {limit : Nat}

/-- The depth of a relation that is attached is as the path says. -/
theorem depthOf?_eq {later : Request} {id : Nat}
    (attached : Attached limit request path name later arena id) :
    arena.depthOf? id = some (path.length + 1) := by
  obtain ⟨node, found, rfl⟩ := attached.leads
  rw [attached.stores.depthOf?_eq attached.linked found, List.length_append, List.length_singleton]

theorem existing (wellFormed : arena.WellFormed limit) (stores : arena.Stores request)
    (small : request.size ≤ arena.nodes.length) (found : request.at? path = some node)
    (foundChild : node.child? name = some child) :
    Attached limit request path name request arena child.number where
  linked := wellFormed.toLinked
  wellFormed := fun _ => wellFormed
  stores := stores
  leads := ⟨child, Request.at?_child found foundChild, rfl⟩
  around := fun _ leads => leads
  small := small

theorem added (wellFormed : arena.WellFormed limit) (stores : arena.Stores request)
    (small : request.size ≤ arena.nodes.length) (found : request.at? path = some node)
    (named : name ≠ "") (absent : node.child? name = none) :
    Attached limit request path name
      (request.update (Request.addChild (.blank arena.nodes.length name)) path)
      (arena.addInclude node.number name).1 (arena.addInclude node.number name).2 := by
  have linked := wellFormed.toLinked
  obtain ⟨_, entry⟩ := stores.nodes found
  have none : arena.findInclude? node.number name = none := by
    rw [stores.findInclude?_eq found, absent, Option.map_none]
  refine ⟨linked.addInclude entry named none, ?_, stores.addInclude linked found absent,
    Request.leads_addChild found absent, fun _ leads => leads.addChild found absent, ?_⟩
  · intro shallow
    exact wellFormed.addInclude entry named none (stores.depthOf?_eq linked found) shallow
  · rw [stores.distinct.size_addChild found, length_addInclude]
    omega

theorem replaced (wellFormed : arena.WellFormed limit) (stores : arena.Stores request)
    (small : request.size ≤ arena.nodes.length) (found : request.at? path = some node)
    (named : name ≠ "") (foundChild : node.child? name = some child) :
    Attached limit request path name
      ((request.update (Request.removeChild name) path).update
        (Request.addChild (.blank arena.nodes.length name)) path)
      ((arena.detachInclude node.number child.number).addInclude node.number name).1
      ((arena.detachInclude node.number child.number).addInclude node.number name).2 := by
  have prunes : Prunes fun entry : ArenaNode =>
      { entry with includes := entry.includes.filter (· != child.number) } :=
    ⟨fun _ => rfl, fun _ => rfl, fun _ => List.filter_sublist⟩
  have foundLater : (request.update (Request.removeChild name) path).at? path =
      some (node.removeChild name) := by
    have changed := Request.at?_update_append (Request.keepsName_removeChild name) path [] request
    rw [List.append_nil, found] at changed
    exact changed
  have absent : (node.removeChild name).child? name = none :=
    Request.child?_removeChild_self name node
  have length : (arena.detachInclude node.number child.number).nodes.length =
      arena.nodes.length := length_update _ _ _
  have fewer := stores.distinct.size_removeChild_le found name
  have attached := added (wellFormed.update prunes node.number)
    (stores.detachInclude wellFormed.toLinked found foundChild)
    (by rw [← detachInclude, length]; omega) foundLater named absent
  rw [← detachInclude, length] at attached
  refine ⟨attached.linked, attached.wellFormed, attached.stores, attached.leads, ?_,
    attached.small⟩
  intro around number before leads
  exact attached.around before (leads.update_around (Request.keepsName_removeChild name)
    (Request.keepsNumber_removeChild name) before)

end Attached

/-! ### Arenas without detached nodes -/

/-- Every node of the arena is in the request, and only once. -/
structure Whole (arena : Arena) (request : Request) : Prop where
  filled : ∀ id < arena.nodes.length, ∃ path, request.Leads path id
  size : request.size = arena.nodes.length

namespace Whole

variable {arena : Arena} {request node : Request} {path : Path} {name : String}

theorem start : Arena.start.Whole (.blank 0 Request.rootName) where
  filled := by
    intro id inside
    have first : id = 0 := by simpa [Arena.start] using inside
    exact ⟨[], _, rfl, first.symm⟩
  size := rfl

theorem updateTerms (whole : arena.Whole request) (distinct : request.Distinct)
    (found : request.at? path = some node) (change : Terms → Terms) (id : Nat) :
    (arena.updateTerms change id).Whole (request.updateTerms change path) where
  filled := by
    intro other inside
    rw [Arena.updateTerms, length_update] at inside
    obtain ⟨place, leads⟩ := whole.filled other inside
    exact ⟨place, leads.updateTerms found change⟩
  size := by
    rw [distinct.size_updateTerms found, Arena.updateTerms, length_update, whole.size]

theorem addInclude (whole : arena.Whole request) (distinct : request.Distinct)
    (found : request.at? path = some node) (absent : node.child? name = none) :
    (arena.addInclude node.number name).1.Whole
      (request.update (Request.addChild (.blank arena.nodes.length name)) path) where
  filled := by
    intro id inside
    rw [length_addInclude] at inside
    by_cases last : id = arena.nodes.length
    · rw [last]
      exact ⟨path ++ [name], Request.leads_addChild found absent⟩
    · obtain ⟨place, leads⟩ := whole.filled id (by omega)
      exact ⟨place, leads.addChild found absent⟩
  size := by
    rw [distinct.size_addChild found, length_addInclude, whole.size]

end Whole

/-! ### Arenas of a request -/

/-- The arena is well-formed and has the request in it. -/
structure Represents (options : ScanOptions) (request : Request) (arena : Arena) : Prop where
  wellFormed : arena.WellFormed options.maxDepth
  stores : arena.Stores request
  small : request.size ≤ arena.nodes.length
  /-- Only a relation that takes the place of another detaches a node. -/
  whole : options.duplicates ≠ .replace → arena.Whole request

/-- A change of a node that a path leads to is made in the request at the end of the path. -/
theorem Represents.updateTerms {options : ScanOptions} {request : Request} {arena : Arena}
    {path : Path} {id : Nat} (represents : arena.Represents options request)
    (leads : request.Leads path id) (change : Terms → Terms) :
    (arena.updateTerms change id).Represents options (request.updateTerms change path) := by
  obtain ⟨node, found, rfl⟩ := leads
  have prunes : Prunes fun entry : ArenaNode =>
      { entry with terms := change entry.terms } :=
    ⟨fun _ => rfl, fun _ => rfl, fun _ => .refl _⟩
  refine ⟨represents.wellFormed.update prunes node.number,
    represents.stores.updateTerms represents.wellFormed.toLinked found change, ?_, ?_⟩
  · rw [represents.stores.distinct.size_updateTerms found, Arena.updateTerms, length_update]
    exact represents.small
  · intro policy
    exact (represents.whole policy).updateTerms represents.stores.distinct found change node.number

end Arena

end QueryGate
