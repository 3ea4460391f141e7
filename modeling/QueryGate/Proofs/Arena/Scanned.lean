import Mathlib
import QueryGate.Proofs.Arena.Agreement
import QueryGate.Proofs.Plan.Node

/-!
# Arenas that are scanned

The arena of a scanner is well-formed after every character, so that depths, counts and the
canonical form can be computed. Whatever number the scanner holds is that of a node which the
root leads to: what is written next is not lost, also where relations have been replaced.
-/

namespace QueryGate

namespace Json

mutual

/-- The number of entities in a canonical form: its own and those that it includes. -/
def entities : Json → Nat
  | .object members => 1 + entitiesOfMembers members
  | _ => 0

/-- The number of entities that members include. -/
def entitiesOfMembers : List (String × Json) → Nat
  | [] => 0
  | (name, value) :: rest =>
      (if name = "includes" then value.entitiesListed else 0) + entitiesOfMembers rest

/-- The number of entities in a list. -/
def entitiesListed : Json → Nat
  | .array items => entitiesAll items
  | _ => 0

/-- The number of entities in several canonical forms. -/
def entitiesAll : List Json → Nat
  | [] => 0
  | item :: rest => item.entities + entitiesAll rest

end

end Json

namespace Request

mutual

/-- The canonical form has an entity for each node. -/
theorem entities_toJson : (request : Request) → request.toJson.entities = request.size
  | ⟨number, name, terms, includes⟩ => by
      have below := entitiesAll_toJsonAll includes
      simp [toJson, Terms.toJson, Json.entities, Json.entitiesOfMembers, Json.entitiesListed, below,
        size]

theorem entitiesAll_toJsonAll :
    (requests : List Request) → Json.entitiesAll (toJsonAll requests) = sizeAll requests
  | [] => rfl
  | request :: rest => by
      rw [toJsonAll, Json.entitiesAll, sizeAll, entities_toJson request, entitiesAll_toJsonAll rest]

end

variable {request node : Request} {path : Path}

theorem Distinct.at_node (distinct : request.Distinct) (reached : request.Node path node) :
    node.Distinct := by
  induction reached with
  | root => exact distinct
  | child member _ hypothesis => exact hypothesis (distinct.children _ member)

/-- Where the children of every node have different names, a path leads to one node. -/
theorem Distinct.at?_of_node (distinct : request.Distinct) (reached : request.Node path node) :
    request.at? path = some node := by
  induction reached with
  | root => rfl
  | child member _ hypothesis =>
      rw [Request.at?, distinct.child?_eq_some member]
      exact hypothesis (distinct.children _ member)

theorem node_of_at? (found : request.at? path = some node) : request.Node path node := by
  induction path generalizing request with
  | nil =>
      cases found
      exact .root _
  | cons name path hypothesis =>
      obtain ⟨child, first, later⟩ := Option.bind_eq_some_iff.mp found
      cases name_of_child? first
      exact .child (mem_of_child? first) (hypothesis later)

/-- No node of a plan includes a relation twice. -/
theorem Distinct.nodup_of_plan {options : PlanOptions} {filter : Filter} {plan own : Plan}
    (distinct : request.Distinct) (planned : request.plan options filter = .ok plan)
    (reached : plan.Node path own) : (own.includes.map Prod.fst).Nodup := by
  obtain ⟨_, source, -, reachedSource, made⟩ := origin_of_node planned reached
  have pairs := planIncludes_eq_ok_iff.mp (plan_eq_ok_iff.mp made).children
  rw [map_eq_map_of_pairs (pairs.imp fun _ _ pair => pair.1)]
  exact (distinct.at_node reachedSource).names

end Request

namespace Arena

/-- What holds of the arena of every scanner. -/
structure Sound (options : ScanOptions) (arena : Arena) : Prop
    extends WellFormed options.maxDepth arena where
  /-- The canonical form can be built, and has as many entities as there are nodes to count. -/
  counted : ∃ form, arena.toJson? = some form ∧ arena.nodeCount? = some form.entities
  /-- Unless relations are replaced, all nodes are counted and none is detached. -/
  complete : options.duplicates ≠ .replace →
    arena.nodeCount? = some arena.nodes.length ∧ ∀ id < arena.nodes.length, arena.Reaches id

theorem Represents.request?_root {options : ScanOptions} {request : Request} {arena : Arena}
    (represents : arena.Represents options request) : arena.request? 0 = some request :=
  represents.stores.request?_root represents.wellFormed.toLinked

theorem Represents.sound {options : ScanOptions} {request : Request} {arena : Arena}
    (represents : arena.Represents options request) : arena.Sound options where
  toWellFormed := represents.wellFormed
  counted := by
    refine ⟨request.toJson, represents.stores.toJson?_eq represents.wellFormed.toLinked, ?_⟩
    rw [request.entities_toJson, represents.stores.nodeCount?_eq represents.small]
  complete := by
    intro policy
    have whole := represents.whole policy
    refine ⟨by rw [represents.stores.nodeCount?_eq represents.small, whole.size], ?_⟩
    intro id inside
    obtain ⟨path, node, found, rfl⟩ := whole.filled id inside
    exact represents.stores.reaches found

end Arena

variable {options : ScanOptions} {text : String}

/-- Both scanners come through a text. -/
theorem exists_agrees_of_run {numbered : ArenaState}
    (ran : ArenaState.run options {} text.toList = .ok numbered) :
    ∃ state, ScanState.run options {} text.toList = .ok state ∧ state.Agrees options numbered ∧
      state.control.Sound := by
  have together := (ScanState.Agrees.start options).run .start distinct_start text.toList
  rw [ran] at together
  generalize ScanState.run options {} text.toList = result at together ⊢
  cases together with
  | ok same => exact ⟨_, rfl, same⟩

/-- A text is scanned into an arena as it is scanned into a request. -/
theorem together_scan (options : ScanOptions) (text : String) :
    Together (fun request arena => arena.Represents options request) (scan options text)
      (scanArena options text) := by
  apply ((ScanState.Agrees.start options).run .start distinct_start text.toList).bind
  intro state numbered both
  obtain ⟨agrees, sound⟩ := both
  exact agrees.finish sound

/-- What is scanned into an arena is scanned into a request as well, which the arena holds. -/
theorem exists_represents_of_scanArena {arena : Arena}
    (scanned : scanArena options text = .ok arena) :
    ∃ request, scan options text = .ok request ∧ arena.Represents options request := by
  have together := together_scan options text
  rw [scanned] at together
  generalize scan options text = result at together
  cases together with
  | ok represents => exact ⟨_, rfl, represents⟩

theorem exists_represents_of_scan {request : Request}
    (scanned : scan options text = .ok request) :
    ∃ arena, scanArena options text = .ok arena ∧ arena.Represents options request := by
  have together := together_scan options text
  rw [scanned] at together
  generalize scanArena options text = result at together
  cases together with
  | ok represents => exact ⟨_, rfl, represents⟩

/-- No node of a request that is scanned includes a relation twice. -/
theorem distinct_of_scan {request : Request} (scanned : scan options text = .ok request) :
    request.Distinct := by
  obtain ⟨_, -, represents⟩ := exists_represents_of_scan scanned
  exact represents.stores.distinct

theorem number_of_scan {request : Request} (scanned : scan options text = .ok request) :
    request.number = 0 := by
  obtain ⟨_, -, represents⟩ := exists_represents_of_scan scanned
  exact represents.stores.root

/-- After each character of a text and at its end, an arena is well-formed: its depths, its count
and its canonical form are there. The request in it is the one that the text denotes, and no plan
of that includes a relation twice at one node. -/
theorem sound_scanArena (options : ScanOptions) (text : String) :
    (∀ state, ArenaState.run options {} text.toList = .ok state → state.arena.Sound options) ∧
      (∀ arena, scanArena options text = .ok arena → arena.Sound options) ∧
      (scanArena options text).map (fun arena => arena.request? 0) =
        (scan options text).map some ∧
      ∀ request planning filter plan, scan options text = .ok request →
        request.plan planning filter = .ok plan →
        ∀ path node, plan.Node path node → (node.includes.map Prod.fst).Nodup := by
  have together := together_scan options text
  refine ⟨?_, ?_, ?_, ?_⟩
  · intro state ran
    obtain ⟨_, -, agrees, -⟩ := exists_agrees_of_run ran
    exact agrees.sound
  · intro arena scanned
    rw [scanned] at together
    generalize scan options text = result at together
    cases together with
    | ok represents => exact represents.sound
  · generalize scan options text = result, scanArena options text = resultArena at together
    cases together with
    | ok represents => exact congrArg Except.ok represents.request?_root
    | error fault => rfl
  · intro request planning filter plan scanned planned path node reached
    rw [scanned] at together
    generalize scanArena options text = resultArena at together
    cases together with
    | ok represents => exact represents.stores.distinct.nodup_of_plan planned reached

theorem sound_scanArena_replace :
    let options : ScanOptions := { duplicates := .replace }
    let text := "includes=comments(author=a),comments"
    ∃ state arena request plan, ArenaState.run options {} text.toList = .ok state ∧
      scanArena options text = .ok arena ∧ arena.nodes.length = 3 ∧ request.size = 2 ∧
      scan options text = .ok request ∧ request.plan {} .articles = .ok plan ∧
      state.arena.Sound options ∧ arena.Sound options ∧ (plan.includes.map Prod.fst).Nodup := by
  intro options text
  let old : ArenaNode := ⟨"comments", some 0, { predicates := [("author", .literal "a")] }, []⟩
  let new : ArenaNode := ⟨"comments", some 0, {}, []⟩
  let state : ArenaState :=
    { position := 36
      arena := ⟨[⟨"root", none, {}, [1]⟩, old]⟩
      token := "comments"
      tokenStart := 28
      mode := .relations (.start 0) }
  let request : Request := ⟨0, "root", {}, [⟨2, "comments", {}, []⟩]⟩
  let comments : Plan := ⟨"comments", ["author"], none, [], none, none, none, []⟩
  let plan : Plan :=
    ⟨"articles", ["id", "title", "author"], some [("published", .equals (.bool true))],
      [("comments", comments)], none, some 10, none, []⟩
  have ran : ArenaState.run options {} text.toList = .ok state := by cbv
  have scannedArena : scanArena options text = .ok ⟨[⟨"root", none, {}, [2]⟩, old, new]⟩ := by cbv
  have scanned : scan options text = .ok request := by cbv
  have planned : request.plan {} .articles = .ok plan := by cbv
  obtain ⟨soundState, soundArena, -, plans⟩ := sound_scanArena options text
  exact ⟨state, _, request, plan, ran, scannedArena, rfl, rfl, scanned, planned,
    soundState state ran, soundArena _ scannedArena,
    plans request {} .articles plan scanned planned [] plan (.root plan)⟩

/-! ### What the root leads to -/

namespace ArenaState

/-- The innermost open relation, or the root where none is open. -/
def innermost (state : ArenaState) : Nat :=
  match state.frames with
  | [] => 0
  | frame :: _ => frame.relation

/-- The root leads to every node that is held. -/
structure Rooted (state : ArenaState) : Prop where
  cursor : state.arena.Reaches state.cursor
  frames : ∀ frame ∈ state.frames, state.arena.Reaches frame.relation ∧
    state.arena.Reaches frame.resume.anchor ∧ state.arena.Reaches frame.resume.chain
  place : ∀ place, state.mode = .relations place → state.arena.Reaches place.anchor ∧
    state.arena.Reaches place.chain ∧
    ∀ relation, place.closed = some relation → state.arena.Reaches relation

end ArenaState

theorem Request.Leads.unique {request : Request} {path : Path} {number other : Nat}
    (leads : request.Leads path number) (again : request.Leads path other) : number = other := by
  obtain ⟨node, found, rfl⟩ := leads
  obtain ⟨second, foundSecond, rfl⟩ := again
  rw [found] at foundSecond
  cases foundSecond
  rfl

theorem ScanState.Agrees.rooted {state : ScanState} {numbered : ArenaState}
    (agrees : state.Agrees options numbered) : numbered.Rooted := by
  have reaches : ∀ {path : Path} {number : Nat}, state.request.Leads path number →
      numbered.arena.Reaches number := by
    intro path number leads
    obtain ⟨node, found, same⟩ := leads
    rw [← same]
    exact agrees.stores.reaches found
  refine ⟨reaches agrees.cursor, ?_, ?_⟩
  · intro frame member
    obtain ⟨_, -, same⟩ := exists_of_mem_right agrees.frames member
    exact ⟨reaches same.relation, reaches same.anchor, reaches same.chain⟩
  · intro place mode
    have same := agrees.mode
    rw [mode] at same
    generalize state.mode = modePath at same
    cases same with
    | @relations place _ agree =>
        refine ⟨reaches agree.anchor, reaches agree.chain, ?_⟩
        intro relation closed
        have behind := agree.closed
        rw [closed] at behind
        generalize place.closed = closedPath at behind
        cases behind with
        | some leads => exact reaches leads

/-- Parameters are given to the innermost open relation. -/
theorem ScanState.Agrees.cursor_eq {state : ScanState} {numbered : ArenaState}
    (agrees : state.Agrees options numbered) (sound : state.control.Sound) :
    numbered.cursor = numbered.innermost := by
  have stacked : Control.Stacked state.cursor state.frames := sound.stacked
  have frames := agrees.frames
  have cursor := agrees.cursor
  rw [ArenaState.innermost]
  generalize state.frames = around, numbered.frames = aroundNumbered at frames stacked
  cases frames with
  | nil =>
      have outermost : state.cursor = [] := stacked
      have root : state.request.Leads state.cursor 0 := by
        rw [outermost]
        exact ⟨state.request, rfl, agrees.stores.root⟩
      exact cursor.unique root
  | @cons frame frameNumbered _ _ same _ =>
      have innermost : frame.relation = state.cursor := stacked.1
      have relation := same.relation
      rw [innermost] at relation
      exact cursor.unique relation

/-- Whatever a scanner holds, the root leads to it, and what it gives to its current node is given
in the request to the innermost open relation, or to the root. -/
theorem rooted_of_run {state : ArenaState}
    (ran : ArenaState.run options {} text.toList = .ok state) :
    state.cursor = state.innermost ∧ state.Rooted ∧
      ∃ reading, ScanState.run options {} text.toList = .ok reading ∧
        state.arena.request? 0 = some reading.request ∧
        reading.request.Leads reading.cursor state.cursor ∧
        ∀ change, (state.updateTerms change).arena.request? 0 =
          some (reading.updateTerms change).request := by
  obtain ⟨reading, read, agrees, sound⟩ := exists_agrees_of_run ran
  refine ⟨agrees.cursor_eq sound, agrees.rooted, reading, read, agrees.request?_root,
    agrees.cursor, ?_⟩
  intro change
  exact (agrees.updateTerms change).request?_root

theorem rooted_of_run_replace :
    let options : ScanOptions := { duplicates := .replace }
    let text := "includes=comments(author=a),comments("
    ∃ state, ArenaState.run options {} text.toList = .ok state ∧ state.cursor = 2 ∧
      state.cursor = state.innermost ∧ state.Rooted := by
  intro options text
  let old : ArenaNode := ⟨"comments", some 0, { predicates := [("author", .literal "a")] }, []⟩
  let state : ArenaState :=
    { position := 37
      arena := ⟨[⟨"root", none, {}, [2]⟩, old, ⟨"comments", some 0, {}, []⟩]⟩
      cursor := 2
      tokenStart := 28
      frames := [⟨2, .start 0⟩] }
  have ran : ArenaState.run options {} text.toList = .ok state := by cbv
  obtain ⟨innermost, rooted, -⟩ := rooted_of_run ran
  exact ⟨state, ran, rfl, innermost, rooted⟩

end QueryGate
