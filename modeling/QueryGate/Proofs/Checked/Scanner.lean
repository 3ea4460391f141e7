import QueryGate.Proofs.Arena.Scanned
import QueryGate.Proofs.Checked.Expression

/-!
# Scanning with numbers of nodes

The scanner that knows nodes by their numbers looks a node up wherever it uses one: the parent of
a relation and its children, the nodes around a relation when their depth is counted, and the node
that terms are given to. It breaks off if there is no node of the number.

All numbers that it holds are those of nodes that paths lead to in the request that the arena
stores, also where relations take the place of others.
-/

namespace QueryGate

namespace Checked

variable {ε : Type}

/-- The first of some nodes that has a name. -/
def findAmong (arena : Arena) (name : String) : List Nat → Checked ε (Option Nat)
  | [] => return none
  | child :: rest => do
      let below ← node arena child
      if below.name == name then return some child else findAmong arena name rest

/-- The child of a node that has the given name. -/
def findInclude (arena : Arena) (id : Nat) (name : String) : Checked ε (Option Nat) := do
  let parent ← node arena id
  findAmong arena name parent.includes

/-- Makes a new last child. -/
def addInclude (arena : Arena) (parent : Nat) (name : String) : Checked ε (Arena × Nat) := do
  let _ ← node arena parent
  return arena.addInclude parent name

/-- Takes a child from its parent. -/
def detachInclude (arena : Arena) (parent child : Nat) : Checked ε Arena := do
  let _ ← node arena parent
  return arena.detachInclude parent child

/-- The child of a node that has the given name, as the policy says. -/
def attachTo (options : ScanOptions) (state : ArenaState) (parent : Nat) (name : String) :
    Checked QueryError (Arena × Nat) := do
  match ← findInclude state.arena parent name, options.duplicates with
  | none, _ => addInclude state.arena parent name
  | some existing, .merge => return (state.arena, existing)
  | some existing, .replace =>
      let arena ← detachInclude state.arena parent existing
      addInclude arena parent name
  | some _, .reject => throw ⟨state.tokenStart, .repeatedInclude name⟩

/-- Makes the token a relation of a node. -/
def attach (options : ScanOptions) (state : ArenaState) (parent : Nat) :
    Checked QueryError (ArenaState × Nat) := do
  let (arena, child) ← attachTo options state parent state.token
  let depth ← need (arena.depthOf? child)
  if options.maxDepth < depth then throw ⟨state.tokenStart, .tooDeep options.maxDepth⟩
  else return ({ state.dropToken with arena := arena }, child)

/-- Ends the entry of a list of relations. -/
def endRelation (options : ScanOptions) (state : ArenaState) (place : ArenaPlace) :
    Checked QueryError ArenaState :=
  if !state.token.isEmpty then Prod.fst <$> attach options state place.chain
  else of (state.endRelation options place)

/-- Ends a plain value and gives it to its parameter. The node is looked up before the value is
read. -/
def endValue (state : ArenaState) (parameter : Parameter) : Checked QueryError ArenaState := do
  let _ ← node state.arena state.cursor
  match parameter with
  | .fields =>
      let fields ← readFields state.tokenStart state.token.toList
      return state.dropToken.updateTerms fun terms => { terms with fields := fields }
  | .functions =>
      let functions ← readFunctions state.tokenStart state.token.toList
      return state.dropToken.updateTerms fun terms =>
        { terms with functions := terms.functions ++ functions }
  | parameter => of (state.endValue parameter)

/-- Reads a call whose last bracket has just been closed. -/
def endCall (state : ArenaState) (capture : Capture) : Checked QueryError ArenaState :=
  match capture.target with
  | .predicate name => do
      let condition ← readValue capture.start capture.text.toList
      let _ ← node state.arena state.cursor
      return (state.setPredicate name condition).enter .afterCall
  | .group => do
      let (joining, condition) ← readGroup capture.start capture.text.toList
      let _ ← node state.arena state.cursor
      return (state.setPredicate joining.word condition).enter .afterCall
  | .functions => of (state.endCall capture)

/-- A character in a plain value. -/
def valueChar (state : ArenaState) (parameter : Parameter) (char : Char) :
    Checked QueryError ArenaState :=
  match char with
  | '&' => do
      let state ← endValue state parameter
      return state.enter .name
  | ')' => do
      let state ← endValue state parameter
      of (state.enter .name).closeRelation
  | char => of (state.valueChar parameter char)

/-- A character in a list of relations. -/
def relationChar (options : ScanOptions) (state : ArenaState) (place : ArenaPlace) (char : Char) :
    Checked QueryError ArenaState :=
  match char with
  | '(' =>
      if state.token.isEmpty then of (state.relationChar options place '(')
      else do
        let (state, relation) ← attach options state place.chain
        let frame : ArenaFrame := ⟨relation, { place with closed := none }⟩
        return { state with frames := frame :: state.frames, cursor := relation, mode := .name }
  | '.' =>
      if state.token.isEmpty then of (state.relationChar options place '.')
      else do
        let (state, relation) ← attach options state place.chain
        return state.enter (.relations ⟨place.anchor, relation, none⟩)
  | ',' => do
      let state ← endRelation options state place
      return state.enter (.relations (ArenaPlace.start place.anchor))
  | '&' => do
      let state ← endRelation options state place
      return { state with cursor := place.anchor, mode := .name }
  | ')' => do
      let state ← endRelation options state place
      of { state with cursor := place.anchor, mode := .name }.closeRelation
  | char => of (state.relationChar options place char)

/-- A character inside the brackets of a call. -/
def callChar (options : ScanOptions) (state : ArenaState) (capture : Capture) (char : Char) :
    Checked QueryError ArenaState :=
  if ¬ isOpener char ∧ isCloser char ∧ char = capture.innermost ∧ capture.outer = [] then
    endCall state { capture with text := capture.text.push char }
  else of (state.callChar options capture char)

/-- Acts on a character, as the mode says. -/
def act (options : ScanOptions) (state : ArenaState) (char : Char) :
    Checked QueryError ArenaState :=
  match state.mode with
  | .name => of (state.nameChar char)
  | .value parameter => valueChar state parameter char
  | .relations place => relationChar options state place char
  | .call capture => callChar options state capture char
  | .afterCall => of (state.afterCallChar char)

/-- Reads a character. -/
def step (options : ScanOptions) (state : ArenaState) (char : Char) :
    Checked QueryError ArenaState :=
  (fun next => { next with position := state.position + 1 }) <$> act options state char

/-- Reads the rest of a text. -/
def run (options : ScanOptions) : ArenaState → List Char → Checked QueryError ArenaState
  | state, [] => return state
  | state, char :: rest => do
      let state ← step options state char
      run options state rest

/-- Ends what the text ended in the middle of. -/
def endText (options : ScanOptions) (state : ArenaState) : Checked QueryError ArenaState :=
  match state.mode with
  | .value parameter => endValue state parameter
  | .relations place => endRelation options state place
  | _ => of (state.endText options)

/-- The arena of a text that has been read to its end. -/
def finish (options : ScanOptions) (state : ArenaState) : Checked QueryError Arena := do
  let state ← endText options state
  if state.frames.isEmpty then return state.arena
  else throw (.unclosed state.position ')')

/-- The arena that a decoded query text is scanned into. -/
def scan (options : ScanOptions) (text : String) : Checked QueryError Arena := do
  let state ← run options {} text.toList
  finish options state

/-! ### Nodes that are there -/

section Nodes

variable {arena : Arena} {id : Nat} {entry : ArenaNode}

theorem findAmong_eq_of (name : String) {children : List Nat}
    (each : ∀ child ∈ children, ∃ below, arena.node? child = some below) :
    (findAmong arena name children : Checked ε (Option Nat)) =
      of (.ok (children.find? fun child =>
        (arena.node? child).any fun below => below.name == name)) := by
  induction children with
  | nil => rfl
  | cons child rest hypothesis =>
      rw [List.forall_mem_cons] at each
      obtain ⟨⟨below, found⟩, others⟩ := each
      rw [findAmong, node_eq_of found, ok_bind, List.find?_cons, found, Option.any_some]
      cases below.name == name with
      | true => rfl
      | false => exact hypothesis others

/-- In an arena that is linked, the children of a node are there. -/
theorem findInclude_eq_of (linked : arena.Linked) (found : arena.node? id = some entry)
    (name : String) :
    (findInclude arena id name : Checked ε (Option Nat)) =
      of (.ok (arena.findInclude? id name)) := by
  rw [findInclude, node_eq_of found, ok_bind, findAmong_eq_of, Arena.findInclude?, found,
    Option.bind_some]
  intro child member
  obtain ⟨below, foundBelow, -⟩ := linked.included found member
  exact ⟨below, foundBelow⟩

theorem addInclude_eq_of (found : arena.node? id = some entry) (name : String) :
    (addInclude arena id name : Checked ε (Arena × Nat)) = of (.ok (arena.addInclude id name)) := by
  rw [addInclude, node_eq_of found]
  rfl

theorem detachInclude_eq_of (found : arena.node? id = some entry) (child : Nat) :
    (detachInclude arena id child : Checked ε Arena) = of (.ok (arena.detachInclude id child)) := by
  rw [detachInclude, node_eq_of found]
  rfl

end Nodes

/-! ### Relations that are attached -/

variable {options : ScanOptions} {state : ArenaState} {request : Request} {path : Path} {id : Nat}

/-- A path leads to a node of the arena. -/
theorem exists_node_of_leads {arena : Arena} (stores : arena.Stores request)
    (leads : request.Leads path id) : ∃ entry, arena.node? id = some entry := by
  obtain ⟨node, found, rfl⟩ := leads
  obtain ⟨_, entry⟩ := stores.nodes found
  exact ⟨_, entry⟩

theorem attachTo_eq_of (linked : state.arena.Linked) {entry : ArenaNode}
    (found : state.arena.node? id = some entry) (name : String) :
    attachTo options state id name = of (state.attachTo options id name) := by
  rw [attachTo, findInclude_eq_of linked found, ok_bind, ArenaState.attachTo]
  cases state.arena.findInclude? id name with
  | none => exact addInclude_eq_of found name
  | some existing =>
      cases options.duplicates with
      | merge => rfl
      | replace =>
          have kept : (state.arena.detachInclude id existing).node? id =
              some { entry with includes := entry.includes.filter (· != existing) } := by
            rw [Arena.detachInclude, Arena.node?_update, if_pos rfl, found, Option.map_some]
          simp only
          rw [detachInclude_eq_of found, ok_bind, addInclude_eq_of kept]
      | reject => rfl

/-- The depth of a relation that is attached can be counted. -/
theorem exists_depth_of_attachTo (represents : state.arena.Represents options request)
    (leads : request.Leads path id) {name : String} (named : name ≠ "") {arena : Arena}
    {child : Nat} (attached : state.attachTo options id name = .ok (arena, child)) :
    ∃ depth, arena.depthOf? child = some depth := by
  obtain ⟨node, found, rfl⟩ := leads
  obtain ⟨wellFormed, stores, small, -⟩ := represents
  rw [ArenaState.attachTo, stores.findInclude?_eq found] at attached
  cases foundChild : node.child? name with
  | none =>
      simp only [foundChild, Option.map_none, Except.ok.injEq] at attached
      cases attached
      exact ⟨_, (Arena.Attached.added wellFormed stores small found named foundChild).depthOf?_eq⟩
  | some old =>
      simp only [foundChild, Option.map_some] at attached
      cases policy : options.duplicates with
      | merge =>
          simp only [policy, Except.ok.injEq] at attached
          cases attached
          exact ⟨_, (Arena.Attached.existing wellFormed stores small found foundChild).depthOf?_eq⟩
      | replace =>
          simp only [policy, Except.ok.injEq] at attached
          cases attached
          exact ⟨_, (Arena.Attached.replaced wellFormed stores small found named
            foundChild).depthOf?_eq⟩
      | reject => simp [policy] at attached

theorem attach_eq_of (represents : state.arena.Represents options request)
    (leads : request.Leads path id) (named : state.token ≠ "") :
    attach options state id = of (state.attach options id) := by
  obtain ⟨entry, found⟩ := exists_node_of_leads represents.stores leads
  rw [attach, ArenaState.attach]
  apply bind_eq_of (attachTo_eq_of represents.wellFormed.toLinked found _)
  rintro ⟨arena, child⟩ attached
  obtain ⟨depth, counted⟩ := exists_depth_of_attachTo represents leads named attached
  simp only [counted, need_some, ok_bind, Option.any_some, decide_eq_true_eq]
  split <;> rfl

theorem endRelation_eq_of (represents : state.arena.Represents options request) {place : ArenaPlace}
    (leads : request.Leads path place.chain) :
    endRelation options state place = of (state.endRelation options place) := by
  rw [endRelation, ArenaState.endRelation]
  split
  · rename_i given
    exact map_eq_of (attach_eq_of represents leads (by simpa using given)) _
  · rfl

/-! ### Terms -/

section Terms

variable {entry : ArenaNode} (found : state.arena.node? state.cursor = some entry)
include found

theorem endValue_eq_of (parameter : Parameter) :
    endValue state parameter = of (state.endValue parameter) := by
  unfold endValue
  rw [node_eq_of found, ok_bind]
  cases parameter with
  | fields =>
      apply bind_eq_of (readFields_eq_of _ _)
      intro fields _
      rfl
  | functions =>
      apply bind_eq_of (readFunctions_eq_of _ _)
      intro functions _
      rfl
  | clause | predicate => rfl

theorem endCall_eq_of (capture : Capture) : endCall state capture = of (state.endCall capture) := by
  rw [endCall, ArenaState.endCall]
  cases capture.target with
  | predicate name =>
      apply bind_eq_of (readValue_eq_of _ _)
      intro condition _
      rw [node_eq_of found]
      rfl
  | group =>
      apply bind_eq_of (readGroup_eq_of _ _)
      intro group _
      rw [node_eq_of found]
      rfl
  | functions => rfl

theorem valueChar_eq_of (parameter : Parameter) (char : Char) :
    valueChar state parameter char = of (state.valueChar parameter char) := by
  unfold valueChar
  split
  · rw [ArenaState.valueChar]
    apply bind_eq_of (endValue_eq_of found parameter)
    intro ended _
    rfl
  · rw [ArenaState.valueChar]
    apply bind_eq_of (endValue_eq_of found parameter)
    intro ended _
    rfl
  · rfl

theorem callChar_eq_of (capture : Capture) (char : Char) :
    callChar options state capture char = of (state.callChar options capture char) := by
  rw [callChar]
  split
  · rename_i last
    obtain ⟨notOpener, closes, matching, outermost⟩ := last
    rw [endCall_eq_of found, ArenaState.callChar, if_neg notOpener, if_pos closes,
      if_neg (by simpa using matching), outermost]
  · rfl

end Terms

/-! ### Characters -/

theorem relationChar_eq_of (represents : state.arena.Represents options request)
    {place : ArenaPlace} (leads : request.Leads path place.chain) (char : Char) :
    relationChar options state place char = of (state.relationChar options place char) := by
  unfold relationChar
  split
  · split
    · rfl
    · rename_i given
      rw [ArenaState.relationChar, if_neg given]
      apply bind_eq_of (attach_eq_of represents leads (by simpa using given))
      intro result _
      rfl
  · split
    · rfl
    · rename_i given
      rw [ArenaState.relationChar, if_pos (by simpa using given)]
      apply bind_eq_of (attach_eq_of represents leads (by simpa using given))
      intro result _
      rfl
  iterate 3
    · rw [ArenaState.relationChar]
      apply bind_eq_of (endRelation_eq_of represents leads)
      intro ended _
      rfl
  · rfl

variable {reading : ScanState}

/-- In the state of a scanner, the node of the cursor is there. -/
theorem exists_node_of_agrees (agrees : reading.Agrees options state) :
    ∃ entry, state.arena.node? state.cursor = some entry :=
  exists_node_of_leads agrees.stores agrees.cursor

/-- The next relation of a list belongs to a node that a path leads to. -/
theorem exists_leads_of_agrees (agrees : reading.Agrees options state) {place : ArenaPlace}
    (mode : state.mode = .relations place) :
    ∃ path, reading.request.Leads path place.chain := by
  have same := agrees.mode
  rw [mode] at same
  generalize reading.mode = modePath at same
  cases same with
  | relations agree => exact ⟨_, agree.chain⟩

theorem act_eq_of (agrees : reading.Agrees options state) (char : Char) :
    act options state char = of (state.act options char) := by
  obtain ⟨entry, found⟩ := exists_node_of_agrees agrees
  rw [act, ArenaState.act]
  cases mode : state.mode with
  | name => rfl
  | value parameter => exact valueChar_eq_of found parameter char
  | relations place =>
      obtain ⟨path, leads⟩ := exists_leads_of_agrees agrees mode
      exact relationChar_eq_of agrees.toRepresents leads char
  | call capture => exact callChar_eq_of found capture char
  | afterCall => rfl

theorem step_eq_of (agrees : reading.Agrees options state) (char : Char) :
    step options state char = of (state.step options char) :=
  map_eq_of (act_eq_of agrees char) _

/-- Every character leaves a scanner with numbers of nodes that paths lead to, so that a whole text
is read as by the scanner that looks no node up. -/
theorem run_eq_of (agrees : reading.Agrees options state) (sound : reading.control.Sound)
    (distinct : reading.request.unnumbered.Distinct) (text : List Char) :
    run options state text = of (state.run options text) := by
  induction text generalizing reading state with
  | nil => rfl
  | cons char rest hypothesis =>
      rw [run, ArenaState.run]
      apply bind_eq_of (step_eq_of agrees char)
      intro next stepped
      have together := agrees.step sound char
      rw [stepped] at together
      generalize steppedReading : reading.step options char = result at together
      cases together with
      | ok same =>
          obtain ⟨soundNext, distinctNext⟩ := ScanState.sound_of_step sound distinct steppedReading
          exact hypothesis same soundNext distinctNext

theorem finish_eq_of (agrees : reading.Agrees options state) :
    finish options state = of (state.finish options) := by
  obtain ⟨entry, found⟩ := exists_node_of_agrees agrees
  rw [finish, ArenaState.finish]
  apply bind_eq_of
  · rw [endText]
    split
    · rename_i parameter mode
      rw [ArenaState.endText, mode]
      exact endValue_eq_of found parameter
    · rename_i place mode
      obtain ⟨path, leads⟩ := exists_leads_of_agrees agrees mode
      rw [ArenaState.endText, mode]
      exact endRelation_eq_of agrees.toRepresents leads
    · rfl
  · intro ended _
    split <;> rfl

/-- Scanning does not break off. -/
theorem scan_eq_of (options : ScanOptions) (text : String) :
    scan options text = of (scanArena options text) := by
  rw [scan, scanArena]
  apply bind_eq_of (run_eq_of (.start options) .start distinct_start text.toList)
  intro state ran
  obtain ⟨reading, -, agrees, -⟩ := exists_agrees_of_run ran
  exact finish_eq_of agrees

end Checked

end QueryGate
