import QueryGate.Proofs.Arena.Change
import QueryGate.Proofs.Arena.Scanner
import QueryGate.Proofs.Scanner.Edits

/-!
# Paths and numbers

The scanner that holds paths and the one that holds numbers go through a text side by side.
After each character the arena stores the request, and every number that the one holds is that of
the node which the path leads to that the other holds in its place; or both are in the same error.

A relation that takes the place of another makes paths stale that lead below the old one. None
of those is held then: relations are attached below all open ones, where every path that is
held leads to a node around the relation.
-/

namespace QueryGate

/-- Two results are related values, or the same error. -/
inductive Together {α β : Type} (related : α → β → Prop) :
    Except QueryError α → Except QueryError β → Prop where
  | ok {value : α} {other : β} : related value other → Together related (.ok value) (.ok other)
  | error (fault : QueryError) : Together related (.error fault) (.error fault)

namespace Together

variable {α β γ δ : Type} {related : α → β → Prop} {relatedNext : γ → δ → Prop}
  {result : Except QueryError α} {other : Except QueryError β}

theorem bind {next : α → Except QueryError γ} {nextOther : β → Except QueryError δ}
    (together : Together related result other)
    (each : ∀ value valueOther, related value valueOther →
      Together relatedNext (next value) (nextOther valueOther)) :
    Together relatedNext (result >>= next) (other >>= nextOther) := by
  cases together with
  | ok same => exact each _ _ same
  | error fault => exact .error fault

theorem map {change : α → γ} {changeOther : β → δ} (together : Together related result other)
    (each : ∀ value valueOther, related value valueOther →
      relatedNext (change value) (changeOther valueOther)) :
    Together relatedNext (result.map change) (other.map changeOther) := by
  cases together with
  | ok same => exact .ok (each _ _ same)
  | error fault => exact .error fault

theorem imp {weaker : α → β → Prop} (together : Together related result other)
    (each : ∀ value valueOther, related value valueOther → weaker value valueOther) :
    Together weaker result other := by
  cases together with
  | ok same => exact .ok (each _ _ same)
  | error fault => exact .error fault

end Together

theorem isSome_of_rel {α β : Type} {related : α → β → Prop} {value : Option α} {other : Option β}
    (same : Option.Rel related value other) : other.isSome = value.isSome := by
  cases same <;> rfl

theorem isNone_of_rel {α β : Type} {related : α → β → Prop} {value : Option α} {other : Option β}
    (same : Option.Rel related value other) : other.isNone = value.isNone := by
  cases same <;> rfl

/-- The places are the same in a request. -/
structure Place.Agrees (request : Request) (place : Place) (numbered : ArenaPlace) : Prop where
  anchor : request.Leads place.anchor numbered.anchor
  chain : request.Leads place.chain numbered.chain
  closed : Option.Rel request.Leads place.closed numbered.closed

/-- The open relations are the same in a request. -/
structure Frame.Agrees (request : Request) (frame : Frame) (numbered : ArenaFrame) : Prop where
  relation : request.Leads frame.relation numbered.relation
  anchor : request.Leads frame.resume.anchor numbered.resume.anchor
  chain : request.Leads frame.resume.chain numbered.resume.chain

/-- The modes are the same in a request. -/
inductive Mode.Agrees (request : Request) : Mode → ArenaMode → Prop where
  | name : Agrees request .name .name
  | value (parameter : Parameter) : Agrees request (.value parameter) (.value parameter)
  | relations {place : Place} {numbered : ArenaPlace} :
      place.Agrees request numbered → Agrees request (.relations place) (.relations numbered)
  | call (capture : Capture) : Agrees request (.call capture) (.call capture)
  | afterCall : Agrees request .afterCall .afterCall

namespace ScanState

/-- The states are the same but for their modes. -/
structure Mirrors (options : ScanOptions) (state : ScanState) (numbered : ArenaState) : Prop
    extends Arena.Represents options state.request numbered.arena where
  position : numbered.position = state.position
  token : numbered.token = state.token
  tokenStart : numbered.tokenStart = state.tokenStart
  made : state.made = numbered.arena.nodes.length
  cursor : state.request.Leads state.cursor numbered.cursor
  frames : List.Forall₂ (Frame.Agrees state.request) state.frames numbered.frames

/-- The states are the same. -/
structure Agrees (options : ScanOptions) (state : ScanState) (numbered : ArenaState) : Prop
    extends Mirrors options state numbered where
  mode : state.mode.Agrees state.request numbered.mode

theorem Agrees.start (options : ScanOptions) : Agrees options {} {} where
  position := rfl
  token := rfl
  tokenStart := rfl
  made := rfl
  wellFormed := .start options.maxDepth
  stores := .start
  small := Nat.le_refl 1
  cursor := ⟨_, rfl, rfl⟩
  frames := .nil
  whole := fun _ => .start
  mode := .name

/-- Both scanners have attached a relation: they are the same, the one's path leads to the other's
number, and nodes around the relation are where they were. -/
structure Attaches (options : ScanOptions) (state : ScanState) (parent : Path)
    (result : ScanState × Path) (numbered : ArenaState × Nat) : Prop where
  mirrors : Mirrors options result.1 numbered.1
  leads : result.1.request.Leads result.2 numbered.2
  around : ∀ {path : Path} {number : Nat}, path <+: parent → state.request.Leads path number →
    result.1.request.Leads path number

variable {options : ScanOptions} {state : ScanState} {numbered : ArenaState} {α β : Type}
  {related : α → β → Prop}

/-- All paths of the open relations lead to nodes around the innermost one. -/
theorem agrees_of_stacked {request later : Request} {cursor focus : Path} {frames : List Frame}
    {framesNumbered : List ArenaFrame} (stacked : Control.Stacked cursor frames)
    (around : cursor <+: focus)
    (kept : ∀ {path : Path} {number : Nat}, path <+: focus → request.Leads path number →
      later.Leads path number)
    (agrees : List.Forall₂ (Frame.Agrees request) frames framesNumbered) :
    List.Forall₂ (Frame.Agrees later) frames framesNumbered := by
  induction agrees generalizing cursor with
  | nil => exact .nil
  | @cons frame numbered frames others same _ hypothesis =>
      obtain ⟨rfl, anchored, ordered, outer⟩ := stacked
      have chain := ordered.trans around
      have anchor := anchored.trans chain
      exact .cons ⟨kept around same.relation, kept anchor same.anchor, kept chain same.chain⟩
        (hypothesis outer anchor)

namespace Mirrors

variable (mirrors : state.Mirrors options numbered)
include mirrors

theorem unexpected (found : Char) :
    Together related (state.unexpected found) (numbered.unexpected found) := by
  rw [ScanState.unexpected, ArenaState.unexpected, mirrors.position]
  exact .error _

theorem missing (part : Part) :
    Together related (state.missing part) (numbered.missing part) := by
  rw [ScanState.missing, ArenaState.missing, mirrors.position]
  exact .error _

theorem dropToken : state.dropToken.Mirrors options numbered.dropToken :=
  { mirrors with token := rfl }

theorem push (char : Char) : (state.push char).Mirrors options (numbered.push char) where
  position := mirrors.position
  token := congrArg (·.push char) mirrors.token
  tokenStart := by
    rw [ScanState.push, ArenaState.push, mirrors.token, mirrors.position, mirrors.tokenStart]
  made := mirrors.made
  wellFormed := mirrors.wellFormed
  stores := mirrors.stores
  small := mirrors.small
  cursor := mirrors.cursor
  frames := mirrors.frames
  whole := mirrors.whole

theorem enter {mode : Mode} {modeNumbered : ArenaMode}
    (same : mode.Agrees state.request modeNumbered) :
    Agrees options (state.enter mode) (numbered.enter modeNumbered) :=
  { mirrors with mode := same }

theorem updateTerms (change : Terms → Terms) :
    (state.updateTerms change).Mirrors options (numbered.updateTerms change) := by
  obtain ⟨node, found, -⟩ := mirrors.cursor
  have kept : ∀ {path : Path} {number : Nat}, state.request.Leads path number →
      (state.updateTerms change).request.Leads path number :=
    fun leads => leads.updateTerms found change
  refine ⟨mirrors.toRepresents.updateTerms mirrors.cursor change, mirrors.position, mirrors.token,
    mirrors.tokenStart, ?_, kept mirrors.cursor, ?_⟩
  · exact mirrors.made.trans (Arena.length_update _ _ _).symm
  · apply mirrors.frames.imp
    intro frame frameNumbered agrees
    exact ⟨kept agrees.relation, kept agrees.anchor, kept agrees.chain⟩

theorem startCall (opener : Char) (target : CallTarget) :
    Agrees options (state.startCall opener target) (numbered.startCall opener target) := by
  rw [ScanState.startCall, ArenaState.startCall, mirrors.token, mirrors.position,
    mirrors.tokenStart]
  exact mirrors.dropToken.enter (.call _)

theorem modeOfName (name : String) :
    (state.modeOfName name).Agrees state.request (numbered.modeOfName name) := by
  rw [ScanState.modeOfName, ArenaState.modeOfName]
  cases Reserved.ofName? name with
  | none => exact .value _
  | some reserved =>
      cases reserved with
      | includes => exact .relations ⟨mirrors.cursor, mirrors.cursor, .none⟩
      | fields | functions | clause => exact .value _

theorem closeRelation :
    Together (Agrees options) state.closeRelation numbered.closeRelation := by
  have frames := mirrors.frames
  cases around : state.frames with
  | nil =>
      rw [around, List.forall₂_nil_left_iff] at frames
      rw [ScanState.closeRelation, ArenaState.closeRelation, around, frames]
      exact mirrors.unexpected ')'
  | cons frame rest =>
      rw [around, List.forall₂_cons_left_iff] at frames
      obtain ⟨frameNumbered, restNumbered, agrees, others, aroundNumbered⟩ := frames
      rw [ScanState.closeRelation, ArenaState.closeRelation, around, aroundNumbered]
      exact .ok
        { mirrors with
          cursor := agrees.anchor
          frames := others
          mode := .relations ⟨agrees.anchor, agrees.chain, .some agrees.relation⟩ }

theorem endValue (parameter : Parameter) :
    Together (Mirrors options) (state.endValue parameter) (numbered.endValue parameter) := by
  have dropped := mirrors.dropToken
  cases parameter with
  | clause directive =>
      simp only [ScanState.endValue, ArenaState.endValue, mirrors.token]
      split
      · exact dropped.missing _
      · exact .ok (dropped.updateTerms _)
  | fields =>
      simp only [ScanState.endValue, ArenaState.endValue, mirrors.token, mirrors.tokenStart]
      cases readFields state.tokenStart state.token.toList with
      | error fault => exact .error fault
      | ok fields => exact .ok (dropped.updateTerms _)
  | functions =>
      simp only [ScanState.endValue, ArenaState.endValue, mirrors.token, mirrors.tokenStart]
      cases readFunctions state.tokenStart state.token.toList with
      | error fault => exact .error fault
      | ok functions => exact .ok (dropped.updateTerms _)
  | predicate name =>
      simp only [ScanState.endValue, ArenaState.endValue, mirrors.token]
      exact .ok (dropped.updateTerms _)

theorem endCall (capture : Capture) :
    Together (Agrees options) (state.endCall capture) (numbered.endCall capture) := by
  rw [ScanState.endCall, ArenaState.endCall]
  cases capture.target with
  | predicate name =>
      dsimp only
      cases readValue capture.start capture.text.toList with
      | error fault => exact .error fault
      | ok condition => exact .ok ((mirrors.updateTerms _).enter .afterCall)
  | group =>
      dsimp only
      cases readGroup capture.start capture.text.toList with
      | error fault => exact .error fault
      | ok group => exact .ok ((mirrors.updateTerms _).enter .afterCall)
  | functions =>
      exact .ok { mirrors with token := rfl, tokenStart := rfl, mode := .value .functions }

/-! ### Relations -/

omit mirrors in
/-- A list of relations is that of the current node, and its next relation is below that node. -/
theorem place_of_sound {place : Place} (sound : state.control.Sound)
    (mode : state.mode = .relations place) :
    place.anchor = state.cursor ∧ place.anchor <+: place.chain := by
  have fits := sound.fits
  rw [ScanState.control, mode] at fits
  exact ⟨fits.1, fits.2.1⟩

/-- What is given back for a relation that is attached. -/
theorem attached {parent : Path} {later : Request} {arena : Arena} {child made : Nat}
    (attached : Arena.Attached options.maxDepth state.request parent state.token later arena child)
    (stacked : Control.Stacked state.cursor state.frames) (around : state.cursor <+: parent)
    (length : made = arena.nodes.length)
    (whole : options.duplicates ≠ .replace → arena.Whole later) :
    Together (Attaches options state parent)
      (if options.maxDepth < parent.length + 1 then
        .error ⟨state.tokenStart, .tooDeep options.maxDepth⟩
      else .ok ({ state with token := "", request := later, made := made }, parent ++ [state.token]))
      (if (arena.depthOf? child).any (options.maxDepth < ·) then
        .error ⟨state.tokenStart, .tooDeep options.maxDepth⟩
      else .ok ({ numbered.dropToken with arena := arena }, child)) := by
  rw [attached.depthOf?_eq, Option.any_some]
  by_cases deep : options.maxDepth < parent.length + 1
  · rw [if_pos deep, if_pos (by simpa using deep)]
    exact .error _
  · rw [if_neg deep, if_neg (by simpa using deep)]
    have mirrorsLater : Mirrors options
        { state with token := "", request := later, made := made }
        { numbered.dropToken with arena := arena } :=
      { wellFormed := attached.wellFormed (Nat.le_of_not_lt deep)
        stores := attached.stores
        small := attached.small
        whole := whole
        position := mirrors.position
        token := rfl
        tokenStart := mirrors.tokenStart
        made := length
        cursor := attached.around around mirrors.cursor
        frames := agrees_of_stacked stacked around attached.around mirrors.frames }
    exact .ok ⟨mirrorsLater, attached.leads, attached.around⟩

/-- The next relation of a list is attached. -/
theorem attach {place : Place} {placeNumbered : ArenaPlace} (sound : state.control.Sound)
    (mode : state.mode = .relations place) (agrees : place.Agrees state.request placeNumbered)
    (named : state.token ≠ "") :
    Together (Attaches options state place.chain) (state.attach options place.chain)
      (numbered.attach options placeNumbered.chain) := by
  obtain ⟨anchored, ordered⟩ := place_of_sound sound mode
  have stacked : Control.Stacked state.cursor state.frames := sound.stacked
  have around : state.cursor <+: place.chain := anchored ▸ ordered
  obtain ⟨node, found, same⟩ := agrees.chain
  rw [← same]
  have stores := mirrors.stores
  have search := stores.findInclude?_eq found state.token
  simp only [ScanState.attach, ArenaState.attach, ArenaState.attachTo, ScanState.dropToken,
    mirrors.token, mirrors.tokenStart, found, Option.bind_some, search]
  cases foundChild : node.child? state.token with
  | none =>
      have added :=
        Arena.Attached.added mirrors.wellFormed stores mirrors.small found named foundChild
      rw [← mirrors.made] at added
      apply mirrors.attached added stacked around
      · rw [Arena.length_addInclude, mirrors.made]
      · intro policy
        rw [mirrors.made]
        exact (mirrors.whole policy).addInclude stores.distinct found foundChild
  | some child =>
      rw [Option.map_some]
      cases policy : options.duplicates with
      | merge =>
          have existing := Arena.Attached.existing mirrors.wellFormed stores mirrors.small
            found foundChild
          exact mirrors.attached existing stacked around mirrors.made mirrors.whole
      | replace =>
          have replaced := Arena.Attached.replaced mirrors.wellFormed stores mirrors.small
            found named foundChild
          rw [← mirrors.made] at replaced
          apply mirrors.attached replaced stacked around
          · rw [Arena.length_addInclude, Arena.detachInclude, Arena.length_update, mirrors.made]
          · intro other
            exact absurd policy other
      | reject => exact .error _

/-- The entry of a list is ended, and the list is still that of the same node. -/
theorem endRelation {place : Place} {placeNumbered : ArenaPlace} (sound : state.control.Sound)
    (mode : state.mode = .relations place) (agrees : place.Agrees state.request placeNumbered) :
    Together
      (fun ended endedNumbered => ended.Mirrors options endedNumbered ∧
        ended.request.Leads place.anchor placeNumbered.anchor)
      (state.endRelation options place) (numbered.endRelation options placeNumbered) := by
  obtain ⟨-, ordered⟩ := place_of_sound sound mode
  rw [ScanState.endRelation, ArenaState.endRelation, mirrors.token, isNone_of_rel agrees.closed]
  split
  · rename_i given
    apply (mirrors.attach sound mode agrees (by simpa using given)).map
    intro result resultNumbered attaches
    exact ⟨attaches.mirrors, attaches.around ordered agrees.anchor⟩
  · split
    · exact mirrors.missing _
    · exact .ok ⟨mirrors, agrees.anchor⟩

/-! ### Characters -/

theorem nameChar (agrees : state.mode.Agrees state.request numbered.mode) (char : Char) :
    Together (Agrees options) (state.nameChar char) (numbered.nameChar char) := by
  have token := mirrors.token
  simp only [ScanState.nameChar]
  split
  · rw [ArenaState.nameChar, token]
    split
    · exact mirrors.missing _
    · exact .ok (mirrors.dropToken.enter (mirrors.modeOfName _))
  · rw [ArenaState.nameChar, token]
    cases Connective.ofWord? state.token with
    | none => exact mirrors.unexpected _
    | some joining => exact .ok (mirrors.startCall _ _)
  · rw [ArenaState.nameChar, token]
    split
    · exact .ok { mirrors with mode := agrees }
    · exact mirrors.missing _
  · rw [ArenaState.nameChar, token]
    split
    · exact mirrors.closeRelation
    · exact mirrors.missing _
  iterate 4
    rw [ArenaState.nameChar]
    exact mirrors.unexpected _
  · rw [ArenaState.nameChar]
    · exact .ok { toMirrors := mirrors.push char, mode := agrees }
    all_goals assumption

theorem callTarget?_eq (parameter : Parameter) :
    numbered.callTarget? parameter = state.callTarget? parameter := by
  cases parameter <;> simp [ScanState.callTarget?, ArenaState.callTarget?, mirrors.token]

theorem valueChar (agrees : state.mode.Agrees state.request numbered.mode) (parameter : Parameter)
    (char : Char) :
    Together (Agrees options) (state.valueChar parameter char)
      (numbered.valueChar parameter char) := by
  simp only [ScanState.valueChar]
  split
  · rw [ArenaState.valueChar]
    apply (mirrors.endValue parameter).bind
    intro ended endedNumbered same
    exact .ok (same.enter .name)
  · rw [ArenaState.valueChar]
    apply (mirrors.endValue parameter).bind
    intro ended endedNumbered same
    exact (same.enter .name).closeRelation
  · rw [ArenaState.valueChar, mirrors.callTarget?_eq]
    cases state.callTarget? parameter with
    | none => exact mirrors.unexpected _
    | some target => exact .ok (mirrors.startCall _ _)
  · simp only [ArenaState.valueChar, mirrors.token]
    cases parameter with
    | predicate name =>
        dsimp only
        split
        · exact .ok (mirrors.startCall _ _)
        · exact mirrors.unexpected _
    | clause | fields | functions => exact mirrors.unexpected _
  iterate 2
    rw [ArenaState.valueChar]
    exact mirrors.unexpected _
  · rw [ArenaState.valueChar]
    · exact .ok { toMirrors := mirrors.push char, mode := agrees }
    all_goals assumption

/-- The relation that was read last is opened. -/
theorem openChar {place : Place} {placeNumbered : ArenaPlace} (sound : state.control.Sound)
    (mode : state.mode = .relations place) (agrees : place.Agrees state.request placeNumbered) :
    Together (Agrees options) (state.relationChar options place '(')
      (numbered.relationChar options placeNumbered '(') := by
  obtain ⟨-, ordered⟩ := place_of_sound sound mode
  rw [ScanState.relationChar, ArenaState.relationChar, mirrors.token, isSome_of_rel agrees.closed]
  split
  · split
    · exact mirrors.unexpected _
    · exact mirrors.missing _
  · rename_i given
    apply (mirrors.attach sound mode agrees (by simpa using given)).bind
    intro result resultNumbered attaches
    have frame : Frame.Agrees result.1.request
        ⟨result.2, { place with closed := none }⟩
        ⟨resultNumbered.2, { placeNumbered with closed := none }⟩ :=
      ⟨attaches.leads, attaches.around ordered agrees.anchor,
        attaches.around (List.prefix_refl _) agrees.chain⟩
    exact .ok
      { attaches.mirrors with
        cursor := attaches.leads
        frames := .cons frame attaches.mirrors.frames
        mode := .name }

/-- The list goes on below the relation that was read or closed last. -/
theorem chainChar {place : Place} {placeNumbered : ArenaPlace} (sound : state.control.Sound)
    (mode : state.mode = .relations place) (agrees : place.Agrees state.request placeNumbered) :
    Together (Agrees options) (state.relationChar options place '.')
      (numbered.relationChar options placeNumbered '.') := by
  obtain ⟨-, ordered⟩ := place_of_sound sound mode
  have closed := agrees.closed
  rw [ScanState.relationChar, ArenaState.relationChar, mirrors.token]
  split
  · rename_i given
    apply (mirrors.attach sound mode agrees (by simpa using given)).bind
    intro result resultNumbered attaches
    have anchor := attaches.around ordered agrees.anchor
    exact .ok (attaches.mirrors.enter (.relations ⟨anchor, attaches.leads, .none⟩))
  · generalize place.closed = behind, placeNumbered.closed = behindNumbered at closed
    cases closed with
    | none => exact mirrors.missing _
    | some leads => exact .ok (mirrors.enter (.relations ⟨agrees.anchor, leads, .none⟩))

theorem relationChar {place : Place} {placeNumbered : ArenaPlace} (sound : state.control.Sound)
    (mode : state.mode = .relations place) (modeNumbered : numbered.mode = .relations placeNumbered)
    (agrees : place.Agrees state.request placeNumbered) (char : Char) :
    Together (Agrees options) (state.relationChar options place char)
      (numbered.relationChar options placeNumbered char) := by
  simp only [ScanState.relationChar]
  split
  · exact mirrors.openChar sound mode agrees
  · exact mirrors.chainChar sound mode agrees
  · rw [ArenaState.relationChar]
    apply (mirrors.endRelation sound mode agrees).bind
    intro ended endedNumbered both
    obtain ⟨same, anchor⟩ := both
    exact .ok (same.enter (.relations ⟨anchor, anchor, .none⟩))
  · rw [ArenaState.relationChar]
    apply (mirrors.endRelation sound mode agrees).bind
    intro ended endedNumbered both
    obtain ⟨same, anchor⟩ := both
    exact .ok { same with cursor := anchor, mode := .name }
  · rw [ArenaState.relationChar]
    apply (mirrors.endRelation sound mode agrees).bind
    intro ended endedNumbered both
    obtain ⟨same, anchor⟩ := both
    have left : Mirrors options { ended with cursor := place.anchor, mode := .name }
        { endedNumbered with cursor := placeNumbered.anchor, mode := .name } :=
      { same with cursor := anchor }
    exact left.closeRelation
  iterate 3
    rw [ArenaState.relationChar]
    exact mirrors.unexpected _
  · rw [ArenaState.relationChar, isSome_of_rel agrees.closed]
    · split
      · exact mirrors.unexpected _
      · have same : state.mode.Agrees state.request numbered.mode := by
          rw [mode, modeNumbered]
          exact .relations agrees
        exact .ok { toMirrors := mirrors.push char, mode := same }
    all_goals assumption

theorem callChar (capture : Capture) (char : Char) :
    Together (Agrees options) (state.callChar options capture char)
      (numbered.callChar options capture char) := by
  simp only [ScanState.callChar, ArenaState.callChar, mirrors.position]
  split
  · split
    · exact .error _
    · exact .ok (mirrors.enter (.call _))
  · split
    · split
      · exact mirrors.unexpected _
      · cases capture.outer with
        | nil => exact mirrors.endCall _
        | cons next outer => exact .ok (mirrors.enter (.call _))
    · exact .ok (mirrors.enter (.call _))

theorem afterCallChar (char : Char) :
    Together (Agrees options) (state.afterCallChar char) (numbered.afterCallChar char) := by
  simp only [ScanState.afterCallChar]
  split
  · exact .ok (mirrors.enter .name)
  · exact (mirrors.enter .name).closeRelation
  · rw [ArenaState.afterCallChar]
    · exact mirrors.unexpected _
    all_goals assumption

end Mirrors

/-! ### Texts -/

/-- A character does the same to both scanners. -/
theorem Agrees.act (agrees : state.Agrees options numbered) (sound : state.control.Sound)
    (char : Char) :
    Together (Agrees options) (state.act options char) (numbered.act options char) := by
  have mirrors := agrees.toMirrors
  have same := agrees.mode
  rw [ScanState.act, ArenaState.act]
  generalize mode : state.mode = modePath, modeNumbered : numbered.mode = modeNumber at same
  cases same with
  | name => exact mirrors.nameChar agrees.mode char
  | value parameter => exact mirrors.valueChar agrees.mode parameter char
  | relations place => exact mirrors.relationChar sound mode modeNumbered place char
  | call capture => exact mirrors.callChar capture char
  | afterCall => exact mirrors.afterCallChar char

theorem Agrees.step (agrees : state.Agrees options numbered) (sound : state.control.Sound)
    (char : Char) :
    Together (Agrees options) (state.step options char) (numbered.step options char) := by
  apply (agrees.act sound char).map
  intro next nextNumbered same
  exact { same with position := congrArg (· + 1) agrees.position }

theorem sound_of_step {char : Char} {next : ScanState} (sound : state.control.Sound)
    (distinct : state.request.unnumbered.Distinct) (stepped : state.step options char = .ok next) :
    next.control.Sound ∧ next.request.unnumbered.Distinct := by
  have ran : run options state [char] = .ok next := by
    rw [run, stepped]
    rfl
  obtain ⟨edits, runs, distinctNext⟩ := exists_runs_of_run sound distinct ran
  exact ⟨runs.sound sound, distinctNext⟩

/-- The states come out the same after a text, with the same control as before. -/
theorem Agrees.run (agrees : state.Agrees options numbered) (sound : state.control.Sound)
    (distinct : state.request.unnumbered.Distinct) (text : List Char) :
    Together (fun next nextNumbered => next.Agrees options nextNumbered ∧ next.control.Sound)
      (ScanState.run options state text) (ArenaState.run options numbered text) := by
  induction text generalizing state numbered with
  | nil => exact .ok ⟨agrees, sound⟩
  | cons char rest hypothesis =>
      have together := agrees.step sound char
      rw [ScanState.run, ArenaState.run]
      generalize stepped : state.step options char = result at together
      generalize numbered.step options char = resultNumbered at together
      cases together with
      | error fault => exact .error fault
      | ok same =>
          obtain ⟨soundNext, distinctNext⟩ := sound_of_step sound distinct stepped
          exact hypothesis same soundNext distinctNext

theorem Agrees.endText (agrees : state.Agrees options numbered) (sound : state.control.Sound) :
    Together (Mirrors options) (state.endText options) (numbered.endText options) := by
  have mirrors := agrees.toMirrors
  have same := agrees.mode
  rw [ScanState.endText, ArenaState.endText]
  generalize mode : state.mode = modePath, numbered.mode = modeNumber at same
  cases same with
  | name =>
      dsimp only
      rw [mirrors.token]
      split
      · exact .ok mirrors
      · exact mirrors.missing _
  | value parameter => exact mirrors.endValue parameter
  | relations place =>
      exact (mirrors.endRelation sound mode place).imp fun _ _ ended => ended.1
  | call capture =>
      rw [mirrors.position]
      exact .error _
  | afterCall => exact .ok mirrors

theorem Agrees.finish (agrees : state.Agrees options numbered) (sound : state.control.Sound) :
    Together (fun request arena => arena.Represents options request) (state.finish options)
      (numbered.finish options) := by
  apply (agrees.endText sound).bind
  intro ended endedNumbered mirrors
  have frames := mirrors.frames
  rw [mirrors.position]
  generalize ended.frames = around, endedNumbered.frames = aroundNumbered at frames
  cases frames with
  | nil => exact .ok mirrors.toRepresents
  | cons => exact .error _

end ScanState

end QueryGate
