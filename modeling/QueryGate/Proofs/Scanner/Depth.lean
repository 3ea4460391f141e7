import Mathlib
import QueryGate.Proofs.Scanner.Fault

/-!
# The limit of nesting

The limit is put to two things: to the relations on the way to a relation, and to the brackets
that are open in a call. An error that something is nested too deep is right about it. A call
that is accepted keeps to the limit but for its first bracket, which is not counted, so that
calls are accepted where no bracket is allowed.
-/

namespace QueryGate

open Control ScanState

/-- A bracket that opens behind this text belongs to a call, and stands at that depth in it. Of the
brackets that are open around it, those that are not of relations are of the call. -/
def OpensCall (before : List Char) (depth : Nat) : Prop :=
  ∃ edits control closers, Runs (level [] []) before edits control ∧
    (∀ place, control.mode ≠ .relations place) ∧ unclosed? [] before = some closers ∧
    depth + control.frames.length = closers.length + 1

/-- At this place a bracket opens in a call. The one that opens the call itself is at depth 1. -/
def BracketAt (before after : List Char) (depth : Nat) : Prop :=
  (∃ opener rest, after = opener :: rest ∧ isOpener opener = true) ∧ OpensCall before depth

/-- A bracket of a call stands at that depth somewhere in the text. -/
def HasBracket (text : List Char) (depth : Nat) : Prop :=
  ∃ before after, text = before ++ after ∧ BracketAt before after depth

/-- At this place a relation is named, to which so many relations lead from the root, itself
among them. -/
def RelationAt (before after : List Char) (depth : Nat) : Prop :=
  ∃ edits control place, Runs (level [] []) before edits control ∧
    control.mode = .relations place ∧ control.token = "" ∧ place.closed = none ∧
    depth = place.chain.length + 1 ∧
    ∃ name rest, IsName name ∧ after = name.toList ++ rest ∧
      ∀ char ∈ rest.head?, isSeparator char = true

/-- At this place something is nested deeper than the limit. -/
def ExceedsAt (limit : Nat) (before after : List Char) : Prop :=
  ∃ depth, limit < depth ∧ (BracketAt before after depth ∨ RelationAt before after depth)

variable {options : ScanOptions} {state next : ScanState} {seen rest before text : List Char}
  {char : Char} {error : QueryError} {position limit depth : Nat}

theorem mode_eq_relations_of_unplaced {mode : Mode} {place : Place}
    (same : mode.unplaced = .relations place) : mode = .relations place := by
  cases mode <;> simp_all [Mode.unplaced]

/-- A part that is read by itself is never nested too deep. -/
theorem QueryError.PointsInto.not_tooDeep {part : List Char}
    (points : error.PointsInto position part) : error.fault ≠ .tooDeep limit := by
  obtain ⟨before, after, -, -, fits⟩ := points
  intro same
  rw [same] at fits
  exact fits

/-- What a bracket behind a text is can be seen from the scanner that has read the text. -/
theorem opensCall_iff_of_run (ran : run options {} before = .ok state) :
    OpensCall before depth ↔
      (∀ place, state.mode ≠ .relations place) ∧ depth = state.mode.closers.length + 1 := by
  have open? : unclosed? [] before = some state.closers :=
    ((Traces.start options).of_run ran).open_eq
  have length : state.closers.length = state.mode.closers.length + state.frames.length := by
    simp [closers]
  constructor
  · rintro ⟨edits, control, found, runs, notRelations, foundOpen, counted⟩
    have reaches : Reaches control (run options {} before) _ :=
      run_of_runs runs rfl .start distinct_start
    rw [ran] at reaches
    generalize Edit.applyAll options _ edits = outcome at reaches
    cases reaches with
    | state same =>
        subst same
        rw [open?] at foundOpen
        cases foundOpen
        have frames : state.control.frames = state.frames := rfl
        rw [frames] at counted
        refine ⟨?_, by omega⟩
        intro place mode
        exact notRelations place (congrArg Mode.unplaced mode)
  · rintro ⟨notRelations, rfl⟩
    obtain ⟨edits, runs, -⟩ := exists_runs_of_start ran
    refine ⟨edits, state.control, state.closers, runs, ?_, open?, ?_⟩
    · intro place mode
      exact notRelations place (mode_eq_relations_of_unplaced mode)
    · have frames : state.control.frames = state.frames := rfl
      rw [frames]
      omega

/-! ### Texts that are accepted -/

/-- A bracket in a call is only read if it is not too deep. -/
theorem ScanState.deep_of_act (acted : state.act options char = .ok next)
    (opens : isOpener char = true) (notRelations : ∀ place, state.mode ≠ .relations place) :
    state.mode.closers.length + 1 ≤ max options.maxDepth 1 := by
  cases mode : state.mode with
  | relations place => exact absurd mode (notRelations place)
  | name | value | afterCall => exact Nat.le_max_right _ _
  | call capture =>
      simp only [act, mode, callChar, if_pos opens] at acted
      split at acted
      · cases acted
      · rename_i fits
        simp only [Mode.closers, List.length_cons]
        omega

theorem depth_of_bracket {text : String} {request : Request}
    (scanned : scan options text = .ok request) (bracket : HasBracket text.toList depth) :
    1 ≤ depth ∧ depth ≤ max options.maxDepth 1 := by
  obtain ⟨before, _, split, ⟨opener, rest, rfl, opens⟩, opensCall⟩ := bracket
  obtain ⟨last, ran, -⟩ := bind_eq_ok_iff.mp scanned
  rw [split, run_append] at ran
  obtain ⟨state, ranBefore, ran⟩ := bind_eq_ok_iff.mp ran
  obtain ⟨next, stepped, -⟩ := bind_eq_ok_iff.mp ran
  obtain ⟨acted, acts, -⟩ := map_eq_ok_iff.mp stepped
  obtain ⟨notRelations, rfl⟩ := (opensCall_iff_of_run ranBefore).mp opensCall
  exact ⟨Nat.le_add_left 1 _, deep_of_act acts opens notRelations⟩

/-! ### Texts that are too deep -/

namespace ScanState.Traces

variable (traces : Traces options seen state)
include traces

/-- The token names a relation, which is as deep as the chain that it is added to. -/
theorem exists_relationAt {place : Place} (ends : EndsName rest)
    (mode : state.mode = .relations place) (written : state.token ≠ "") :
    ∃ before after, seen ++ rest = before ++ after ∧ state.tokenStart = before.length ∧
      RelationAt before after (place.chain.length + 1) := by
  obtain ⟨before, rfl, begins, names⟩ := traces.namesRelation ends mode written
  have kept := traces.mode
  rw [mode] at kept
  obtain ⟨-, front, split, begun, ran, modeBegun, empty, behind⟩ := kept written
  cases List.append_cancel_right split
  obtain ⟨edits, runs, -⟩ := exists_runs_of_start ran
  have relations : begun.control.mode = .relations place := congrArg Mode.unplaced modeBegun
  exact ⟨before, _, List.append_assoc _ _ _, begins, edits, begun.control, place, runs, relations,
    empty, behind, rfl, _, rest, names.named, rfl, ends⟩

/-- In a call, an opener is as deep as there are brackets open in the call, and itself. -/
theorem bracketAt {capture : Capture} {opener : Char} (rest : List Char)
    (mode : state.mode = .call capture) (opens : isOpener opener = true) :
    BracketAt seen (opener :: rest) (capture.outer.length + 2) := by
  have notRelations : ∀ place, state.mode ≠ .relations place := by simp [mode]
  have depth : capture.outer.length + 2 = state.mode.closers.length + 1 := by
    simp [mode, Mode.closers]
  exact ⟨⟨opener, rest, rfl, opens⟩,
    (opensCall_iff_of_run traces.ran).mpr ⟨notRelations, depth⟩⟩

/-- What is refused as too deep is deeper than the limit. -/
theorem exceeds_of_refuses (refuses : state.Refuses options rest error)
    (deep : error.fault = .tooDeep limit) :
    limit = options.maxDepth ∧ ∃ before after, seen ++ rest = before ++ after ∧
      error.position = before.length ∧ ExceedsAt limit before after := by
  cases refuses with
  | deepRelation mode written ends exceeds =>
      cases deep
      obtain ⟨before, after, split, begins, relation⟩ := traces.exists_relationAt ends mode written
      exact ⟨rfl, before, after, split, begins, _, exceeds, .inr relation⟩
  | deepBracket rest mode opens exceeds =>
      cases deep
      exact ⟨rfl, seen, _, rfl, traces.position_eq, _, exceeds,
        .inl (traces.bracketAt rest mode opens)⟩
  | fields _ _ failed =>
      obtain ⟨_, balanced⟩ := traces.balanced
      exact ((pointsInto_of_readFields balanced failed).not_tooDeep deep).elim
  | functions _ _ failed =>
      obtain ⟨_, balanced⟩ := traces.balanced
      exact ((pointsInto_of_readFunctions balanced failed).not_tooDeep deep).elim
  | value _ mode _ after failed =>
      obtain ⟨_, balanced⟩ := traces.balanced_call mode after
      exact ((pointsInto_of_readValue balanced failed).not_tooDeep deep).elim
  | group _ mode _ after failed =>
      obtain ⟨_, balanced⟩ := traces.balanced_call mode after
      exact ((pointsInto_of_readGroup balanced failed).not_tooDeep deep).elim
  | unexpected | missing | repeated | openCall | openRelation => cases deep

end ScanState.Traces

/-- A text that is accepted has no bracket deeper than the limit, but for the first brackets of
calls: these keep to the limit exactly if it is not 0, or the text has none. A text that is
rejected as nested too deep has, at the place of the error, a relation or a bracket that is
deeper than the limit. -/
theorem depth_of_scan (options : ScanOptions) (text : String) :
    (∀ request, scan options text = .ok request →
      (∀ depth, HasBracket text.toList depth → depth ≤ max options.maxDepth 1) ∧
        ((∀ depth, HasBracket text.toList depth → depth ≤ options.maxDepth) ↔
          options.maxDepth ≠ 0 ∨ ∀ depth, ¬HasBracket text.toList depth)) ∧
      ∀ position limit, scan options text = .error ⟨position, .tooDeep limit⟩ →
        limit = options.maxDepth ∧ ∃ before after, text.toList = before ++ after ∧
          position = before.length ∧ ExceedsAt limit before after := by
  refine ⟨fun request scanned => ⟨fun depth bracket => (depth_of_bracket scanned bracket).2, ?_⟩,
    ?_⟩
  · constructor
    · intro within
      rw [or_iff_not_imp_left, not_not]
      intro none depth bracket
      have first := (depth_of_bracket scanned bracket).1
      have last := within depth bracket
      omega
    · rintro (some | absent) depth bracket
      · have most := (depth_of_bracket scanned bracket).2
        omega
      · exact absurd bracket (absent depth)
  · intro position limit failed
    obtain ⟨seen, rest, state, split, traces, refuses⟩ := exists_refuses_of_scan failed
    rw [split]
    exact traces.exceeds_of_refuses refuses rfl

/-- Two brackets are the most that a limit of 2 allows. -/
theorem depth_of_scan_nested :
    (∀ depth, HasBracket "id=not(not(1))".toList depth → depth ≤ 2) ∧
      ∃ before after, "id=not(not(not(1)))".toList = before ++ after ∧
        14 = before.length ∧ ExceedsAt 2 before after := by
  constructor
  · have accepted : ∃ request, scan ⟨.merge, 2⟩ "id=not(not(1))" = .ok request := ⟨_, by cbv⟩
    obtain ⟨request, scanned⟩ := accepted
    exact ((depth_of_scan ⟨.merge, 2⟩ "id=not(not(1))").1 request scanned).2.mpr (.inl (by decide))
  · have rejected : scan ⟨.merge, 2⟩ "id=not(not(not(1)))" = .error ⟨14, .tooDeep 2⟩ := by cbv
    exact ((depth_of_scan ⟨.merge, 2⟩ "id=not(not(not(1)))").2 14 2 rejected).2

/-- Where no bracket is allowed, a call is accepted all the same. -/
theorem scan_call_at_limit_zero :
    ∃ request, scan ⟨.merge, 0⟩ "title=like(x)" = .ok request ∧
      ¬∀ depth, HasBracket "title=like(x)".toList depth → depth ≤ 0 := by
  refine ⟨_, by cbv, ?_⟩
  intro within
  have ran : ScanState.run ⟨.merge, 0⟩ {} "title=like".toList = .ok
      { position := 10, token := "like", tokenStart := 6, mode := .value (.predicate "title") } := by
    cbv
  have opens : OpensCall "title=like".toList 1 :=
    (opensCall_iff_of_run ran).mpr ⟨by simp, rfl⟩
  have first := within 1 ⟨"title=like".toList, "(x)".toList, rfl, ⟨'(', _, rfl, rfl⟩, opens⟩
  omega

end QueryGate
