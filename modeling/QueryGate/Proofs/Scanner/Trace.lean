import QueryGate.Proofs.Scanner.Moves

/-!
# What a scanner remembers of its text

A scanner remembers of the text that it has read how long it was, which brackets it left open,
and where the token or the call stands that is being read. This holds from the start on and is
kept by every move.
-/

namespace QueryGate

open Control ScanState

/-- Behind a text, the scanner is where the name of a relation begins. -/
def ScanState.ExpectsRelation (options : ScanOptions) (before : List Char) (place : Place) : Prop :=
  ∃ state, run options {} before = .ok state ∧ state.mode = .relations place ∧
    state.token = "" ∧ place.closed = none

/-- What a mode remembers of the text that has been read: of a call, all of it, and which of its
brackets are open; of a relation's name, where it begins. -/
def Mode.Traces (options : ScanOptions) (seen : List Char) (token : String) : Mode → Prop
  | .name | .value _ => True
  | .relations place =>
      token ≠ "" → IsName token ∧
        ∃ before, seen = before ++ token.toList ∧ ExpectsRelation options before place
  | .call capture =>
      token = "" ∧ unclosed? [] capture.text.toList = some (capture.innermost :: capture.outer) ∧
        ∃ before, seen = before ++ capture.text.toList ∧ capture.start = before.length
  | .afterCall => token = ""

/-- A token stands in the text that has been read, and at its end if it is not empty. -/
def TokenIn (seen : List Char) (token : String) (start : Nat) : Prop :=
  ∃ before after, seen = before ++ token.toList ++ after ∧ start = before.length ∧
    (token ≠ "" → after = [])

/-- What a scanner remembers of the text that it has read. -/
structure ScanState.Traces (options : ScanOptions) (seen : List Char) (state : ScanState) :
    Prop where
  ran : run options {} seen = .ok state
  position_eq : state.position = seen.length
  open_eq : unclosed? [] seen = some state.closers
  token : TokenIn seen state.token state.tokenStart
  balanced : ∃ depth, Balanced depth state.token.toList
  mode : state.mode.Traces options seen state.token

variable {options : ScanOptions} {state next : ScanState} {seen rest : List Char} {char : Char}

/-- What the scanner has read has made steps of its control. -/
theorem exists_runs_of_start (ran : run options {} seen = .ok state) :
    ∃ edits, Runs (level [] []) seen edits state.control ∧ state.control.Sound ∧
      state.request.unnumbered.Distinct := by
  have start : (ScanState.control {}).Sound := .start
  obtain ⟨edits, runs, distinct⟩ := exists_runs_of_run start distinct_start ran
  exact ⟨edits, runs, runs.sound .start, distinct⟩

namespace ScanState

theorem unclosed?_push {text : String} {closers behind : List Char}
    (open? : unclosed? [] text.toList = some closers)
    (after : afterBracket? closers char = some behind) :
    unclosed? [] (text.push char).toList = some behind := by
  rw [String.toList_push, unclosed?_append, open?, Option.bind_some, unclosed?_cons, after]
  rfl

theorem run_append (options : ScanOptions) (state : ScanState) (text rest : List Char) :
    run options state (text ++ rest) = (run options state text >>= fun next =>
      run options next rest) := by
  induction text generalizing state with
  | nil => rfl
  | cons char text hypothesis =>
      simp only [List.cons_append, run, bind_assoc, hypothesis]

namespace Traces

theorem start (options : ScanOptions) : Traces options [] {} where
  ran := rfl
  position_eq := rfl
  open_eq := rfl
  token := ⟨[], [], rfl, rfl, fun _ => rfl⟩
  balanced := ⟨0, .nil 0⟩
  mode := trivial

theorem settled (traces : Traces options seen state) (mode : state.mode = .afterCall) :
    state.token = "" := by
  have kept := traces.mode
  rw [mode] at kept
  exact kept

/-- With one more character the token still stands at the end of the text. -/
theorem exists_push (traces : Traces options seen state) (char : Char) :
    ∃ before, seen ++ [char] = before ++ (state.token.push char).toList ∧
      (if state.token.isEmpty then state.position else state.tokenStart) = before.length := by
  by_cases empty : state.token = ""
  · exact ⟨seen, by simp [empty], by simp [empty, traces.position_eq]⟩
  · obtain ⟨before, after, split, place, ends⟩ := traces.token
    rw [ends empty, List.append_nil] at split
    exact ⟨before, by simp [split], by simp [empty, place]⟩

/-- The place of a token that has been used up stays in the text. -/
theorem tokenIn_of_empty (traces : Traces options seen state) (char : Char) {token : String}
    (empty : token = "") : TokenIn (seen ++ [char]) token state.tokenStart := by
  obtain ⟨before, after, split, place, -⟩ := traces.token
  refine ⟨before, state.token.toList ++ after ++ [char], ?_, place, fun used => absurd empty used⟩
  simp [empty, split]

theorem mode_push (traces : Traces options seen state) (takes : state.mode.Takes char) :
    state.mode.Traces options (seen ++ [char]) (state.token.push char) := by
  have kept := traces.mode
  cases mode : state.mode with
  | name | value => trivial
  | relations place =>
      rw [mode] at kept takes
      intro _
      by_cases empty : state.token = ""
      · refine ⟨?_, seen, by simp [empty], state, traces.ran, mode, empty, takes.2⟩
        rw [empty]
        exact ⟨by simp, by simpa using takes.1⟩
      · obtain ⟨named, before, split, expects⟩ := kept empty
        refine ⟨⟨by simp, ?_⟩, before, by simp [split], expects⟩
        rw [String.toList_push, List.forall_mem_append]
        exact ⟨named.2, by simpa using takes.1⟩
  | call | afterCall =>
      rw [mode] at takes
      exact takes.elim

theorem mode_call {capture : Capture} (traces : Traces options seen state)
    (mode : state.mode = .call capture) :
    (Mode.call capture).Traces options seen state.token := by
  rw [← mode]
  exact traces.mode

/-- In a mode without a call nothing is remembered of a token that has been used up. -/
theorem mode_use {mode : Mode} (closers : mode.closers = []) (options : ScanOptions)
    (seen : List Char) : mode.Traces options seen "" := by
  cases mode with
  | name | value => trivial
  | relations place => exact fun same => absurd rfl same
  | call capture => cases closers
  | afterCall => rfl

/-- What is remembered is kept by every move. -/
theorem of_act (traces : Traces options seen state) (acted : state.act options char = .ok next) :
    Traces options (seen ++ [char]) { next with position := state.position + 1 } := by
  obtain ⟨moves, after⟩ := movesTo_of_act traces.settled acted
  have ran : run options {} (seen ++ [char]) =
      .ok { next with position := state.position + 1 } := by
    rw [run_append, traces.ran]
    simp [run, step, acted, bind, Except.bind, Except.map]
  have position_eq : state.position + 1 = (seen ++ [char]).length := by
    rw [traces.position_eq, List.length_append, List.length_singleton]
  have open_eq : unclosed? [] (seen ++ [char]) = some next.closers := by
    rw [unclosed?_append, traces.open_eq, Option.bind_some, unclosed?_cons, after]
    rfl
  cases moves with
  | push takes =>
      obtain ⟨before, split, place⟩ := traces.exists_push char
      obtain ⟨depth, balanced⟩ := traces.balanced
      refine ⟨ran, position_eq, open_eq, ⟨before, [], ?_, place, fun _ => rfl⟩,
        ⟨depth, ?_⟩, traces.mode_push takes⟩
      · rw [List.append_nil]
        exact split
      · have whole := balanced.append (.plain (isBracket_of_takes takes) (.nil depth))
        rw [← String.toList_push] at whole
        exact whole
  | use request made cursor frames closers =>
      exact ⟨ran, position_eq, open_eq, traces.tokenIn_of_empty char rfl, ⟨0, .nil 0⟩,
        mode_use closers options _⟩
  | begin target opens notCall =>
      obtain ⟨before, split, place⟩ := traces.exists_push char
      obtain ⟨depth, balanced⟩ := traces.balanced
      refine ⟨ran, position_eq, open_eq, traces.tokenIn_of_empty char rfl, ⟨0, .nil 0⟩,
        rfl, ?_, before, split, place⟩
      rw [String.toList_push, unclosed?_append, balanced.unclosed?, Option.bind_some,
        unclosed?_cons, afterBracket?_of_opener opens]
      rfl
  | @collect capture innermost outer mode afterCall =>
      obtain ⟨empty, openCall, before, split, place⟩ := traces.mode_call mode
      refine ⟨ran, position_eq, open_eq, traces.tokenIn_of_empty char empty, traces.balanced,
        empty, ?_, before, ?_, place⟩
      · exact unclosed?_push openCall afterCall
      · rw [String.toList_push, split, List.append_assoc]
  | read request mode =>
      obtain ⟨empty, -⟩ := traces.mode_call mode
      exact ⟨ran, position_eq, open_eq, traces.tokenIn_of_empty char empty, traces.balanced, empty⟩
  | @called capture mode afterCall =>
      obtain ⟨-, openCall, before, split, place⟩ := traces.mode_call mode
      refine ⟨ran, position_eq, open_eq, ⟨before, [], ?_, place, fun _ => rfl⟩, ?_, trivial⟩
      · rw [String.toList_push, split, List.append_nil, List.append_assoc]
      · exact balanced_of_unclosed? (unclosed?_push openCall afterCall)

/-- Along a text the scanner remembers what it has read. -/
theorem of_run {text : List Char} (traces : Traces options seen state)
    (ran : run options state text = .ok next) : Traces options (seen ++ text) next := by
  induction text generalizing state seen with
  | nil =>
      cases ran
      rwa [List.append_nil]
  | cons char text hypothesis =>
      obtain ⟨_, stepped, ranRest⟩ := bind_eq_ok_iff.mp ran
      obtain ⟨acted, found, rfl⟩ := map_eq_ok_iff.mp stepped
      rw [List.append_cons]
      exact hypothesis (traces.of_act found) ranRest

end Traces

end ScanState

end QueryGate
