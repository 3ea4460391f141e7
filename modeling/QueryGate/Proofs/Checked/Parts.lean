import QueryGate.Proofs.Checked.Loose
import QueryGate.Proofs.Scanner.Trace

/-!
# The parts of a scanner fit together

A scanner with loose parts reads every text like the scanner with one mode, from the parts of a
mode to the parts of a mode, and never breaks off. What is known of the scanner with one mode is
known of the loose parts: where a parameter is there, that a call takes it away and may give it
back, and where a token and a call stand in the text.
-/

namespace QueryGate

open Checked

theorem Parameter.parameter?_purpose (parameter : Parameter) :
    parameter.purpose.parameter? = some parameter := by
  cases parameter <;> rfl

namespace ScanState

variable {options : ScanOptions} {state next : ScanState}

/-! ### What does not depend on the mode -/

theorem mode_of_attach {parent relation : Path}
    (attached : state.attach options parent = .ok (next, relation)) : next.mode = state.mode := by
  obtain ⟨request, made, rfl⟩ := exists_of_attach attached
  rfl

theorem mode_of_endRelation {place : Place} (ended : state.endRelation options place = .ok next) :
    next.mode = state.mode := by
  obtain ⟨request, made, rfl⟩ := exists_of_endRelation ended
  rfl

theorem mode_of_endValue {parameter : Parameter} (ended : state.endValue parameter = .ok next) :
    next.mode = state.mode := by
  obtain ⟨request, rfl⟩ := exists_of_endValue ended
  rfl

variable (state) (mode : Mode)

/-- A relation is attached in the same way in any mode. -/
theorem attach_enter (options : ScanOptions) (parent : Path) :
    (state.enter mode).attach options parent =
      (state.attach options parent).map fun attached => (attached.1.enter mode, attached.2) := by
  simp only [attach, dropToken, enter]
  cases (state.request.at? parent).bind fun node => node.child? state.token with
  | none => by_cases deep : options.maxDepth < parent.length + 1 <;> simp only [deep] <;> rfl
  | some existing =>
      cases options.duplicates with
      | merge | replace =>
          by_cases deep : options.maxDepth < parent.length + 1 <;> simp only [deep] <;> rfl
      | reject => rfl

/-- A value ends in the same way in any mode. -/
theorem endValue_enter (parameter : Parameter) :
    (state.enter mode).endValue parameter =
      (state.endValue parameter).map fun ended => ended.enter mode := by
  cases parameter with
  | clause directive =>
      rw [endValue, endValue]
      change (if state.token.isEmpty then _ else _) = _
      split <;> rfl
  | fields | functions =>
      rw [endValue, endValue, map_bind_eq]
      rfl
  | predicate name => rfl

end ScanState

namespace LooseState

variable {options : ScanOptions} {state next : ScanState}

/-- The parts of a state whose mode is known. -/
theorem loose_of_mode {mode : Mode} (same : state.mode = mode) :
    state.loose = (state.enter mode).loose := by
  rw [← same]
  rfl

theorem core_loose (state : ScanState) : state.loose.core = state.enter .name := rfl

theorem attach_loose (options : ScanOptions) (state : ScanState) (parent : Path) :
    attach options state.loose parent =
      of ((state.attach options parent).map fun attached => (attached.1.loose, attached.2)) := by
  rw [attach, core_loose, state.attach_enter]
  cases attached : state.attach options parent with
  | error error => rfl
  | ok found =>
      obtain ⟨request, made, same⟩ := ScanState.exists_of_attach attached
      cases found
      cases same
      rfl

theorem endRelation_loose (options : ScanOptions) (state : ScanState) (place : Place) :
    endRelation options state.loose place =
      of ((state.endRelation options place).map ScanState.loose) := by
  have token : state.loose.token = state.token := rfl
  rw [endRelation, ScanState.endRelation, attach_loose, token]
  split
  · cases state.attach options place.chain <;> rfl
  · split <;> rfl

theorem closeRelation_loose (mode : state.mode = .name) :
    state.loose.closeRelation = of (state.closeRelation.map ScanState.loose) := by
  rw [loose_of_mode mode]
  simp only [closeRelation, ScanState.closeRelation, ScanState.loose, ScanState.enter]
  cases state.frames <;> rfl

/-- A call is begun in the mode of its target, and takes the parameter away. -/
theorem startCall_loose (opener : Char) (target : CallTarget)
    (mode : state.mode.loose = target.looseMode) :
    { state.loose with purpose := none }.startCall opener target.purpose =
      (state.startCall opener target).loose := by
  simp only [startCall, ScanState.loose, mode]
  rfl

/-! ### Names -/

theorem loose_afterName (mode : state.mode = .name) :
    state.loose.afterName = (state.dropToken.enter (state.modeOfName state.token)).loose := by
  rw [loose_of_mode mode]
  simp only [afterName, ScanState.modeOfName, ScanState.loose, ScanState.enter]
  rcases Reserved.ofName? state.token with _ | _ | _ | _ | _ <;> rfl

theorem nameChar_loose (mode : state.mode = .name) (char : Char) :
    state.loose.nameChar char = of ((state.nameChar char).map ScanState.loose) := by
  have token : state.loose.token = state.token := rfl
  have begun : state.loose.startCall '(' .group = (state.startCall '(' .group).loose := by
    rw [loose_of_mode mode]
    exact @startCall_loose (state.enter .name) '(' .group rfl
  rw [nameChar.eq_def, token]
  split
  · rw [ScanState.nameChar]
    split
    · rfl
    · rw [loose_afterName mode]
      rfl
  · rw [ScanState.nameChar]
    cases Connective.ofWord? state.token with
    | none => rfl
    | some joining => exact congrArg (fun begun => of (.ok begun)) begun
  · rw [ScanState.nameChar]
    split <;> rfl
  · rw [ScanState.nameChar]
    split
    · exact closeRelation_loose mode
    · rfl
  iterate 4 rfl
  -- The equation of any other character asks that it is none of those above.
  · rw [ScanState.nameChar]
    · rfl
    all_goals assumption

/-! ### Values -/

section Values

variable {parameter : Parameter} (mode : state.mode = .value parameter)
include mode

theorem purpose_loose : state.loose.purpose = some parameter.purpose := by
  rw [loose_of_mode mode]
  rfl

/-- A value that ends takes its parameter away. -/
theorem endValue_loose :
    state.loose.endValue =
      of ((state.endValue parameter).map fun ended => { ended.loose with purpose := none }) := by
  rw [endValue, purpose_loose mode, need_some, ok_bind, parameter.parameter?_purpose, need_some,
    ok_bind, core_loose, state.endValue_enter]
  cases ended : state.endValue parameter with
  | error error => rfl
  | ok next =>
      obtain ⟨request, rfl⟩ := ScanState.exists_of_endValue ended
      rfl

/-- Where a value ends, a parameter's name comes. -/
theorem enter_endValue_loose :
    (fun ended => ended.enter .name) <$> state.loose.endValue =
      of ((state.endValue parameter).map fun ended => (ended.enter .name).loose) := by
  rw [endValue_loose mode]
  cases ended : state.endValue parameter with
  | error error => rfl
  | ok next =>
      have kept := loose_of_mode ((ScanState.mode_of_endValue ended).trans mode)
      simp only [Except.map, kept]
      rfl

/-- A parenthesis in a value opens a call of what the value belongs to. -/
theorem opensCall_loose :
    state.loose.opensCall = (state.callTarget? parameter).isSome ∧
      ∀ target, state.callTarget? parameter = some target →
        target.purpose = parameter.purpose ∧ target.looseMode = .value := by
  rw [opensCall, purpose_loose mode]
  have token : state.loose.token = state.token := rfl
  cases parameter with
  | clause | fields => exact ⟨rfl, fun target found => by cases found⟩
  | functions =>
      simp only [Parameter.purpose, ScanState.callTarget?, token]
      cases state.token.isEmpty <;> simp [CallTarget.purpose, CallTarget.looseMode]
  | predicate name =>
      simp only [Parameter.purpose, ScanState.callTarget?, token]
      cases Operator.ofWord? state.token <;> simp [CallTarget.purpose, CallTarget.looseMode]

/-- A call in a value is begun with what the value belongs to. -/
theorem startCallInValue_loose (opener : Char) (target : CallTarget)
    (belongs : target.purpose = parameter.purpose) (inside : target.looseMode = .value) :
    state.loose.startCallInValue opener = of (.ok (state.startCall opener target).loose) := by
  rw [startCallInValue, purpose_loose mode, need_some, ok_bind, ← belongs, startCall_loose opener]
  · rfl
  · rw [mode, inside]
    rfl

theorem valueChar_loose (char : Char) :
    state.loose.valueChar char = of ((state.valueChar parameter char).map ScanState.loose) := by
  have token : state.loose.token = state.token := rfl
  have ends := enter_endValue_loose mode
  rw [valueChar.eq_def, token]
  split
  · rw [map_eq_pure_bind] at ends
    rw [ends, ScanState.valueChar]
    cases state.endValue parameter <;> rfl
  · have closed := congrArg (· >>= closeRelation) ends
    simp only [bind_map_left] at closed
    rw [closed, ScanState.valueChar]
    cases state.endValue parameter with
    | error error => rfl
    | ok ended => exact closeRelation_loose rfl
  · obtain ⟨opens, same⟩ := opensCall_loose mode
    rw [opens, ScanState.valueChar]
    cases found : state.callTarget? parameter with
    | none => rfl
    | some target =>
        obtain ⟨belongs, inside⟩ := same target found
        rw [Option.isSome_some, if_pos rfl, startCallInValue_loose mode '(' target belongs inside]
        rfl
  · rw [purpose_loose mode]
    cases parameter with
    | clause | fields | functions => rfl
    | predicate name =>
        change (if state.token.isEmpty then _ else _) = of (Except.map _ (if _ then _ else _))
        split
        · exact startCallInValue_loose mode '[' (.predicate name) rfl rfl
        · rfl
  iterate 2 rfl
  · rw [ScanState.valueChar]
    · rfl
    all_goals assumption

end Values

/-! ### Relations -/

section Relations

variable {place : Place} (mode : state.mode = .relations place)
include mode

/-- What comes behind an entry that is attached comes behind it with loose parts. -/
theorem bind_attach_loose {after : ScanState × Path → Except QueryError ScanState}
    {afterLoose : LooseState × Path → Checked QueryError LooseState}
    (same : ∀ next relation, next.mode = .relations place →
      afterLoose (next.loose, relation) = of ((after (next, relation)).map ScanState.loose)) :
    attach options state.loose place.chain >>= afterLoose =
      of ((state.attach options place.chain >>= after).map ScanState.loose) := by
  rw [attach_loose]
  cases attached : state.attach options place.chain with
  | error error => rfl
  | ok found => exact same _ _ ((ScanState.mode_of_attach attached).trans mode)

/-- What comes behind the end of an entry comes behind it with loose parts. -/
theorem bind_endRelation_loose {after : ScanState → Except QueryError ScanState}
    {afterLoose : LooseState → Checked QueryError LooseState}
    (same : ∀ next : ScanState, next.mode = .relations place →
      afterLoose next.loose = of ((after next).map ScanState.loose)) :
    endRelation options state.loose place >>= afterLoose =
      of ((state.endRelation options place >>= after).map ScanState.loose) := by
  rw [endRelation_loose]
  cases ended : state.endRelation options place with
  | error error => rfl
  | ok next => exact same next ((ScanState.mode_of_endRelation ended).trans mode)

theorem relationChar_loose (char : Char) :
    relationChar options state.loose place char =
      of ((ScanState.relationChar options state place char).map ScanState.loose) := by
  have token : state.loose.token = state.token := rfl
  rw [relationChar.eq_def, token]
  split
  · rw [ScanState.relationChar]
    split
    · split <;> rfl
    · apply bind_attach_loose mode
      intro next relation kept
      rw [loose_of_mode kept]
      rfl
  · rw [ScanState.relationChar]
    split
    · apply bind_attach_loose mode
      intro next relation kept
      rw [loose_of_mode kept]
      rfl
    · rw [loose_of_mode mode]
      cases place.closed <;> rfl
  iterate 2
    · apply bind_endRelation_loose mode
      intro next kept
      rw [loose_of_mode kept]
      rfl
  · apply bind_endRelation_loose mode
    intro next kept
    rw [loose_of_mode kept]
    exact @closeRelation_loose { next with cursor := place.anchor, mode := .name } rfl
  iterate 3 rfl
  · rw [ScanState.relationChar]
    · split <;> rfl
    all_goals assumption

end Relations

/-! ### Calls -/

/-- A call that ends is read, or becomes the token of the parameter that it gives back. -/
theorem endCall_loose {capture : Capture} (mode : state.mode = .call capture) (text : String)
    (closers : List Char) :
    state.loose.endCall { capture.loose with text := text, closers := closers } =
      of ((state.endCall { capture with text := text }).map ScanState.loose) := by
  rw [loose_of_mode mode, endCall, ScanState.endCall]
  rcases capture with ⟨start, collected, innermost, outer, target⟩
  cases target with
  | predicate name =>
      change of (readValue start text.toList) >>= _ = of (Except.map _ (readValue _ _ >>= _))
      cases readValue start text.toList <;> rfl
  | group =>
      change of (readGroup start text.toList) >>= _ = of (Except.map _ (readGroup _ _ >>= _))
      cases readGroup start text.toList <;> rfl
  | functions => rfl

/-- A call that goes on, with its closers in one list. -/
theorem collect_loose {capture : Capture} (mode : state.mode = .call capture) (text : String)
    {innermost : Char} {outer closers : List Char} (same : closers = (innermost :: outer).reverse) :
    { state.loose with capture := some { capture.loose with text := text, closers := closers } } =
      (state.enter (.call
        { capture with text := text, innermost := innermost, outer := outer })).loose := by
  subst same
  rw [loose_of_mode mode]
  rfl

theorem callChar_loose {capture : Capture} (mode : state.mode = .call capture) (char : Char) :
    callChar options state.loose capture.loose char =
      of ((ScanState.callChar options state capture char).map ScanState.loose) := by
  have last : capture.loose.closers.getLast? = some capture.innermost := by simp [Capture.loose]
  have rest : capture.loose.closers.dropLast = capture.outer.reverse := by simp [Capture.loose]
  have more : capture.loose.closers ++ [closerOf char] =
      (closerOf char :: capture.innermost :: capture.outer).reverse := by simp [Capture.loose]
  have text : capture.loose.text = capture.text := rfl
  simp only [callChar, ScanState.callChar, last, rest, more, text, List.length_reverse,
    List.length_cons]
  split
  · split
    · rfl
    · exact congrArg (fun next => of (.ok next)) (collect_loose mode _ rfl)
  · split
    · by_cases matched : char = capture.innermost
      · simp only [matched, ne_eq, not_true_eq_false, if_false]
        rcases capture with ⟨start, collected, innermost, outer, target⟩
        cases outer with
        | nil => exact endCall_loose mode _ _
        | cons next outer =>
            simp only [List.isEmpty_reverse, List.isEmpty_cons]
            exact congrArg (fun next => of (.ok next)) (collect_loose mode _ rfl)
      · rw [if_pos fun same => matched (Option.some.inj same).symm, if_pos matched]
        rfl
    · exact congrArg (fun next => of (.ok next)) (collect_loose mode _ rfl)

theorem afterCallChar_loose (mode : state.mode = .afterCall) (char : Char) :
    state.loose.afterCallChar char = of ((state.afterCallChar char).map ScanState.loose) := by
  rw [loose_of_mode mode, afterCallChar.eq_def]
  split
  · rfl
  · exact @closeRelation_loose (state.enter .name) rfl
  · rw [ScanState.afterCallChar]
    · rfl
    all_goals assumption

/-! ### Texts -/

theorem act_loose (options : ScanOptions) (state : ScanState) (char : Char) :
    act options state.loose char = of ((state.act options char).map ScanState.loose) := by
  have capture : state.loose.capture = state.mode.capture? := rfl
  have outside : state.loose.mode = state.mode.loose := rfl
  rw [act, ScanState.act, capture, outside]
  cases mode : state.mode with
  | name => exact nameChar_loose mode char
  | value parameter => exact valueChar_loose mode char
  | relations place => exact relationChar_loose mode char
  | call capture => exact callChar_loose mode char
  | afterCall => exact afterCallChar_loose mode char

theorem step_loose (options : ScanOptions) (state : ScanState) (char : Char) :
    step options state.loose char = of ((state.step options char).map ScanState.loose) := by
  rw [step, act_loose, ScanState.step]
  cases state.act options char <;> rfl

theorem run_loose (options : ScanOptions) (state : ScanState) (text : List Char) :
    run options state.loose text = of ((state.run options text).map ScanState.loose) := by
  induction text generalizing state with
  | nil => rfl
  | cons char rest hypothesis =>
      rw [run, ScanState.run, step_loose]
      cases state.step options char with
      | error error => rfl
      | ok next => exact hypothesis next

/-- What the text has ended in the middle of ends. A value takes its parameter away. -/
theorem endText_loose (options : ScanOptions) (state : ScanState) :
    ∃ close : ScanState → LooseState,
      endText options state.loose = of ((state.endText options).map close) ∧
      ∀ ended, (close ended).request = ended.request ∧ (close ended).frames = ended.frames ∧
        (close ended).position = ended.position := by
  have capture : state.loose.capture = state.mode.capture? := rfl
  have outside : state.loose.mode = state.mode.loose := rfl
  rw [endText, ScanState.endText, capture, outside]
  cases mode : state.mode with
  | name =>
      refine ⟨ScanState.loose, ?_, fun ended => ⟨rfl, rfl, rfl⟩⟩
      change (if state.token.isEmpty then _ else _) = of (Except.map _ (if _ then _ else _))
      split <;> rfl
  | value parameter => exact ⟨_, endValue_loose mode, fun ended => ⟨rfl, rfl, rfl⟩⟩
  | relations place =>
      exact ⟨_, endRelation_loose options state place, fun ended => ⟨rfl, rfl, rfl⟩⟩
  | call capture =>
      refine ⟨ScanState.loose, ?_, fun ended => ⟨rfl, rfl, rfl⟩⟩
      simp only [Mode.capture?, Capture.loose, List.reverse_cons, List.getLast?_concat]
      rfl
  | afterCall => exact ⟨ScanState.loose, rfl, fun ended => ⟨rfl, rfl, rfl⟩⟩

theorem finish_loose (options : ScanOptions) (state : ScanState) :
    finish options state.loose = of (state.finish options) := by
  obtain ⟨close, ends, kept⟩ := endText_loose options state
  rw [finish, ends, ScanState.finish]
  cases state.endText options with
  | error error => rfl
  | ok ended =>
      obtain ⟨request, frames, position⟩ := kept ended
      simp only [Except.map, ok_bind, request, frames, position]
      change _ = of (if ended.frames.isEmpty then _ else _)
      split <;> rfl

theorem loose_start : ({} : LooseState) = ({} : ScanState).loose := rfl

/-- The scanner with loose parts breaks off at no text. -/
theorem scan_loose (options : ScanOptions) (text : String) :
    scan options text = of (QueryGate.scan options text) := by
  rw [scan, QueryGate.scan, loose_start, run_loose]
  cases ScanState.run options {} text.toList with
  | error error => rfl
  | ok state => exact finish_loose options state

/-! ### What fits together -/

/-- The parts of a state fit together behind a text. -/
structure Fits (seen : List Char) (state : LooseState) : Prop where
  position_eq : state.position = seen.length
  /-- Outside of calls there is a parameter exactly while a value is read. -/
  purpose_iff : state.capture = none → (state.purpose.isSome ↔ state.mode = .value)
  /-- It is a field, or a reserved parameter other than a list of relations. -/
  purpose : ∀ purpose, state.purpose = some purpose →
    (∃ name, purpose = .predicate name) ∨
      ∃ parameter, purpose = .reserved parameter ∧ parameter ≠ .includes
  token_of_afterCall : state.mode = .afterCall → state.token = ""
  token_of_closed : ∀ place, state.mode = .relations place → place.closed.isSome →
    state.token = ""
  /-- A token is the end of the text from its place on. -/
  token : state.token ≠ "" →
    ∃ before, seen = before ++ state.token.toList ∧ state.tokenStart = before.length
  /-- A call is the end of the text from its place on, and its closers are those that its text
  leaves open. -/
  capture : ∀ capture, state.capture = some capture →
    (∃ before, seen = before ++ capture.text.toList ∧ capture.start = before.length) ∧
      unclosed? [] capture.text.toList = some capture.closers.reverse ∧ capture.closers ≠ []

theorem purpose_of_parameter (parameter : Parameter) :
    (∃ name, parameter.purpose = .predicate name) ∨
      ∃ reserved, parameter.purpose = .reserved reserved ∧ reserved ≠ .includes := by
  cases parameter with
  | predicate name => exact .inl ⟨name, rfl⟩
  | clause | fields | functions => exact .inr ⟨_, rfl, nofun⟩

/-- A call is begun where a name or a value stands. -/
theorem loose_eq_relations {mode : Mode} {place : Place} (same : mode.loose = .relations place) :
    mode = .relations place := by
  cases mode with
  | call capture => rcases capture with ⟨_, _, _, _, _ | _ | _⟩ <;> cases same
  | relations => exact congrArg Mode.relations (LooseMode.relations.inj same)
  | name | value | afterCall => cases same

theorem loose_eq_afterCall {mode : Mode} (same : mode.loose = .afterCall) : mode = .afterCall := by
  cases mode with
  | call capture => rcases capture with ⟨_, _, _, _, _ | _ | _⟩ <;> cases same
  | afterCall => rfl
  | name | value | relations => cases same

/-- What a scanner remembers of its text fits its parts together. -/
theorem fits_of_traces {seen : List Char} (traces : state.Traces options seen) :
    state.loose.Fits seen where
  position_eq := traces.position_eq
  purpose_iff free := by
    change state.mode.purpose?.isSome ↔ state.mode.loose = .value
    change state.mode.capture? = none at free
    cases mode : state.mode with
    | call capture =>
        rw [mode] at free
        cases free
    | name | value | relations | afterCall => simp [Mode.purpose?, Mode.loose]
  purpose purpose found := by
    change state.mode.purpose? = some purpose at found
    cases mode : state.mode with
    | value parameter =>
        rw [mode] at found
        cases found
        exact purpose_of_parameter parameter
    | name | relations | call | afterCall =>
        rw [mode] at found
        cases found
  token_of_afterCall mode := traces.settled (loose_eq_afterCall mode)
  token_of_closed place mode closed := by
    have kept := traces.mode
    rw [loose_eq_relations mode] at kept
    by_contra used
    obtain ⟨-, before, -, reached, -, -, -, opened⟩ := kept used
    rw [opened] at closed
    cases closed
  token used := by
    obtain ⟨before, after, split, place, ends⟩ := traces.token
    rw [ends used, List.append_nil] at split
    exact ⟨before, split, place⟩
  capture capture found := by
    change state.mode.capture? = some capture at found
    cases mode : state.mode with
    | call collected =>
        rw [mode] at found
        cases found
        obtain ⟨-, open?, contiguous⟩ := traces.mode_call mode
        refine ⟨contiguous, ?_, by simp [Capture.loose]⟩
        rw [Capture.loose, List.reverse_reverse]
        exact open?
    | name | value | relations | afterCall =>
        rw [mode] at found
        cases found

/-- A scanner with loose parts reads every text like the scanner with one mode: it does not break
off, neither at the end of a value, which needs a parameter that can be given one, nor where a call
begins in a value, which needs a parameter, nor at the end of a text, where a call needs a bracket
that is open. Behind every text that it reads its parts fit together. -/
theorem parts_fit (options : ScanOptions) :
    (∀ text, scan options text = of (QueryGate.scan options text)) ∧
      ∀ seen state, run options {} seen = of (.ok state) → state.Fits seen := by
  refine ⟨scan_loose options, ?_⟩
  intro seen state ran
  rw [loose_start, run_loose] at ran
  obtain ⟨reached, found, rfl⟩ := map_eq_ok_iff.mp (Option.some.inj ran)
  exact fits_of_traces ((ScanState.Traces.start options).of_run found)

/-- In the brackets of the second call of a list of functions, where the parameter is taken away and
the first call is part of the text of the second. -/
theorem parts_fit_functions :
    ∃ state, run {} {} "fn=count(id),sum([".toList = of (.ok state) ∧
      state.Fits "fn=count(id),sum([".toList ∧ state.purpose = none ∧
      state.capture = some ⟨3, "count(id),sum([", [')', ']'], .reserved .functions⟩ := by
  obtain ⟨state, ran, purpose, capture⟩ :
      ∃ state, run {} {} "fn=count(id),sum([".toList = of (.ok state) ∧ state.purpose = none ∧
        state.capture = some ⟨3, "count(id),sum([", [')', ']'], .reserved .functions⟩ :=
    ⟨_, rfl, rfl, rfl⟩
  exact ⟨state, ran, (parts_fit {}).2 _ state ran, purpose, capture⟩

end LooseState

end QueryGate
