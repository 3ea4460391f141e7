import QueryGate.Proofs.Expression.Open
import QueryGate.Proofs.Scanner.Edits

/-!
# What is being read

Apart from the request that it builds, the scanner keeps what it has read of the current name,
value or call, and which relations are open. A character can do six things to that, whatever it
does to the request: go to the token, use the token up, begin a call, go to the call, or end it in
one of two ways. In each case the brackets that the scanner waits for change as the character
says.
-/

namespace QueryGate

/-- The closers that a mode waits for, the innermost first: those of the call. -/
def Mode.closers : Mode → List Char
  | .call capture => capture.innermost :: capture.outer
  | _ => []

namespace ScanState

/-- The closers that the scanner waits for, the innermost first: those of the call, and one for
each open relation. -/
def closers (state : ScanState) : List Char :=
  state.mode.closers ++ state.frames.map fun _ => ')'

/-- What a character can do to what is being read. -/
inductive Moves (state : ScanState) (char : Char) : ScanState → Prop where
  | push : state.mode.Takes char → Moves state char (state.push char)
  /-- The token is used up. -/
  | use (request : Request) (made : Nat) (cursor : Path) {mode : Mode} (frames : List Frame) :
      mode.closers = [] →
      Moves state char { state with
        token := "", request := request, made := made, cursor := cursor, mode := mode,
        frames := frames }
  /-- The token begins a call. -/
  | begin (target : CallTarget) :
      isOpener char = true → state.mode.closers = [] →
      Moves state char (state.startCall char target)
  | collect {capture : Capture} (innermost : Char) (outer : List Char) :
      state.mode = .call capture →
      afterBracket? (capture.innermost :: capture.outer) char = some (innermost :: outer) →
      Moves state char (state.enter (.call
        { capture with
          text := capture.text.push char, innermost := innermost, outer := outer }))
  /-- The call ends and is read. -/
  | read {capture : Capture} (request : Request) :
      state.mode = .call capture →
      Moves state char { state with request := request, mode := .afterCall }
  /-- The call ends and becomes the token. -/
  | called {capture : Capture} :
      state.mode = .call capture →
      afterBracket? (capture.innermost :: capture.outer) char = some [] →
      Moves state char { state with
        token := capture.text.push char, tokenStart := capture.start, mode := .value .functions }

variable {options : ScanOptions} {state next : ScanState} {char : Char}

/-- A move, and the brackets that are open behind it. -/
def MovesTo (state : ScanState) (char : Char) (next : ScanState) : Prop :=
  Moves state char next ∧ afterBracket? state.closers char = some next.closers

theorem Moves.position_eq (moves : Moves state char next) : next.position = state.position := by
  cases moves <;> rfl

/-! ### The end of what has been begun -/

/-- To attach a relation uses up the token, unless the relation is forbidden or too deep. -/
theorem exists_attach_eq (options : ScanOptions) (state : ScanState) (parent : Path) :
    state.attach options parent = .error ⟨state.tokenStart, .repeatedInclude state.token⟩ ∨
      ∃ request made, state.attach options parent =
        if options.maxDepth < parent.length + 1 then
          .error ⟨state.tokenStart, .tooDeep options.maxDepth⟩
        else .ok ({ state with token := "", request := request, made := made },
          parent ++ [state.token]) := by
  rw [attach]
  split
  · exact .inr ⟨_, _, rfl⟩
  · exact .inr ⟨_, _, rfl⟩
  · exact .inr ⟨_, _, rfl⟩
  · exact .inl rfl

theorem exists_of_attach {parent path : Path}
    (attached : state.attach options parent = .ok (next, path)) :
    ∃ request made, next = { state with token := "", request := request, made := made } := by
  obtain same | ⟨request, made, same⟩ := exists_attach_eq options state parent
  · rw [same] at attached
    cases attached
  · rw [same] at attached
    split at attached <;> cases attached
    exact ⟨request, made, rfl⟩

theorem exists_of_endRelation {place : Place}
    (ended : state.endRelation options place = .ok next) :
    ∃ request made, next = { state with token := "", request := request, made := made } := by
  rw [endRelation] at ended
  split at ended
  · obtain ⟨⟨attached, path⟩, found, rfl⟩ := map_eq_ok_iff.mp ended
    exact exists_of_attach found
  · rename_i empty
    have nothing : state.token = "" := by simpa using empty
    split at ended
    · cases ended
    · cases ended
      exact ⟨state.request, state.made, by rw [← nothing]⟩

theorem exists_of_endValue {parameter : Parameter} (ended : state.endValue parameter = .ok next) :
    ∃ request, next = { state with token := "", request := request } := by
  cases parameter with
  | clause directive =>
      simp only [endValue] at ended
      split at ended <;> cases ended
      exact ⟨_, rfl⟩
  | fields | functions =>
      simp only [endValue, bind_eq_ok_iff, pure_eq_ok_iff] at ended
      obtain ⟨_, -, rfl⟩ := ended
      exact ⟨_, rfl⟩
  | predicate name =>
      cases ended
      exact ⟨_, rfl⟩

/-- What has been begun uses up the token when it ends; a call cannot end so. -/
theorem exists_of_endText (settled : state.mode = .afterCall → state.token = "")
    (ended : state.endText options = .ok next) :
    state.mode.closers = [] ∧
      ∃ request made, next = { state with token := "", request := request, made := made } := by
  rcases state with ⟨position, request, made, cursor, token, tokenStart, mode, frames⟩
  cases mode with
  | name =>
      simp only [endText] at ended
      split at ended
      · rename_i empty
        have nothing : token = "" := by simpa using empty
        subst nothing
        cases ended
        exact ⟨rfl, request, made, rfl⟩
      · cases ended
  | value parameter =>
      obtain ⟨request, rfl⟩ := exists_of_endValue ended
      exact ⟨rfl, request, made, rfl⟩
  | relations place => exact ⟨rfl, exists_of_endRelation ended⟩
  | call capture => cases ended
  | afterCall =>
      have nothing : token = "" := settled rfl
      subst nothing
      cases ended
      exact ⟨rfl, request, made, rfl⟩

/-! ### Characters -/

theorem closers_of_not_call (mode : state.mode.closers = []) :
    state.closers = state.frames.map fun _ => ')' := by
  rw [closers, mode, List.nil_append]

/-- A character that is no bracket leaves all open brackets open. -/
theorem MovesTo.of_plain (plain : isBracket char = false) (moves : Moves state char next)
    (same : next.closers = state.closers) : MovesTo state char next :=
  ⟨moves, by rw [same, afterBracket?_of_plain plain]⟩

theorem isBracket_of_takes {mode : Mode} (takes : mode.Takes char) : isBracket char = false := by
  cases mode with
  | name => exact isBracket_of_isSeparator takes
  | value parameter => exact takes.1
  | relations place => exact isBracket_of_isSeparator takes.1
  | call | afterCall => exact takes.elim

theorem movesTo_push (takes : state.mode.Takes char) : MovesTo state char (state.push char) :=
  .of_plain (isBracket_of_takes takes) (.push takes) rfl

theorem movesTo_begin (opens : isOpener char = true) (notCall : state.mode.closers = [])
    (target : CallTarget) : MovesTo state char (state.startCall char target) := by
  refine ⟨.begin target opens notCall, ?_⟩
  rw [afterBracket?_of_opener opens, closers_of_not_call notCall]
  rfl

/-- Behind a separator a parameter's name comes. -/
theorem movesTo_separator (settled : state.mode = .afterCall → state.token = "")
    (notCall : ∀ capture, state.mode ≠ .call capture)
    (acted : state.act options '&' = .ok next) : MovesTo state '&' next := by
  rw [act_separator notCall, bind_eq_ok_iff] at acted
  obtain ⟨ended, ends, same⟩ := acted
  obtain ⟨mode, request, made, rfl⟩ := exists_of_endText settled ends
  cases same
  refine .of_plain rfl (.use request made state.home state.frames rfl) ?_
  rw [closers_of_not_call mode]
  rfl

/-- A closing parenthesis closes the innermost relation. -/
theorem movesTo_closer (settled : state.mode = .afterCall → state.token = "")
    (notCall : ∀ capture, state.mode ≠ .call capture)
    (acted : state.act options ')' = .ok next) : MovesTo state ')' next := by
  rw [act_closer notCall, bind_eq_ok_iff] at acted
  obtain ⟨ended, ends, left⟩ := acted
  obtain ⟨mode, request, made, rfl⟩ := exists_of_endText settled ends
  rw [closeRelation] at left
  split at left
  · cases left
  · rename_i frame frames open?
    cases left
    refine ⟨.use request made frame.resume.anchor frames rfl, ?_⟩
    have innermost : state.frames = frame :: frames := open?
    rw [closers_of_not_call mode, innermost]
    exact afterBracket?_closerOf '(' _

theorem movesTo_nameChar (mode : state.mode = .name) (acted : state.act options char = .ok next) :
    MovesTo state char next := by
  have notCall : state.mode.closers = [] := by rw [mode]; rfl
  have settled : state.mode = .afterCall → state.token = "" := by simp [mode]
  have read := acted
  simp only [act, mode, nameChar] at read
  split at read
  · split at read
    · cases read
    · cases read
      have closers : (state.modeOfName state.token).closers = [] := by
        rw [modeOfName]
        split <;> rfl
      refine .of_plain rfl (.use state.request state.made state.cursor state.frames closers) ?_
      rw [closers_of_not_call notCall]
      exact closers_of_not_call closers
  · split at read
    · cases read
      exact movesTo_begin rfl notCall .group
    · cases read
  · exact movesTo_separator settled (by simp [mode]) acted
  · exact movesTo_closer settled (by simp [mode]) acted
  iterate 4 cases read
  · cases read
    refine movesTo_push ?_
    rw [mode]
    simp_all [Mode.Takes, isSeparator, isBracket, isOpener, isCloser]

theorem movesTo_valueChar {parameter : Parameter} (mode : state.mode = .value parameter)
    (acted : state.act options char = .ok next) : MovesTo state char next := by
  have notCall : state.mode.closers = [] := by rw [mode]; rfl
  have settled : state.mode = .afterCall → state.token = "" := by simp [mode]
  have read := acted
  simp only [act, mode, valueChar] at read
  split at read
  · exact movesTo_separator settled (by simp [mode]) acted
  · exact movesTo_closer settled (by simp [mode]) acted
  · split at read
    · rename_i target _
      cases read
      exact movesTo_begin rfl notCall target
    · cases read
  · split at read
    · split at read
      · rename_i name _
        cases read
        exact movesTo_begin rfl notCall (.predicate name)
      · cases read
    · cases read
  iterate 2 cases read
  · cases read
    refine movesTo_push ?_
    rw [mode]
    simp_all [Mode.Takes, isBracket, isOpener, isCloser]

theorem movesTo_relationChar {place : Place} (mode : state.mode = .relations place)
    (acted : state.act options char = .ok next) : MovesTo state char next := by
  have notCall : state.mode.closers = [] := by rw [mode]; rfl
  have settled : state.mode = .afterCall → state.token = "" := by simp [mode]
  have read := acted
  simp only [act, mode, relationChar] at read
  split at read
  · split at read
    · split at read <;> cases read
    · obtain ⟨⟨attached, relation⟩, found, same⟩ := bind_eq_ok_iff.mp read
      obtain ⟨request, made, rfl⟩ := exists_of_attach found
      cases same
      refine ⟨.use request made relation _ rfl, ?_⟩
      rw [closers_of_not_call notCall]
      exact afterBracket?_of_opener rfl _
  · split at read
    · obtain ⟨⟨attached, relation⟩, found, same⟩ := bind_eq_ok_iff.mp read
      obtain ⟨request, made, rfl⟩ := exists_of_attach found
      cases same
      refine .of_plain rfl (.use request made state.cursor state.frames rfl) ?_
      rw [closers_of_not_call notCall]
      rfl
    · rename_i empty
      have nothing : state.token = "" := by simpa using empty
      split at read
      · cases read
        rename_i relation _
        have moves : Moves state '.' _ :=
          .use state.request state.made state.cursor state.frames
            (rfl : (Mode.relations ⟨place.anchor, relation, none⟩).closers = [])
        rw [← nothing] at moves
        refine .of_plain rfl moves ?_
        rw [closers_of_not_call notCall]
        rfl
      · cases read
  · rw [act_comma mode, bind_eq_ok_iff] at acted
    obtain ⟨ended, ends, same⟩ := acted
    obtain ⟨-, request, made, rfl⟩ := exists_of_endText settled ends
    cases same
    refine .of_plain rfl (.use request made state.cursor state.frames rfl) ?_
    rw [closers_of_not_call notCall]
    rfl
  · exact movesTo_separator settled (by simp [mode]) acted
  · exact movesTo_closer settled (by simp [mode]) acted
  iterate 3 cases read
  · split at read
    · cases read
    · cases read
      refine movesTo_push ?_
      rw [mode]
      simp_all [Mode.Takes, isSeparator, isBracket, isOpener, isCloser]

/-- The end of a call, where the brackets open behind it are those of the relations. -/
theorem movesTo_endCall {capture : Capture} (mode : state.mode = .call capture)
    (after : afterBracket? (capture.innermost :: capture.outer) char = some [])
    (behind : afterBracket? state.closers char = some (state.frames.map fun _ => ')'))
    (ended : state.endCall { capture with text := capture.text.push char } = .ok next) :
    MovesTo state char next := by
  cases target : capture.target with
  | predicate name =>
      simp only [endCall, target, bind_eq_ok_iff, pure_eq_ok_iff] at ended
      obtain ⟨condition, -, rfl⟩ := ended
      exact ⟨.read _ mode, behind⟩
  | group =>
      simp only [endCall, target, bind_eq_ok_iff, pure_eq_ok_iff] at ended
      obtain ⟨⟨joining, condition⟩, -, rfl⟩ := ended
      exact ⟨.read _ mode, behind⟩
  | functions =>
      simp only [endCall, target] at ended
      cases ended
      exact ⟨.called mode after, behind⟩

theorem movesTo_callChar {capture : Capture} (mode : state.mode = .call capture)
    (acted : state.act options char = .ok next) : MovesTo state char next := by
  -- What the scanner waits for changes with what the call waits for.
  have openCall : ∀ {behind : List Char},
      afterBracket? (capture.innermost :: capture.outer) char = some behind →
      afterBracket? state.closers char = some (behind ++ state.frames.map fun _ => ')') := by
    intro behind after
    have opened : unclosed? (capture.innermost :: capture.outer) [char] = some behind := by
      simp [unclosed?_cons, after]
    have whole := unclosed?_outer opened (state.frames.map fun _ => ')')
    rw [unclosed?_cons, Option.bind_eq_some_iff] at whole
    obtain ⟨found, afterWhole, same⟩ := whole
    cases same
    simpa [closers, mode, Mode.closers] using afterWhole
  have collects : ∀ {innermost : Char} {outer : List Char},
      afterBracket? (capture.innermost :: capture.outer) char = some (innermost :: outer) →
      MovesTo state char (state.enter (.call
        { capture with
          text := capture.text.push char, innermost := innermost, outer := outer })) :=
    fun after => ⟨.collect _ _ mode after, openCall after⟩
  simp only [act, mode, callChar] at acted
  split at acted
  · rename_i opens
    split at acted
    · cases acted
    · cases acted
      exact collects (afterBracket?_of_opener opens _)
  · rename_i opens
    split at acted
    · rename_i closes
      split at acted
      · cases acted
      · rename_i matched
        have same : char = capture.innermost := by simpa using matched
        have after : afterBracket? (capture.innermost :: capture.outer) char =
            some capture.outer := by
          rw [same] at opens closes ⊢
          simp [afterBracket?, opens, closes]
        split at acted
        · rename_i outermost
          have closed := after.trans (congrArg some outermost)
          exact movesTo_endCall mode closed (openCall closed) acted
        · rename_i next outer inner
          cases acted
          exact collects (after.trans (congrArg some inner))
    · rename_i closes
      cases acted
      exact collects (afterBracket?_of_plain (by simp [isBracket, opens, closes]) _)

theorem movesTo_afterCallChar (mode : state.mode = .afterCall) (empty : state.token = "")
    (acted : state.act options char = .ok next) : MovesTo state char next := by
  have read := acted
  simp only [act, mode, afterCallChar] at read
  split at read
  · exact movesTo_separator (fun _ => empty) (by simp [mode]) acted
  · exact movesTo_closer (fun _ => empty) (by simp [mode]) acted
  · cases read

/-- Every character that is read makes a move. -/
theorem movesTo_of_act (settled : state.mode = .afterCall → state.token = "")
    (acted : state.act options char = .ok next) : MovesTo state char next := by
  cases mode : state.mode with
  | name => exact movesTo_nameChar mode acted
  | value parameter => exact movesTo_valueChar mode acted
  | relations place => exact movesTo_relationChar mode acted
  | call capture => exact movesTo_callChar mode acted
  | afterCall => exact movesTo_afterCallChar mode (settled mode) acted

end ScanState

end QueryGate
