import QueryGate.Proofs.Arena.Basic
import QueryGate.Query.Scanner

/-!
# Scanning into an arena

The scanner that knows nodes by their numbers: in place of each path it holds the number of the
node at its end, and in place of the request an arena. It goes through a text like the scanner
that holds paths, with the same errors at the same places.
-/

namespace QueryGate

/-- A place in a list of included relations. -/
structure ArenaPlace where
  /-- The node that has the list. -/
  anchor : Nat
  /-- The node that the next relation belongs to. -/
  chain : Nat
  /-- The relation whose parentheses have just been closed. -/
  closed : Option Nat
  deriving DecidableEq, Repr

/-- The start of a node's list. -/
def ArenaPlace.start (anchor : Nat) : ArenaPlace := ⟨anchor, anchor, none⟩

/-- What the scanner is doing. -/
inductive ArenaMode where
  | name
  | value (parameter : Parameter)
  | relations (place : ArenaPlace)
  | call (capture : Capture)
  | afterCall
  deriving DecidableEq, Repr

/-- A relation whose parentheses are open, and the place to go back to. -/
structure ArenaFrame where
  relation : Nat
  resume : ArenaPlace
  deriving DecidableEq, Repr

/-- The state of the scanner. -/
structure ArenaState where
  position : Nat := 0
  arena : Arena := .start
  /-- The node that parameters belong to. -/
  cursor : Nat := 0
  token : String := ""
  tokenStart : Nat := 0
  mode : ArenaMode := .name
  /-- The open relations, innermost first. -/
  frames : List ArenaFrame := []
  deriving Repr, Inhabited

namespace ArenaState

/-- The error of a character that cannot stand at the current place. -/
def unexpected {α : Type} (state : ArenaState) (found : Char) : Except QueryError α :=
  .error (.unexpected state.position found)

/-- The error of a part that is missing at the current place. -/
def missing {α : Type} (state : ArenaState) (part : Part) : Except QueryError α :=
  .error (.empty state.position part)

/-- Adds a character to the token. -/
def push (state : ArenaState) (char : Char) : ArenaState :=
  { state with
    token := state.token.push char
    tokenStart := if state.token.isEmpty then state.position else state.tokenStart }

/-- The state with an empty token. -/
def dropToken (state : ArenaState) : ArenaState := { state with token := "" }

/-- The state in another mode. -/
def enter (state : ArenaState) (mode : ArenaMode) : ArenaState := { state with mode := mode }

/-- Changes the terms of the current node. -/
def updateTerms (state : ArenaState) (change : Terms → Terms) : ArenaState :=
  { state with arena := state.arena.updateTerms change state.cursor }

/-- Sets a field's condition at the current node. -/
def setPredicate (state : ArenaState) (name : String) (condition : Expression) : ArenaState :=
  state.updateTerms fun terms =>
    { terms with predicates := Table.insert name condition terms.predicates }

/-- The child of a node that has the given name, and the arena that it is in: a new one, or the
one that there is already, as the policy says. -/
def attachTo (options : ScanOptions) (state : ArenaState) (parent : Nat) (name : String) :
    Except QueryError (Arena × Nat) :=
  match state.arena.findInclude? parent name, options.duplicates with
  | none, _ => .ok (state.arena.addInclude parent name)
  | some existing, .merge => .ok (state.arena, existing)
  | some existing, .replace =>
      .ok ((state.arena.detachInclude parent existing).addInclude parent name)
  | some _, .reject => .error ⟨state.tokenStart, .repeatedInclude name⟩

/-- Makes the token a relation of a node. The result includes the relation. -/
def attach (options : ScanOptions) (state : ArenaState) (parent : Nat) :
    Except QueryError (ArenaState × Nat) := do
  let (arena, child) ← state.attachTo options parent state.token
  if (arena.depthOf? child).any (options.maxDepth < ·) then
    .error ⟨state.tokenStart, .tooDeep options.maxDepth⟩
  else return ({ state.dropToken with arena := arena }, child)

/-- Ends the entry of a list of relations. -/
def endRelation (options : ScanOptions) (state : ArenaState) (place : ArenaPlace) :
    Except QueryError ArenaState :=
  if !state.token.isEmpty then (state.attach options place.chain).map Prod.fst
  else if place.closed.isNone then state.missing .relationName
  else .ok state

/-- Closes the parentheses of the innermost open relation. -/
def closeRelation (state : ArenaState) : Except QueryError ArenaState :=
  match state.frames with
  | [] => state.unexpected ')'
  | frame :: frames =>
      .ok { state with
        frames := frames
        cursor := frame.resume.anchor
        mode := .relations { frame.resume with closed := some frame.relation } }

/-- Ends a plain value, which is the token, and gives it to its parameter. -/
def endValue (state : ArenaState) (parameter : Parameter) : Except QueryError ArenaState :=
  let raw := state.token
  let start := state.tokenStart
  let state := state.dropToken
  match parameter with
  | .clause directive =>
      if raw.isEmpty then state.missing (.clause directive)
      else .ok <| state.updateTerms fun terms =>
        { terms with clauses := Table.insert directive raw terms.clauses }
  | .fields => do
      let fields ← readFields start raw.toList
      return state.updateTerms fun terms => { terms with fields := fields }
  | .functions => do
      let functions ← readFunctions start raw.toList
      return state.updateTerms fun terms =>
        { terms with functions := terms.functions ++ functions }
  | .predicate name => .ok (state.setPredicate name (.literal raw))

/-- Starts to collect a call. -/
def startCall (state : ArenaState) (opener : Char) (target : CallTarget) : ArenaState :=
  let start := if state.token.isEmpty then state.position else state.tokenStart
  state.dropToken.enter (.call ⟨start, state.token.push opener, closerOf opener, [], target⟩)

/-- Reads a call whose last bracket has just been closed. -/
def endCall (state : ArenaState) (capture : Capture) : Except QueryError ArenaState :=
  match capture.target with
  | .predicate name => do
      let condition ← readValue capture.start capture.text.toList
      return (state.setPredicate name condition).enter .afterCall
  | .group => do
      let (joining, condition) ← readGroup capture.start capture.text.toList
      return (state.setPredicate joining.word condition).enter .afterCall
  | .functions =>
      .ok { state with
        token := capture.text
        tokenStart := capture.start
        mode := .value .functions }

/-- The mode that a parameter's name leads to. -/
def modeOfName (state : ArenaState) (name : String) : ArenaMode :=
  match Reserved.ofName? name with
  | some .includes => .relations (ArenaPlace.start state.cursor)
  | some .fields => .value .fields
  | some .functions => .value .functions
  | some (.clause directive) => .value (.clause directive)
  | none => .value (.predicate name)

/-- A character in a parameter's name. -/
def nameChar (state : ArenaState) (char : Char) : Except QueryError ArenaState :=
  match char with
  | '=' =>
      if state.token.isEmpty then state.missing .parameterName
      else .ok (state.dropToken.enter (state.modeOfName state.token))
  | '(' =>
      match Connective.ofWord? state.token with
      | some _ => .ok (state.startCall char .group)
      | none => state.unexpected char
  | '&' => if state.token.isEmpty then .ok state else state.missing .parameterValue
  | ')' => if state.token.isEmpty then state.closeRelation else state.missing .parameterValue
  | ',' | '.' | '[' | ']' => state.unexpected char
  | _ => .ok (state.push char)

/-- What a parenthesis in a plain value opens, if it may stand there. -/
def callTarget? (state : ArenaState) : Parameter → Option CallTarget
  | .functions => if state.token.isEmpty then none else some .functions
  | .predicate name => (Operator.ofWord? state.token).map fun _ => .predicate name
  | _ => none

/-- A character in a plain value. -/
def valueChar (state : ArenaState) (parameter : Parameter) (char : Char) :
    Except QueryError ArenaState :=
  match char with
  | '&' => do
      let state ← state.endValue parameter
      return state.enter .name
  | ')' => do
      let state ← state.endValue parameter
      (state.enter .name).closeRelation
  | '(' =>
      match state.callTarget? parameter with
      | some target => .ok (state.startCall char target)
      | none => state.unexpected char
  | '[' =>
      match parameter with
      | .predicate name =>
          if state.token.isEmpty then .ok (state.startCall char (.predicate name))
          else state.unexpected char
      | _ => state.unexpected char
  | ']' | '=' => state.unexpected char
  | _ => .ok (state.push char)

/-- A character in a list of relations. -/
def relationChar (options : ScanOptions) (state : ArenaState) (place : ArenaPlace)
    (char : Char) : Except QueryError ArenaState :=
  match char with
  | '(' =>
      if state.token.isEmpty then
        if place.closed.isSome then state.unexpected char else state.missing .relationName
      else do
        let (state, relation) ← state.attach options place.chain
        let frame : ArenaFrame := ⟨relation, { place with closed := none }⟩
        return { state with frames := frame :: state.frames, cursor := relation, mode := .name }
  | '.' =>
      if !state.token.isEmpty then do
        let (state, relation) ← state.attach options place.chain
        return state.enter (.relations ⟨place.anchor, relation, none⟩)
      else
        match place.closed with
        | some relation => .ok (state.enter (.relations ⟨place.anchor, relation, none⟩))
        | none => state.missing .relationName
  | ',' => do
      let state ← state.endRelation options place
      return state.enter (.relations (ArenaPlace.start place.anchor))
  | '&' => do
      let state ← state.endRelation options place
      return { state with cursor := place.anchor, mode := .name }
  | ')' => do
      let state ← state.endRelation options place
      { state with cursor := place.anchor, mode := .name }.closeRelation
  | '=' | '[' | ']' => state.unexpected char
  | _ => if place.closed.isSome then state.unexpected char else .ok (state.push char)

/-- A character inside the brackets of a call. -/
def callChar (options : ScanOptions) (state : ArenaState) (capture : Capture) (char : Char) :
    Except QueryError ArenaState :=
  let text := capture.text.push char
  if isOpener char then
    if options.maxDepth < capture.outer.length + 2 then
      .error ⟨state.position, .tooDeep options.maxDepth⟩
    else
      .ok <| state.enter <| .call
        { capture with
          text := text
          innermost := closerOf char
          outer := capture.innermost :: capture.outer }
  else if isCloser char then
    if char ≠ capture.innermost then state.unexpected char
    else
      match capture.outer with
      | [] => state.endCall { capture with text := text }
      | next :: outer =>
          .ok <| state.enter <| .call
            { capture with text := text, innermost := next, outer := outer }
  else .ok (state.enter (.call { capture with text := text }))

/-- A character behind a call, where only a separator may stand. -/
def afterCallChar (state : ArenaState) (char : Char) : Except QueryError ArenaState :=
  match char with
  | '&' => .ok (state.enter .name)
  | ')' => (state.enter .name).closeRelation
  | _ => state.unexpected char

/-- Acts on a character, as the mode says. -/
def act (options : ScanOptions) (state : ArenaState) (char : Char) :
    Except QueryError ArenaState :=
  match state.mode with
  | .name => state.nameChar char
  | .value parameter => state.valueChar parameter char
  | .relations place => state.relationChar options place char
  | .call capture => state.callChar options capture char
  | .afterCall => state.afterCallChar char

/-- Reads a character. -/
def step (options : ScanOptions) (state : ArenaState) (char : Char) :
    Except QueryError ArenaState :=
  (state.act options char).map fun next => { next with position := state.position + 1 }

/-- Reads the rest of a text. -/
def run (options : ScanOptions) : ArenaState → List Char → Except QueryError ArenaState
  | state, [] => .ok state
  | state, char :: rest => do
      let state ← state.step options char
      run options state rest

/-- Ends what the text ended in the middle of. -/
def endText (options : ScanOptions) (state : ArenaState) : Except QueryError ArenaState :=
  match state.mode with
  | .name => if state.token.isEmpty then .ok state else state.missing .parameterValue
  | .value parameter => state.endValue parameter
  | .relations place => state.endRelation options place
  | .call capture => .error (.unclosed state.position capture.innermost)
  | .afterCall => .ok state

/-- The arena of a text that has been read to its end. -/
def finish (options : ScanOptions) (state : ArenaState) : Except QueryError Arena := do
  let state ← state.endText options
  if state.frames.isEmpty then return state.arena
  else .error (.unclosed state.position ')')

end ArenaState

/-- The arena that a decoded query text is scanned into. -/
def scanArena (options : ScanOptions) (text : String) : Except QueryError Arena := do
  let state ← ArenaState.run options {} text.toList
  state.finish options

end QueryGate
