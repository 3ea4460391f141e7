import QueryGate.Query.Request

/-!
# Scanning query text

A query is scanned character by character, and the request is built on the way.
The scanner is always in one of five modes: reading a parameter's name, reading a
plain value, in a list of included relations, inside the brackets of a call, or
just behind a call. A call is collected up to its last bracket and then read as a
whole; a relation's parentheses open a level with parameters of its own.
-/

namespace QueryGate

/-- What happens when one level includes the same relation twice. -/
inductive DuplicatePolicy where
  /-- The second mention adds to the first. -/
  | merge
  /-- The second mention takes the place of the first. -/
  | replace
  /-- The query is in error. -/
  | reject
  deriving DecidableEq, Repr

/-- Options of the scanner. -/
structure ScanOptions where
  duplicates : DuplicatePolicy := .merge
  /-- How deep relations may be nested, and how deep the brackets of a call. -/
  maxDepth : Nat := 16
  deriving DecidableEq, Repr

/-- The parameter whose value is being read. -/
inductive Parameter where
  | clause (directive : Clause)
  | fields
  | functions
  | predicate (name : String)
  deriving DecidableEq, Repr

/-- What a call that is being collected belongs to. -/
inductive CallTarget where
  /-- It is the value of a field. -/
  | predicate (name : String)
  /-- It is a group of conditions. -/
  | group
  /-- It is part of a list of functions. -/
  | functions
  deriving DecidableEq, Repr

/-- A call that is being collected. -/
structure Capture where
  /-- Where the call starts. -/
  start : Nat
  /-- What has been collected. -/
  text : String
  /-- The character that closes the innermost open bracket. -/
  innermost : Char
  /-- The characters that close the brackets around it, from the inside out. -/
  outer : List Char
  target : CallTarget
  deriving DecidableEq, Repr

/-- A place in a list of included relations. -/
structure Place where
  /-- The node that has the list. -/
  anchor : Path
  /-- The node that the next relation belongs to; a period moves it down. -/
  chain : Path
  /-- The relation whose parentheses have just been closed. -/
  closed : Option Path
  deriving DecidableEq, Repr

/-- The start of a node's list. -/
def Place.start (anchor : Path) : Place := ⟨anchor, anchor, none⟩

/-- What the scanner is doing. -/
inductive Mode where
  | name
  | value (parameter : Parameter)
  | relations (place : Place)
  | call (capture : Capture)
  | afterCall
  deriving DecidableEq, Repr

/-- A relation whose parentheses are open, and the place to go back to. -/
structure Frame where
  relation : Path
  resume : Place
  deriving DecidableEq, Repr

/-- The state of the scanner. -/
structure ScanState where
  /-- How many characters have been read. -/
  position : Nat := 0
  request : Request := .blank 0 Request.rootName
  /-- How many nodes have been made. -/
  made : Nat := 1
  /-- The node that parameters belong to. -/
  cursor : Path := []
  /-- The name or value that is being read. -/
  token : String := ""
  /-- Where the token starts; while it is empty, where the one before it did. -/
  tokenStart : Nat := 0
  mode : Mode := .name
  /-- The open relations, innermost first. -/
  frames : List Frame := []
  deriving Repr, Inhabited

namespace ScanState

/-- The error of a character that cannot stand at the current place. -/
def unexpected {α : Type} (state : ScanState) (found : Char) : Except QueryError α :=
  .error (.unexpected state.position found)

/-- The error of a part that is missing at the current place. -/
def missing {α : Type} (state : ScanState) (part : Part) : Except QueryError α :=
  .error (.empty state.position part)

/-- Adds a character to the token. -/
def push (state : ScanState) (char : Char) : ScanState :=
  { state with
    token := state.token.push char
    tokenStart := if state.token.isEmpty then state.position else state.tokenStart }

/-- The state with an empty token. -/
def dropToken (state : ScanState) : ScanState := { state with token := "" }

/-- The state in another mode. -/
def enter (state : ScanState) (mode : Mode) : ScanState := { state with mode := mode }

/-- Changes the terms of the current node. -/
def updateTerms (state : ScanState) (change : Terms → Terms) : ScanState :=
  { state with request := state.request.updateTerms change state.cursor }

/-- Sets a field's condition at the current node. -/
def setPredicate (state : ScanState) (name : String) (condition : Expression) : ScanState :=
  state.updateTerms fun terms =>
    { terms with predicates := Table.insert name condition terms.predicates }

/-- Makes a new last child of a node. -/
def addRelation (state : ScanState) (parent : Path) (name : String) : ScanState :=
  { state with
    request := state.request.update (Request.addChild (.blank state.made name)) parent
    made := state.made + 1 }

/-- Makes the token a relation of the node at `parent`, as the policy says when
there is one of that name already. The result includes the relation's path. -/
def attach (options : ScanOptions) (state : ScanState) (parent : Path) :
    Except QueryError (ScanState × Path) := do
  let name := state.token
  let state := state.dropToken
  let existing := (state.request.at? parent).bind fun node => node.child? name
  let state ←
    match existing, options.duplicates with
    | none, _ => .ok (state.addRelation parent name)
    | some _, .merge => .ok state
    | some _, .replace =>
        let request := state.request.update (Request.removeChild name) parent
        .ok ({ state with request := request }.addRelation parent name)
    | some _, .reject => .error ⟨state.tokenStart, .repeatedInclude name⟩
  if options.maxDepth < parent.length + 1 then
    .error ⟨state.tokenStart, .tooDeep options.maxDepth⟩
  else return (state, parent ++ [name])

/-- Ends the entry of a list of relations: the token is the last relation of its
chain, and may be missing only behind a closing parenthesis. -/
def endRelation (options : ScanOptions) (state : ScanState) (place : Place) :
    Except QueryError ScanState :=
  if !state.token.isEmpty then (state.attach options place.chain).map Prod.fst
  else if place.closed.isNone then state.missing .relationName
  else .ok state

/-- Closes the parentheses of the innermost open relation. -/
def closeRelation (state : ScanState) : Except QueryError ScanState :=
  match state.frames with
  | [] => state.unexpected ')'
  | frame :: frames =>
      .ok { state with
        frames := frames
        cursor := frame.resume.anchor
        mode := .relations { frame.resume with closed := some frame.relation } }

/-- Ends a plain value, which is the token, and gives it to its parameter. -/
def endValue (state : ScanState) (parameter : Parameter) : Except QueryError ScanState :=
  let raw := state.token
  let start := state.tokenStart
  let state := state.dropToken
  match parameter with
  | .clause directive =>
      if raw.isEmpty then state.missing (.clause directive)
      else .ok <| state.updateTerms fun terms =>
        { terms with clauses := Table.insert directive raw terms.clauses }
  | .fields => do
      let fields ← readFields start raw.toList
      return state.updateTerms fun terms => { terms with fields := fields }
  | .functions => do
      let functions ← readFunctions start raw.toList
      return state.updateTerms fun terms =>
        { terms with functions := terms.functions ++ functions }
  | .predicate name => .ok (state.setPredicate name (.literal raw))

/-- Starts to collect a call: the token is its keyword or function, and the
current character opens its bracket. -/
def startCall (state : ScanState) (opener : Char) (target : CallTarget) : ScanState :=
  let start := if state.token.isEmpty then state.position else state.tokenStart
  state.dropToken.enter (.call ⟨start, state.token.push opener, closerOf opener, [], target⟩)

/-- Reads a call whose last bracket has just been closed. A call in a list of
functions becomes the token again, since the list goes on. -/
def endCall (state : ScanState) (capture : Capture) : Except QueryError ScanState :=
  match capture.target with
  | .predicate name => do
      let condition ← readValue capture.start capture.text.toList
      return (state.setPredicate name condition).enter .afterCall
  | .group => do
      let (joining, condition) ← readGroup capture.start capture.text.toList
      return (state.setPredicate joining.word condition).enter .afterCall
  | .functions =>
      .ok { state with
        token := capture.text
        tokenStart := capture.start
        mode := .value .functions }

/-- The mode that a parameter's name leads to. -/
def modeOfName (state : ScanState) (name : String) : Mode :=
  match Reserved.ofName? name with
  | some .includes => .relations (Place.start state.cursor)
  | some .fields => .value .fields
  | some .functions => .value .functions
  | some (.clause directive) => .value (.clause directive)
  | none => .value (.predicate name)

/-- A character in a parameter's name. -/
def nameChar (state : ScanState) (char : Char) : Except QueryError ScanState :=
  match char with
  | '=' =>
      if state.token.isEmpty then state.missing .parameterName
      else .ok (state.dropToken.enter (state.modeOfName state.token))
  | '(' =>
      match Connective.ofWord? state.token with
      | some _ => .ok (state.startCall char .group)
      | none => state.unexpected char
  | '&' => if state.token.isEmpty then .ok state else state.missing .parameterValue
  | ')' => if state.token.isEmpty then state.closeRelation else state.missing .parameterValue
  | ',' | '.' | '[' | ']' => state.unexpected char
  | _ => .ok (state.push char)

/-- What a parenthesis in a plain value opens, if it may stand there: the call of
an operator behind its keyword, or the call of a function behind its name. -/
def callTarget? (state : ScanState) : Parameter → Option CallTarget
  | .functions => if state.token.isEmpty then none else some .functions
  | .predicate name => (Operator.ofWord? state.token).map fun _ => .predicate name
  | _ => none

/-- A character in a plain value. -/
def valueChar (state : ScanState) (parameter : Parameter) (char : Char) :
    Except QueryError ScanState :=
  match char with
  | '&' => do
      let state ← state.endValue parameter
      return state.enter .name
  | ')' => do
      let state ← state.endValue parameter
      (state.enter .name).closeRelation
  | '(' =>
      match state.callTarget? parameter with
      | some target => .ok (state.startCall char target)
      | none => state.unexpected char
  | '[' =>
      match parameter with
      | .predicate name =>
          if state.token.isEmpty then .ok (state.startCall char (.predicate name))
          else state.unexpected char
      | _ => state.unexpected char
  | ']' | '=' => state.unexpected char
  | _ => .ok (state.push char)

/-- A character in a list of relations. -/
def relationChar (options : ScanOptions) (state : ScanState) (place : Place) (char : Char) :
    Except QueryError ScanState :=
  match char with
  | '(' =>
      if state.token.isEmpty then
        if place.closed.isSome then state.unexpected char else state.missing .relationName
      else do
        let (state, relation) ← state.attach options place.chain
        let frame : Frame := ⟨relation, { place with closed := none }⟩
        return { state with frames := frame :: state.frames, cursor := relation, mode := .name }
  | '.' =>
      if !state.token.isEmpty then do
        let (state, relation) ← state.attach options place.chain
        return state.enter (.relations ⟨place.anchor, relation, none⟩)
      else
        match place.closed with
        | some relation => .ok (state.enter (.relations ⟨place.anchor, relation, none⟩))
        | none => state.missing .relationName
  | ',' => do
      let state ← state.endRelation options place
      return state.enter (.relations (Place.start place.anchor))
  | '&' => do
      let state ← state.endRelation options place
      return { state with cursor := place.anchor, mode := .name }
  | ')' => do
      let state ← state.endRelation options place
      { state with cursor := place.anchor, mode := .name }.closeRelation
  | '=' | '[' | ']' => state.unexpected char
  | _ => if place.closed.isSome then state.unexpected char else .ok (state.push char)

/-- A character inside the brackets of a call. -/
def callChar (options : ScanOptions) (state : ScanState) (capture : Capture) (char : Char) :
    Except QueryError ScanState :=
  let text := capture.text.push char
  if isOpener char then
    if options.maxDepth < capture.outer.length + 2 then
      .error ⟨state.position, .tooDeep options.maxDepth⟩
    else
      .ok <| state.enter <| .call
        { capture with
          text := text
          innermost := closerOf char
          outer := capture.innermost :: capture.outer }
  else if isCloser char then
    if char ≠ capture.innermost then state.unexpected char
    else
      match capture.outer with
      | [] => state.endCall { capture with text := text }
      | next :: outer =>
          .ok <| state.enter <| .call
            { capture with text := text, innermost := next, outer := outer }
  else .ok (state.enter (.call { capture with text := text }))

/-- A character behind a call, where only a separator may stand. -/
def afterCallChar (state : ScanState) (char : Char) : Except QueryError ScanState :=
  match char with
  | '&' => .ok (state.enter .name)
  | ')' => (state.enter .name).closeRelation
  | _ => state.unexpected char

/-- Acts on a character, as the mode says. -/
def act (options : ScanOptions) (state : ScanState) (char : Char) :
    Except QueryError ScanState :=
  match state.mode with
  | .name => state.nameChar char
  | .value parameter => state.valueChar parameter char
  | .relations place => state.relationChar options place char
  | .call capture => state.callChar options capture char
  | .afterCall => state.afterCallChar char

/-- Reads a character. -/
def step (options : ScanOptions) (state : ScanState) (char : Char) :
    Except QueryError ScanState :=
  (state.act options char).map fun next => { next with position := state.position + 1 }

/-- Reads the rest of a text. -/
def run (options : ScanOptions) : ScanState → List Char → Except QueryError ScanState
  | state, [] => .ok state
  | state, char :: rest => do
      let state ← state.step options char
      run options state rest

/-- Ends what the text ended in the middle of. -/
def endText (options : ScanOptions) (state : ScanState) : Except QueryError ScanState :=
  match state.mode with
  | .name => if state.token.isEmpty then .ok state else state.missing .parameterValue
  | .value parameter => state.endValue parameter
  | .relations place => state.endRelation options place
  | .call capture => .error (.unclosed state.position capture.innermost)
  | .afterCall => .ok state

/-- The request of a text that has been read to its end. -/
def finish (options : ScanOptions) (state : ScanState) : Except QueryError Request := do
  let state ← state.endText options
  if state.frames.isEmpty then return state.request
  else .error (.unclosed state.position ')')

end ScanState

/-- The request that a decoded query text denotes. -/
def scan (options : ScanOptions) (text : String) : Except QueryError Request := do
  let state ← ScanState.run options {} text.toList
  state.finish options

end QueryGate
