import QueryGate.Proofs.Checked.Basic
import QueryGate.Query.Scanner

/-!
# A scanner with loose parts

The mode of a scanner says at once what is being read, which parameter it is for and which call it
is part of. A scanner with loose parts holds the three apart: a parameter may be there or not, a
call may be collected or not, and the mode knows of neither. Nothing in its states says that the
parts fit together, so a character may find that the parameter is missing, that it is one that has
no value, or that a call waits for no bracket. Where it would need what is not there, it breaks
off.

The parts of a state of the scanner with one mode are a state of this one.
-/

namespace QueryGate

open Checked

/-- What a value or a call belongs to. -/
inductive Purpose where
  | reserved (parameter : Reserved)
  | predicate (name : String)
  /-- A group of conditions. -/
  | group
  deriving DecidableEq, Repr

namespace Purpose

/-- The parameter that can be given a value. A list of relations is no value, and a group has no
parameter. -/
def parameter? : Purpose → Option Parameter
  | .reserved (.clause directive) => some (.clause directive)
  | .reserved .fields => some .fields
  | .reserved .functions => some .functions
  | .reserved .includes => none
  | .predicate name => some (.predicate name)
  | .group => none

end Purpose

/-- What the scanner is doing outside of calls. -/
inductive LooseMode where
  | name
  | value
  | relations (place : Place)
  | afterCall
  deriving DecidableEq, Repr

/-- A call that is being collected. -/
structure LooseCapture where
  /-- Where the call starts. -/
  start : Nat
  /-- What has been collected. -/
  text : String
  /-- The characters that close the open brackets, the innermost last. -/
  closers : List Char
  target : Purpose
  deriving DecidableEq, Repr

/-- The state of the scanner, in parts. -/
structure LooseState where
  /-- How many characters have been read. -/
  position : Nat := 0
  request : Request := .blank 0 Request.rootName
  /-- How many nodes have been made. -/
  made : Nat := 1
  /-- The node that parameters belong to. -/
  cursor : Path := []
  /-- The name or value that is being read. -/
  token : String := ""
  /-- Where the token starts; while it is empty, where the one before it did. -/
  tokenStart : Nat := 0
  /-- What the value that is being read belongs to, if one is being read. -/
  purpose : Option Purpose := none
  mode : LooseMode := .name
  /-- The call that is being collected, if there is one. -/
  capture : Option LooseCapture := none
  /-- The open relations, innermost first. -/
  frames : List Frame := []

namespace LooseState

/-- The error of a character that cannot stand at the current place. -/
def unexpected {α : Type} (state : LooseState) (found : Char) : Checked QueryError α :=
  throw (.unexpected state.position found)

/-- The error of a part that is missing at the current place. -/
def missing {α : Type} (state : LooseState) (part : Part) : Checked QueryError α :=
  throw (.empty state.position part)

/-- What the scanner knows apart from what it is doing. -/
def core (state : LooseState) : ScanState :=
  { position := state.position
    request := state.request
    made := state.made
    cursor := state.cursor
    token := state.token
    tokenStart := state.tokenStart
    frames := state.frames }

/-- The state with other knowledge. -/
def withCore (state : LooseState) (core : ScanState) : LooseState :=
  { state with
    request := core.request
    made := core.made
    cursor := core.cursor
    token := core.token
    tokenStart := core.tokenStart
    frames := core.frames }

/-- Adds a character to the token. -/
def push (state : LooseState) (char : Char) : LooseState :=
  { state with
    token := state.token.push char
    tokenStart := if state.token.isEmpty then state.position else state.tokenStart }

/-- The state in another mode. -/
def enter (state : LooseState) (mode : LooseMode) : LooseState := { state with mode := mode }

/-- Makes the token a relation of the node at `parent`. The result includes the relation's path. -/
def attach (options : ScanOptions) (state : LooseState) (parent : Path) :
    Checked QueryError (LooseState × Path) := do
  let (core, relation) ← of (state.core.attach options parent)
  return (state.withCore core, relation)

/-- Ends the entry of a list of relations. -/
def endRelation (options : ScanOptions) (state : LooseState) (place : Place) :
    Checked QueryError LooseState :=
  if !state.token.isEmpty then Prod.fst <$> attach options state place.chain
  else if place.closed.isNone then state.missing .relationName
  else return state

/-- Closes the parentheses of the innermost open relation. -/
def closeRelation (state : LooseState) : Checked QueryError LooseState :=
  match state.frames with
  | [] => state.unexpected ')'
  | frame :: frames =>
      return { state with
        frames := frames
        cursor := frame.resume.anchor
        mode := .relations { frame.resume with closed := some frame.relation } }

/-- Ends a plain value, which is the token. There has to be a parameter, and one that can be given
a value. -/
def endValue (state : LooseState) : Checked QueryError LooseState := do
  let purpose ← need state.purpose
  let parameter ← need purpose.parameter?
  let core ← of (state.core.endValue parameter)
  return { state.withCore core with purpose := none }

/-- Starts to collect a call. -/
def startCall (state : LooseState) (opener : Char) (target : Purpose) : LooseState :=
  let start := if state.token.isEmpty then state.position else state.tokenStart
  { state with
    token := ""
    capture := some ⟨start, state.token.push opener, [closerOf opener], target⟩ }

/-- Starts to collect a call in a value. There has to be a parameter, and the call takes it away. -/
def startCallInValue (state : LooseState) (opener : Char) : Checked QueryError LooseState := do
  let target ← need state.purpose
  return { state with purpose := none }.startCall opener target

/-- Reads a call whose last bracket has just been closed. A call of a reserved parameter becomes the
token again, and gives the parameter back. -/
def endCall (state : LooseState) (capture : LooseCapture) : Checked QueryError LooseState :=
  match capture.target with
  | .predicate name => do
      let condition ← of (readValue capture.start capture.text.toList)
      let core := state.core.setPredicate name condition
      return { state.withCore core with capture := none, mode := .afterCall }
  | .group => do
      let (joining, condition) ← of (readGroup capture.start capture.text.toList)
      let core := state.core.setPredicate joining.word condition
      return { state.withCore core with capture := none, mode := .afterCall }
  | .reserved parameter =>
      return { state with
        token := capture.text
        tokenStart := capture.start
        purpose := some (.reserved parameter)
        capture := none }

/-- The state behind a parameter's name and its equals sign. -/
def afterName (state : LooseState) : LooseState :=
  let left := { state with token := "" }
  match Reserved.ofName? state.token with
  | some .includes => left.enter (.relations (Place.start state.cursor))
  | some parameter => { left with purpose := some (.reserved parameter), mode := .value }
  | none => { left with purpose := some (.predicate state.token), mode := .value }

/-- A character in a parameter's name. -/
def nameChar (state : LooseState) (char : Char) : Checked QueryError LooseState :=
  match char with
  | '=' => if state.token.isEmpty then state.missing .parameterName else return state.afterName
  | '(' =>
      match Connective.ofWord? state.token with
      | some _ => return state.startCall char .group
      | none => state.unexpected char
  | '&' => if state.token.isEmpty then return state else state.missing .parameterValue
  | ')' => if state.token.isEmpty then state.closeRelation else state.missing .parameterValue
  | ',' | '.' | '[' | ']' => state.unexpected char
  | _ => return state.push char

/-- Whether a parenthesis in a plain value opens a call: that of an operator behind its keyword, or
that of a function behind its name. -/
def opensCall (state : LooseState) : Bool :=
  match state.purpose with
  | some (.reserved .functions) => !state.token.isEmpty
  | some (.predicate _) => (Operator.ofWord? state.token).isSome
  | _ => false

/-- A character in a plain value. -/
def valueChar (state : LooseState) (char : Char) : Checked QueryError LooseState :=
  match char with
  | '&' => do
      let state ← state.endValue
      return state.enter .name
  | ')' => do
      let state ← state.endValue
      (state.enter .name).closeRelation
  | '(' => if state.opensCall then state.startCallInValue char else state.unexpected char
  | '[' =>
      match state.purpose with
      | some (.predicate _) =>
          if state.token.isEmpty then state.startCallInValue char else state.unexpected char
      | _ => state.unexpected char
  | ']' | '=' => state.unexpected char
  | _ => return state.push char

/-- A character in a list of relations. -/
def relationChar (options : ScanOptions) (state : LooseState) (place : Place) (char : Char) :
    Checked QueryError LooseState :=
  match char with
  | '(' =>
      if state.token.isEmpty then
        if place.closed.isSome then state.unexpected char else state.missing .relationName
      else do
        let (state, relation) ← attach options state place.chain
        let frame : Frame := ⟨relation, { place with closed := none }⟩
        return { state with frames := frame :: state.frames, cursor := relation, mode := .name }
  | '.' =>
      if !state.token.isEmpty then do
        let (state, relation) ← attach options state place.chain
        return state.enter (.relations ⟨place.anchor, relation, none⟩)
      else
        match place.closed with
        | some relation => return state.enter (.relations ⟨place.anchor, relation, none⟩)
        | none => state.missing .relationName
  | ',' => do
      let state ← endRelation options state place
      return state.enter (.relations (Place.start place.anchor))
  | '&' => do
      let state ← endRelation options state place
      return { state with cursor := place.anchor, mode := .name }
  | ')' => do
      let state ← endRelation options state place
      { state with cursor := place.anchor, mode := .name }.closeRelation
  | '=' | '[' | ']' => state.unexpected char
  | _ => if place.closed.isSome then state.unexpected char else return state.push char

/-- A character inside the brackets of a call. -/
def callChar (options : ScanOptions) (state : LooseState) (capture : LooseCapture) (char : Char) :
    Checked QueryError LooseState :=
  let text := capture.text.push char
  if isOpener char then
    let closers := capture.closers ++ [closerOf char]
    if options.maxDepth < closers.length then throw ⟨state.position, .tooDeep options.maxDepth⟩
    else return { state with capture := some { capture with text := text, closers := closers } }
  else if isCloser char then
    let closers := capture.closers.dropLast
    if capture.closers.getLast? ≠ some char then state.unexpected char
    else if closers.isEmpty then state.endCall { capture with text := text, closers := closers }
    else return { state with capture := some { capture with text := text, closers := closers } }
  else return { state with capture := some { capture with text := text } }

/-- A character behind a call, where only a separator may stand. -/
def afterCallChar (state : LooseState) (char : Char) : Checked QueryError LooseState :=
  match char with
  | '&' => return state.enter .name
  | ')' => (state.enter .name).closeRelation
  | _ => state.unexpected char

/-- Acts on a character: a call takes it before the mode does. -/
def act (options : ScanOptions) (state : LooseState) (char : Char) :
    Checked QueryError LooseState :=
  match state.capture, state.mode with
  | some capture, _ => callChar options state capture char
  | none, .name => state.nameChar char
  | none, .value => state.valueChar char
  | none, .relations place => relationChar options state place char
  | none, .afterCall => state.afterCallChar char

/-- Reads a character. -/
def step (options : ScanOptions) (state : LooseState) (char : Char) :
    Checked QueryError LooseState :=
  (fun next => { next with position := state.position + 1 }) <$> act options state char

/-- Reads the rest of a text. -/
def run (options : ScanOptions) : LooseState → List Char → Checked QueryError LooseState
  | state, [] => return state
  | state, char :: rest => do
      let state ← step options state char
      run options state rest

/-- Ends what the text ended in the middle of. A call has to wait for a bracket. -/
def endText (options : ScanOptions) (state : LooseState) : Checked QueryError LooseState :=
  match state.capture, state.mode with
  | some capture, _ => do
      let innermost ← need capture.closers.getLast?
      throw (.unclosed state.position innermost)
  | none, .name => if state.token.isEmpty then return state else state.missing .parameterValue
  | none, .value => state.endValue
  | none, .relations place => endRelation options state place
  | none, .afterCall => return state

/-- The request of a text that has been read to its end. -/
def finish (options : ScanOptions) (state : LooseState) : Checked QueryError Request := do
  let state ← endText options state
  if state.frames.isEmpty then return state.request
  else throw (.unclosed state.position ')')

/-- The request that a decoded query text denotes. -/
def scan (options : ScanOptions) (text : String) : Checked QueryError Request := do
  let state ← run options {} text.toList
  finish options state

end LooseState

/-! ### The parts of a mode -/

/-- What the value of a parameter belongs to. -/
def Parameter.purpose : Parameter → Purpose
  | .clause directive => .reserved (.clause directive)
  | .fields => .reserved .fields
  | .functions => .reserved .functions
  | .predicate name => .predicate name

namespace CallTarget

def purpose : CallTarget → Purpose
  | .predicate name => .predicate name
  | .group => .group
  | .functions => .reserved .functions

/-- The mode in which a call is begun: a group stands where a name is expected. -/
def looseMode : CallTarget → LooseMode
  | .group => .name
  | .predicate _ | .functions => .value

end CallTarget

/-- The call with its closers in one list. -/
def Capture.loose (capture : Capture) : LooseCapture where
  start := capture.start
  text := capture.text
  closers := (capture.innermost :: capture.outer).reverse
  target := capture.target.purpose

namespace Mode

/-- What the value that a mode reads belongs to. -/
def purpose? : Mode → Option Purpose
  | .value parameter => some parameter.purpose
  | _ => none

/-- The call that a mode collects. -/
def capture? : Mode → Option LooseCapture
  | .call capture => some capture.loose
  | _ => none

/-- What a mode does outside of calls. -/
def loose : Mode → LooseMode
  | .name => .name
  | .value _ => .value
  | .relations place => .relations place
  | .call capture => capture.target.looseMode
  | .afterCall => .afterCall

end Mode

/-- A state with the parts of its mode. -/
def ScanState.loose (state : ScanState) : LooseState where
  position := state.position
  request := state.request
  made := state.made
  cursor := state.cursor
  token := state.token
  tokenStart := state.tokenStart
  purpose := state.mode.purpose?
  mode := state.mode.loose
  capture := state.mode.capture?
  frames := state.frames

end QueryGate
