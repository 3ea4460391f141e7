import QueryGate.Proofs.Request.Edit

/-!
# What a text does

What the scanner does with a character depends on its control alone: the node that
parameters belong to, the token, the mode and the open relations. The request is
never looked at but when an edit is made. A text can therefore be taken apart into
the edits it makes before anything is known about a request or about options.

The relations here say which edits. A parameter is ended in one way, whether a
separator, a closing parenthesis or the end of the text stands behind it; this is
`Ends`. `Step` has one case for each thing that a character can do, and the cases
for separators and closing parentheses rest on `Ends`.

Places of characters matter for errors alone and are left out: readers are asked at
position 0, and calls start there.
-/

namespace QueryGate

/-- The parameter of that name, if it has a plain value; none for a list of relations. -/
def Parameter.ofName? (name : String) : Option Parameter :=
  match Reserved.ofName? name with
  | some .includes => none
  | some .fields => some .fields
  | some .functions => some .functions
  | some (.clause directive) => some (.clause directive)
  | none => some (.predicate name)

/-- The change that a parameter makes with a plain value. -/
inductive Parameter.Reads : Parameter → String → Terms.Change → Prop where
  | clause (directive : Clause) {token : String} :
      token ≠ "" → Reads (.clause directive) token (.clause directive token)
  | fields {token : String} {names : List String} (written : names ≠ []) :
      readFields 0 token.toList = .ok names → Reads .fields token (.fields names written)
  | functions {token : String} {calls : List FunctionCall} :
      readFunctions 0 token.toList = .ok calls → Reads .functions token (.functions calls)
  | predicate (name token : String) :
      Reads (.predicate name) token (.predicate name (.literal token))

/-- The change that a call makes when its last bracket is closed. -/
inductive CallTarget.Reads : CallTarget → String → Terms.Change → Prop where
  | predicate (name : String) {text : String} {condition : Expression} :
      readValue 0 text.toList = .ok condition →
      Reads (.predicate name) text (.predicate name condition)
  | group {text : String} {joining : Connective} {condition : Expression} :
      readGroup 0 text.toList = .ok (joining, condition) →
      Reads .group text (.predicate joining.word condition)

/-- What the next step of a scanner depends on. -/
structure Control where
  cursor : Path
  token : String
  mode : Mode
  frames : List Frame

/-- The mode without the place at which a call starts. -/
def Mode.unplaced : Mode → Mode
  | .call capture => .call { capture with start := 0 }
  | mode => mode

/-- The control of a scanner, without the places of characters. -/
def ScanState.control (state : ScanState) : Control :=
  ⟨state.cursor, state.token, state.mode.unplaced, state.frames⟩

/-- A mode agrees with the node that parameters belong to and with the token. -/
def Mode.Fits (cursor : Path) (token : String) : Mode → Prop
  | .relations place =>
      place.anchor = cursor ∧ place.anchor <+: place.chain ∧
        ∀ relation, place.closed = some relation → place.chain <+: relation
  | .call _ | .afterCall => token = ""
  | .name | .value _ => True

/-- Whether a character is added to the token. -/
def Mode.Takes (char : Char) : Mode → Prop
  | .name => isSeparator char = false
  | .value _ => isBracket char = false ∧ char ≠ '=' ∧ char ≠ '&'
  | .relations place => isSeparator char = false ∧ place.closed = none
  | .call _ | .afterCall => False

namespace Control

/-- Where a level of parameters starts, and goes on behind each separator. -/
def level (cursor : Path) (frames : List Frame) : Control := ⟨cursor, "", .name, frames⟩

/-- What has been begun can be ended, with these edits. -/
inductive Ends : Control → List Edit → Prop where
  | name (cursor : Path) (frames : List Frame) : Ends (level cursor frames) []
  | value {cursor : Path} {token : String} {parameter : Parameter} {change : Terms.Change}
      (frames : List Frame) :
      parameter.Reads token change →
      Ends ⟨cursor, token, .value parameter, frames⟩ [.assign cursor change]
  | relation {token : String} (cursor : Path) (place : Place) (frames : List Frame) :
      token ≠ "" →
      Ends ⟨cursor, token, .relations place, frames⟩ [.attach place.chain token]
  | closed {place : Place} {relation : Path} (cursor : Path) (frames : List Frame) :
      place.closed = some relation → Ends ⟨cursor, "", .relations place, frames⟩ []
  | call (cursor : Path) (frames : List Frame) : Ends ⟨cursor, "", .afterCall, frames⟩ []

/-- A character that can stand where the control is makes some edits and leads to
another control. -/
inductive Step : Control → Char → List Edit → Control → Prop where
  | push {mode : Mode} {char : Char} (cursor : Path) (token : String) (frames : List Frame) :
      mode.Takes char →
      Step ⟨cursor, token, mode, frames⟩ char [] ⟨cursor, token.push char, mode, frames⟩
  /-- The parameter ends and another may follow. -/
  | separate {control : Control} {edits : List Edit} :
      Ends control edits → Step control '&' edits (level control.cursor control.frames)
  /-- The last parameter of a relation's parentheses ends, and so do they. -/
  | leave {cursor : Path} {token : String} {mode : Mode} {frame : Frame} {frames : List Frame}
      {edits : List Edit} :
      Ends ⟨cursor, token, mode, frame :: frames⟩ edits →
      Step ⟨cursor, token, mode, frame :: frames⟩ ')' edits
        ⟨frame.resume.anchor, "",
          .relations { frame.resume with closed := some frame.relation }, frames⟩
  | parameter {token : String} {parameter : Parameter} (cursor : Path) (frames : List Frame) :
      token ≠ "" → Parameter.ofName? token = some parameter →
      Step ⟨cursor, token, .name, frames⟩ '=' [] ⟨cursor, "", .value parameter, frames⟩
  | includes {token : String} (cursor : Path) (frames : List Frame) :
      Parameter.ofName? token = none →
      Step ⟨cursor, token, .name, frames⟩ '=' []
        ⟨cursor, "", .relations (Place.start cursor), frames⟩
  /-- A group of conditions begins. -/
  | group {token : String} {joining : Connective} (cursor : Path) (frames : List Frame) :
      Connective.ofWord? token = some joining →
      Step ⟨cursor, token, .name, frames⟩ '(' []
        ⟨cursor, "", .call ⟨0, token.push '(', ')', [], .group⟩, frames⟩
  /-- The call of an operator begins. -/
  | operator {token : String} {operator : Operator} (cursor : Path) (name : String)
      (frames : List Frame) :
      Operator.ofWord? token = some operator →
      Step ⟨cursor, token, .value (.predicate name), frames⟩ '(' []
        ⟨cursor, "", .call ⟨0, token.push '(', ')', [], .predicate name⟩, frames⟩
  /-- A list of items begins. -/
  | list (cursor : Path) (name : String) (frames : List Frame) :
      Step ⟨cursor, "", .value (.predicate name), frames⟩ '[' []
        ⟨cursor, "", .call ⟨0, "[", ']', [], .predicate name⟩, frames⟩
  /-- The call of a function begins. -/
  | function {token : String} (cursor : Path) (frames : List Frame) :
      token ≠ "" →
      Step ⟨cursor, token, .value .functions, frames⟩ '(' []
        ⟨cursor, "", .call ⟨0, token.push '(', ')', [], .functions⟩, frames⟩
  | nest {char : Char} (cursor : Path) (capture : Capture) (frames : List Frame) :
      isOpener char = true →
      Step ⟨cursor, "", .call capture, frames⟩ char [.nest (capture.outer.length + 2)]
        ⟨cursor, "", .call
          { capture with
            text := capture.text.push char
            innermost := closerOf char
            outer := capture.innermost :: capture.outer }, frames⟩
  | inside {char : Char} (cursor : Path) (capture : Capture) (frames : List Frame) :
      isBracket char = false →
      Step ⟨cursor, "", .call capture, frames⟩ char []
        ⟨cursor, "", .call { capture with text := capture.text.push char }, frames⟩
  | unnest {closer next : Char} (cursor : Path) (start : Nat) (text : String)
      (outer : List Char) (target : CallTarget) (frames : List Frame) :
      isCloser closer = true →
      Step ⟨cursor, "", .call ⟨start, text, closer, next :: outer, target⟩, frames⟩ closer []
        ⟨cursor, "", .call ⟨start, text.push closer, next, outer, target⟩, frames⟩
  | read {closer : Char} {text : String} {target : CallTarget} {change : Terms.Change}
      (cursor : Path) (start : Nat) (frames : List Frame) :
      isCloser closer = true → target.Reads (text.push closer) change →
      Step ⟨cursor, "", .call ⟨start, text, closer, [], target⟩, frames⟩ closer
        [.assign cursor change] ⟨cursor, "", .afterCall, frames⟩
  /-- The call of a function ends, and the list of functions goes on. -/
  | called {closer : Char} (cursor : Path) (start : Nat) (text : String) (frames : List Frame) :
      isCloser closer = true →
      Step ⟨cursor, "", .call ⟨start, text, closer, [], .functions⟩, frames⟩ closer []
        ⟨cursor, text.push closer, .value .functions, frames⟩
  /-- The parentheses of a relation open. -/
  | enter {token : String} (cursor : Path) (place : Place) (frames : List Frame) :
      token ≠ "" →
      Step ⟨cursor, token, .relations place, frames⟩ '(' [.attach place.chain token]
        (level (place.chain ++ [token])
          (⟨place.chain ++ [token], { place with closed := none }⟩ :: frames))
  | descend {token : String} (cursor : Path) (place : Place) (frames : List Frame) :
      token ≠ "" →
      Step ⟨cursor, token, .relations place, frames⟩ '.' [.attach place.chain token]
        ⟨cursor, "", .relations ⟨place.anchor, place.chain ++ [token], none⟩, frames⟩
  | descendClosed {place : Place} {relation : Path} (cursor : Path) (frames : List Frame) :
      place.closed = some relation →
      Step ⟨cursor, "", .relations place, frames⟩ '.' []
        ⟨cursor, "", .relations ⟨place.anchor, relation, none⟩, frames⟩
  /-- The next entry of a list of relations begins. -/
  | next {cursor : Path} {token : String} {place : Place} {frames : List Frame}
      {edits : List Edit} :
      Ends ⟨cursor, token, .relations place, frames⟩ edits →
      Step ⟨cursor, token, .relations place, frames⟩ ',' edits
        ⟨cursor, "", .relations (Place.start place.anchor), frames⟩

/-- A text makes some edits and leads from one control to another. -/
inductive Runs : Control → List Char → List Edit → Control → Prop where
  | nil (control : Control) : Runs control [] [] control
  | cons {control next last : Control} {char : Char} {rest : List Char}
      {first later : List Edit} :
      Step control char first next → Runs next rest later last →
      Runs control (char :: rest) (first ++ later) last

/-- A whole text makes some edits. -/
inductive Writes : List Char → List Edit → Prop where
  | intro {text : List Char} {before after : List Edit} {last : Control} :
      Runs (level [] []) text before last → Ends last after → last.frames = [] →
      Writes text (before ++ after)

namespace Runs

variable {control next last : Control} {before after : List Edit} {text rest : List Char}

theorem append (first : Runs control text before next) (later : Runs next rest after last) :
    Runs control (text ++ rest) (before ++ after) last := by
  induction first with
  | nil => exact later
  | cons step _ hypothesis =>
      rw [List.append_assoc]
      exact .cons step (hypothesis later)

theorem single {char : Char} (step : Step control char before next) :
    Runs control [char] before next := by
  rw [← List.append_nil before]
  exact .cons step (.nil next)

theorem snoc {char : Char} (first : Runs control text before next)
    (step : Step next char after last) : Runs control (text ++ [char]) (before ++ after) last :=
  first.append (single step)

end Runs

/-- The relations around a node are open from the inside out, each list of relations
at its own node, and no node is around the root. -/
def Stacked : Path → List Frame → Prop
  | cursor, [] => cursor = []
  | cursor, frame :: frames =>
      frame.relation = cursor ∧ frame.resume.anchor <+: frame.resume.chain ∧
        frame.resume.chain <+: frame.relation ∧ Stacked frame.resume.anchor frames

/-- What holds of the control of every scanner. -/
structure Sound (control : Control) : Prop where
  stacked : Stacked control.cursor control.frames
  fits : control.mode.Fits control.cursor control.token

theorem Sound.start : (level [] []).Sound := ⟨rfl, trivial⟩

theorem Sound.cursor_eq_nil {control : Control} (sound : control.Sound)
    (outermost : control.frames = []) : control.cursor = [] := by
  have stacked := sound.stacked
  rw [outermost] at stacked
  exact stacked

theorem Step.sound {control next : Control} {char : Char} {edits : List Edit}
    (step : Step control char edits next) (sound : control.Sound) : next.Sound := by
  have stacked := sound.stacked
  have fits := sound.fits
  cases step with
  | @push mode char cursor token frames takes =>
      cases mode with
      | name | value | relations => exact ⟨stacked, fits⟩
      | call | afterCall => exact takes.elim
  | separate ends => exact ⟨stacked, trivial⟩
  | @leave cursor token mode frame frames edits ends =>
      rcases stacked with ⟨_, above, below, stacked⟩
      refine ⟨stacked, rfl, above, ?_⟩
      intro relation closed
      cases closed
      exact below
  | parameter | called => exact ⟨stacked, trivial⟩
  | includes cursor frames absent =>
      exact ⟨stacked, rfl, List.prefix_refl _, fun _ closed => nomatch closed⟩
  | group | operator | list | function | nest | inside | unnest | read => exact ⟨stacked, rfl⟩
  | enter cursor place frames written =>
      rcases fits with ⟨rfl, above, closed⟩
      exact ⟨⟨rfl, above, List.prefix_append _ _, stacked⟩, trivial⟩
  | descend cursor place frames written =>
      rcases fits with ⟨rfl, above, closed⟩
      exact ⟨stacked, rfl, above.trans (List.prefix_append _ _), fun _ closed => nomatch closed⟩
  | descendClosed cursor frames found =>
      rcases fits with ⟨rfl, above, closed⟩
      exact ⟨stacked, rfl, above.trans (closed _ found), fun _ closed => nomatch closed⟩
  | next ends =>
      rcases fits with ⟨rfl, above, closed⟩
      exact ⟨stacked, rfl, List.prefix_refl _, fun _ closed => nomatch closed⟩

theorem Runs.sound {control last : Control} {text : List Char} {edits : List Edit}
    (runs : Runs control text edits last) (sound : control.Sound) : last.Sound := by
  induction runs with
  | nil => exact sound
  | cons step _ hypothesis => exact hypothesis (step.sound sound)

section Level

/-! ### A text below the root

What a text does at the root it does below any other node: its edits and its
relations are those of the other node, around whose level more may be open. -/

/-- A place below a node. -/
def placeUnder (base : Path) (place : Place) : Place :=
  ⟨base ++ place.anchor, base ++ place.chain, place.closed.map (base ++ ·)⟩

/-- An open relation below a node. -/
def frameUnder (base : Path) (frame : Frame) : Frame :=
  ⟨base ++ frame.relation, placeUnder base frame.resume⟩

/-- A mode below a node. -/
def modeUnder (base : Path) : Mode → Mode
  | .relations place => .relations (placeUnder base place)
  | mode => mode

/-- The control below a node, with the relations around that node open. -/
def under (base : Path) (outer : List Frame) (control : Control) : Control :=
  ⟨base ++ control.cursor, control.token, modeUnder base control.mode,
    control.frames.map (frameUnder base) ++ outer⟩

variable {control last : Control} {edits : List Edit} (base : Path) (outer : List Frame)

theorem Ends.under (ends : Ends control edits) :
    Ends (control.under base outer) (edits.map (Edit.under base)) := by
  cases ends with
  | name cursor frames => exact .name (base ++ cursor) _
  | value frames reads => exact .value _ reads
  | relation cursor place frames written =>
      exact .relation (base ++ cursor) (placeUnder base place) _ written
  | @closed place relation cursor frames found =>
      have foundUnder : (placeUnder base place).closed = some (base ++ relation) := by
        simp [placeUnder, found]
      exact .closed (base ++ cursor) _ foundUnder
  | call cursor frames => exact .call (base ++ cursor) _

theorem takes_under {mode : Mode} {char : Char} (takes : mode.Takes char) :
    (modeUnder base mode).Takes char := by
  cases mode with
  | name | value | call | afterCall => exact takes
  | relations place =>
      refine ⟨takes.1, ?_⟩
      simp [placeUnder, takes.2]

theorem Step.under {char : Char} (step : Step control char edits last) :
    Step (control.under base outer) char (edits.map (Edit.under base)) (last.under base outer) := by
  cases step with
  | push cursor token frames takes => exact .push _ token _ (takes_under base takes)
  | separate ends => exact .separate (ends.under base outer)
  | leave ends => exact .leave (ends.under base outer)
  | parameter cursor frames written found => exact .parameter _ _ written found
  | includes cursor frames found => exact .includes _ _ found
  | group cursor frames found => exact .group _ _ found
  | operator cursor name frames found => exact .operator _ name _ found
  | list cursor name frames => exact .list _ name _
  | function cursor frames written => exact .function _ _ written
  | nest cursor capture frames opens => exact .nest _ capture _ opens
  | inside cursor capture frames plain => exact .inside _ capture _ plain
  | unnest cursor start text outer target frames closes =>
      exact .unnest _ start text outer target _ closes
  | read cursor start frames closes reads => exact .read _ start _ closes reads
  | called cursor start text frames closes => exact .called _ start text _ closes
  | @enter token cursor place frames written =>
      have step := Step.enter (base ++ cursor) (placeUnder base place)
        (frames.map (frameUnder base) ++ outer) written
      simpa [Control.under, level, placeUnder, frameUnder, modeUnder, Edit.under] using step
  | @descend token cursor place frames written =>
      have step := Step.descend (base ++ cursor) (placeUnder base place)
        (frames.map (frameUnder base) ++ outer) written
      simpa [Control.under, placeUnder, modeUnder, Edit.under] using step
  | @descendClosed place relation cursor frames found =>
      have foundUnder : (placeUnder base place).closed = some (base ++ relation) := by
        simp [placeUnder, found]
      exact .descendClosed _ _ foundUnder
  | next ends => exact .next (ends.under base outer)

theorem Runs.under {text : List Char} (runs : Runs control text edits last) :
    Runs (control.under base outer) text (edits.map (Edit.under base)) (last.under base outer) := by
  induction runs with
  | nil control => exact .nil _
  | cons step _ hypothesis =>
      rw [List.map_append]
      exact .cons (step.under base outer) hypothesis

/-- A text and a separator behind it make the text's edits on any level. -/
theorem Writes.separate {text : List Char} (writes : Writes text edits) :
    Runs (level base outer) (text ++ ['&']) (edits.map (Edit.under base)) (level base outer) := by
  cases writes with
  | @intro before after last runs ends outermost =>
      have root := (runs.sound .start).cursor_eq_nil outermost
      have run := (runs.under base outer).snoc (.separate (ends.under base outer))
      simpa [Control.under, level, root, outermost, modeUnder] using run

/-- A text and a parenthesis behind it make the text's edits and leave the relation
around them. -/
theorem Writes.leave {text : List Char} {frame : Frame} (writes : Writes text edits) :
    Runs (level base (frame :: outer)) (text ++ [')']) (edits.map (Edit.under base))
      ⟨frame.resume.anchor, "", .relations { frame.resume with closed := some frame.relation },
        outer⟩ := by
  cases writes with
  | @intro before after last runs ends outermost =>
      rcases last with ⟨cursor, token, mode, frames⟩
      cases outermost
      have step := Step.leave (ends.under base (frame :: outer))
      have run := (runs.under base (frame :: outer)).snoc step
      simpa [Control.under, level, modeUnder] using run

end Level

end Control

end QueryGate
