import Mathlib
import QueryGate.Proofs.Scanner.Failure

/-!
# Where a scan finds faults

An error of a scan has a place in the text, or its end, and says what stands there: a character
that cannot stand there, a bracket that is nested too deep, or the name of a relation that is
nested too deep or included before. It does not matter how deep in calls and groups the fault is
found, where texts have been cut off and are read by themselves.

A bracket that is not closed is reported at the end of the text, and is then the innermost one
that is open there. The exception is a list in a group: it is cut apart at a `&`, and its bracket
is reported as not closed there, even if it is closed behind.
-/

namespace QueryGate

open ScanState

/-- The name of a relation begins here: the scanner is where it can begin, and it goes on to a
separator or to the end. -/
structure NamesRelation (options : ScanOptions) (before after : List Char) (name : String) :
    Prop where
  named : IsName name
  expected : ∃ place, ExpectsRelation options before place
  stands : ∃ rest, after = name.toList ++ rest ∧ ∀ char ∈ rest.head?, isSeparator char = true

/-- What a fault says of the text in front of its place and of the text from there on. -/
def Fault.IsAt (options : ScanOptions) (before after : List Char) : Fault → Prop
  | unexpected found => ∃ rest, after = found :: rest
  | empty _ => True
  | unclosed expected =>
      LeavesOpen before expected ∧
        (after = [] ∨ expected = ']' ∧ ∃ rest, after = '&' :: rest)
  | repeatedInclude name => NamesRelation options before after name
  | tooDeep limit =>
      limit = options.maxDepth ∧
        ((∃ opener rest, isOpener opener = true ∧ after = opener :: rest) ∨
          ∃ name, NamesRelation options before after name)

/-- The error has a place in the text. -/
def QueryError.IsIn (options : ScanOptions) (text : List Char) (error : QueryError) : Prop :=
  ∃ before after, text = before ++ after ∧ error.position = before.length ∧
    error.fault.IsAt options before after

variable {options : ScanOptions} {state next : ScanState} {seen rest front text : List Char}
  {char : Char} {error : QueryError} {position : Nat}

theorem Fault.Fits.isAt {before after : List Char} {fault : Fault} (fits : fault.Fits before after)
    (options : ScanOptions) : fault.IsAt options before after := by
  cases fault with
  | unexpected found => exact fits
  | empty part => trivial
  | unclosed expected =>
      obtain ⟨list, open?, separator⟩ := fits
      exact ⟨open?, .inr ⟨list, separator⟩⟩
  | repeatedInclude | tooDeep => exact fits.elim

/-- What is wrong with a part that was read by itself is wrong with the text. -/
theorem QueryError.PointsInto.isIn {closers : List Char} (points : error.PointsInto position text)
    (stands : position = front.length) (open? : unclosed? [] front = some closers)
    (options : ScanOptions) (behind : List Char) :
    error.IsIn options (front ++ text ++ behind) := by
  have place : position = 0 + front.length := by rw [stands, Nat.zero_add]
  obtain ⟨before, after, split, at?, fits⟩ := points.within place open? behind
  exact ⟨before, after, split, by rw [at?, Nat.zero_add], fits.isAt options⟩

namespace ScanState.Traces

variable (traces : Traces options seen state)
include traces

theorem isIn_unexpected (char : Char) (rest : List Char) :
    (QueryError.unexpected state.position char).IsIn options (seen ++ char :: rest) :=
  ⟨seen, char :: rest, rfl, traces.position_eq, rest, rfl⟩

theorem isIn_missing (part : Part) (rest : List Char) :
    (QueryError.empty state.position part).IsIn options (seen ++ rest) :=
  ⟨seen, rest, rfl, traces.position_eq, trivial⟩

/-- What is wrong with the token is wrong with the text. -/
theorem isIn_of_token (points : error.PointsInto state.tokenStart state.token.toList)
    (rest : List Char) : error.IsIn options (seen ++ rest) := by
  obtain ⟨before, after, split, place, -⟩ := traces.token
  have open? := traces.open_eq
  rw [split, List.append_assoc] at open?
  obtain ⟨closers, openBefore, -⟩ := exists_unclosed?_of_append open?
  rw [split, List.append_assoc]
  exact points.isIn place openBefore options (after ++ rest)

/-- The token names a relation, up to a separator or the end. -/
theorem namesRelation {place : Place} (ends : EndsName rest) (mode : state.mode = .relations place)
    (written : state.token ≠ "") :
    ∃ before, seen = before ++ state.token.toList ∧ state.tokenStart = before.length ∧
      NamesRelation options before (state.token.toList ++ rest) state.token := by
  have kept := traces.mode
  rw [mode] at kept
  obtain ⟨named, before, split, expects⟩ := kept written
  obtain ⟨front, after, splitToken, at?, last⟩ := traces.token
  rw [last written, List.append_nil] at splitToken
  have same : front = before := List.append_cancel_right (splitToken.symm.trans split)
  subst same
  exact ⟨front, split, at?, named, ⟨place, expects⟩, rest, rfl, ends⟩

/-- With its last bracket, a call is a text whose brackets match. -/
theorem balanced_call {capture : Capture} (mode : state.mode = .call capture)
    (after : afterBracket? (capture.innermost :: capture.outer) char = some []) :
    ∃ depth, Balanced depth (capture.text.push char).toList := by
  obtain ⟨-, openCall, -⟩ := traces.mode_call mode
  exact balanced_of_unclosed? (unclosed?_push openCall after)

/-- What is wrong with a call that has been collected is wrong with the text. -/
theorem isIn_of_call {capture : Capture} (rest : List Char) (mode : state.mode = .call capture)
    (points : error.PointsInto capture.start (capture.text.push char).toList) :
    error.IsIn options (seen ++ char :: rest) := by
  obtain ⟨-, -, before, rfl, place⟩ := traces.mode_call mode
  obtain ⟨closers, openBefore, -⟩ := exists_unclosed?_of_append traces.open_eq
  have whole := points.isIn place openBefore options rest
  simpa using whole

/-- What is refused is in the text, and at the place that the error says. -/
theorem isIn_of_refuses (refuses : state.Refuses options rest error) :
    error.IsIn options (seen ++ rest) := by
  cases refuses with
  | unexpected char rest => exact traces.isIn_unexpected char rest
  | missing ends => exact traces.isIn_missing _ rest
  | fields _ _ failed =>
      obtain ⟨depth, balanced⟩ := traces.balanced
      exact traces.isIn_of_token (pointsInto_of_readFields balanced failed) rest
  | functions _ _ failed =>
      obtain ⟨depth, balanced⟩ := traces.balanced
      exact traces.isIn_of_token (pointsInto_of_readFunctions balanced failed) rest
  | repeated mode written ends =>
      obtain ⟨before, rfl, place, names⟩ := traces.namesRelation ends mode written
      exact ⟨before, _, List.append_assoc _ _ _, place, names⟩
  | deepRelation mode written ends deep =>
      obtain ⟨before, rfl, place, names⟩ := traces.namesRelation ends mode written
      exact ⟨before, _, List.append_assoc _ _ _, place, rfl, .inr ⟨_, names⟩⟩
  | deepBracket rest mode opens deep =>
      exact ⟨seen, _, rfl, traces.position_eq, rfl, .inl ⟨_, rest, opens, rfl⟩⟩
  | value rest mode target after failed =>
      obtain ⟨depth, balanced⟩ := traces.balanced_call mode after
      exact traces.isIn_of_call rest mode (pointsInto_of_readValue balanced failed)
  | group rest mode target after failed =>
      obtain ⟨depth, balanced⟩ := traces.balanced_call mode after
      exact traces.isIn_of_call rest mode (pointsInto_of_readGroup balanced failed)
  | openCall mode =>
      have open? := traces.open_eq
      rw [ScanState.closers, mode] at open?
      exact ⟨seen, [], rfl, traces.position_eq, ⟨_, open?⟩, .inl rfl⟩
  | openRelation notCall unfinished =>
      obtain ⟨frame, frames, open?⟩ := List.exists_cons_of_ne_nil unfinished
      refine ⟨seen, [], rfl, traces.position_eq, ⟨frames.map fun _ => ')', ?_⟩, .inl rfl⟩
      rw [traces.open_eq, closers_of_not_call notCall, open?]
      rfl

end ScanState.Traces

/-- Every error of a scan has a place in the text. -/
theorem isIn_of_scan {text : String} (failed : scan options text = .error error) :
    error.IsIn options text.toList := by
  obtain ⟨before, after, state, split, traces, refuses⟩ := exists_refuses_of_scan failed
  rw [split]
  exact traces.isIn_of_refuses refuses

/-- The place of an error is in the text or at its end, and what the error says stands there. -/
theorem isAt_of_scan {text : String} (failed : scan options text = .error error) :
    error.position ≤ text.length ∧
      error.fault.IsAt options (text.toList.take error.position)
        (text.toList.drop error.position) := by
  obtain ⟨before, after, split, place, isAt⟩ := isIn_of_scan failed
  rw [← String.length_toList, split, place, List.take_left, List.drop_left]
  exact ⟨by simp, isAt⟩

theorem isAt_of_scan_like :
    scan {} "or(title=like(a[b]))" = .error (.unexpected 15 '[') ∧
      15 ≤ "or(title=like(a[b]))".length ∧
      ∃ rest, "or(title=like(a[b]))".toList.drop 15 = '[' :: rest := by
  have failed : scan {} "or(title=like(a[b]))" = .error (.unexpected 15 '[') := by cbv
  obtain ⟨inText, isAt⟩ := isAt_of_scan failed
  exact ⟨failed, inText, isAt⟩

/-- A bracket that is reported as not closed is the innermost one that is open at that place. The
place is the end of the text, unless a list is cut apart there. -/
theorem leavesOpen_of_scan {text : String} {expected : Char}
    (failed : scan options text = .error (.unclosed position expected)) :
    LeavesOpen (text.toList.take position) expected ∧
      (position = text.length ∧ LeavesOpen text.toList expected ↔
        ¬(expected = ']' ∧ text.toList[position]? = some '&')) := by
  obtain ⟨before, after, split, place, open?, ends⟩ := isIn_of_scan failed
  simp only [QueryError.unclosed] at place
  subst place
  rw [← String.length_toList, split, List.take_left]
  refine ⟨open?, ?_⟩
  obtain rfl | ⟨list, rest, rfl⟩ := ends
  · simpa using open?
  · simp [list]

theorem leavesOpen_of_scan_list :
    scan {} "title=[a,b" = .error (.unclosed 10 ']') ∧
      LeavesOpen ("title=[a,b".toList.take 10) ']' ∧
      (10 = "title=[a,b".length ∧ LeavesOpen "title=[a,b".toList ']' ↔
        ¬(']' = ']' ∧ "title=[a,b".toList[10]? = some '&')) := by
  have failed : scan {} "title=[a,b" = .error (.unclosed 10 ']') := by cbv
  exact ⟨failed, leavesOpen_of_scan failed⟩

/-- A list that is closed, in a relation that is not. -/
theorem scan_list_in_group :
    scan {} "includes=r(or(f=[a&b])" = .error (.unclosed 18 ']') ∧
      18 ≠ "includes=r(or(f=[a&b])".length ∧
      unclosed? [] "includes=r(or(f=[a&b])".toList = some [')'] := by
  have failed : scan {} "includes=r(or(f=[a&b])" = .error (.unclosed 18 ']') := by cbv
  exact ⟨failed, by decide, by decide⟩

end QueryGate
