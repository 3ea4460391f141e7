import Mathlib
import QueryGate.Proofs.Checked.Brackets
import QueryGate.Proofs.Expression.Phrase
import QueryGate.Proofs.Expression.Pieces
import QueryGate.Proofs.Scanner.Trace

/-!
# What one reader hands to the next

Four readers look for brackets, each in its own way: the scanner keeps the closers of a call that it
collects, the search for a closer keeps those of the text it is given, the cut at commas counts
brackets of both kinds, and the cut at separators counts parentheses alone. Up to that cut the
brackets of every text that one of them hands to the next match; of the parts that the cut makes,
the parentheses do.

For the scanner this is an invariant of the call that is being collected: whatever closes the
brackets that are open closes the first of them with its last character.
-/

namespace QueryGate

variable {depth : Nat} {text word inner : List Char} {innermost opener char : Char}
  {outer : List Char}

/-! ### Texts whose first bracket is open -/

/-- In front of what closes the brackets that are open behind it, a character closes those that are
open in front of it, if it is not the last closer. -/
theorem Closes.of_afterBracket? {next : Char} {others : List Char}
    (after : afterBracket? (innermost :: outer) char = some (next :: others))
    (closes : Closes next others text) : Closes innermost outer (char :: text) := by
  obtain ⟨opens, same⟩ | ⟨-, same⟩ | ⟨plain, same⟩ := afterBracket?_eq_some after
  · cases same
    exact closes.opened opens
  · cases same
    exact .next (.nil 0) closes
  · cases same
    exact closes.plain plain

/-- A text of a word, a bracket that opens, and a part in which that bracket stays open: what closes
the brackets that are open behind the text closes it with the last character. -/
def Pending (innermost : Char) (outer text : List Char) : Prop :=
  ∃ word opener body, text = word ++ opener :: body ∧ IsPlain word ∧ isOpener opener = true ∧
    ∀ rest, Closes innermost outer rest → Closes (closerOf opener) [] (body ++ rest)

namespace Pending

theorem start (plain : IsPlain word) (opens : isOpener opener = true) :
    Pending (closerOf opener) [] (word ++ [opener]) :=
  ⟨word, opener, [], rfl, plain, opens, fun _ closes => closes⟩

theorem push {next : Char} {others : List Char} (pending : Pending innermost outer text)
    (after : afterBracket? (innermost :: outer) char = some (next :: others)) :
    Pending next others (text ++ [char]) := by
  obtain ⟨word, opener, body, rfl, plain, opens, closes⟩ := pending
  refine ⟨word, opener, body ++ [char], by simp, plain, opens, ?_⟩
  intro rest closesRest
  rw [List.append_assoc]
  exact closes _ (closesRest.of_afterBracket? after)

/-- The last closer makes the brackets match from the first one to the end. -/
theorem exists_balanced (pending : Pending innermost [] text) :
    ∃ word opener inner depth, text ++ [innermost] = word ++ opener :: (inner ++ [closerOf opener]) ∧
      IsPlain word ∧ isOpener opener = true ∧ Balanced depth inner := by
  obtain ⟨word, opener, body, rfl, plain, opens, closes⟩ := pending
  obtain ⟨inner, depth, ended, balanced⟩ := (closes _ (.last (.nil 0))).exists_balanced
  exact ⟨word, opener, inner, depth, by simpa using ended, plain, opens, balanced⟩

end Pending

/-- The brackets of the text match, and the first of them is closed by its last character, behind
which nothing is left that could be refused. -/
structure ClosesAtEnd (text : List Char) : Prop where
  balanced : ∃ depth, Balanced depth text
  closes : ∃ first last inner, text.findIdx? isBracket = some first ∧ last + 1 = text.length ∧
    ∀ position, Checked.closeFrom position [] first (text.drop first) = .ok last ∧
      Checked.enclosed position text first = Checked.of (.ok inner)

theorem closesAtEnd_of_balanced (plain : IsPlain word) (opens : isOpener opener = true)
    (balanced : Balanced depth inner) :
    ClosesAtEnd (word ++ opener :: (inner ++ [closerOf opener])) where
  balanced := ⟨depth + 1, (Balanced.of_plain _ plain).append (balanced.bracketed opens)⟩
  closes := by
    have absent : word.findIdx? isBracket = none := List.findIdx?_eq_none_iff.mpr plain
    have bracket : isBracket opener = true := by rw [isBracket, opens, Bool.true_or]
    refine ⟨word.length, word.length + 1 + inner.length, inner, ?_, by simp; omega, ?_⟩
    · simp [List.findIdx?_append, List.findIdx?_cons, absent, bracket]
    · intro position
      constructor
      · rw [List.drop_left, Checked.closeFrom, if_pos opens, Checked.closeFrom_eq,
          untilClosed_append balanced]
        simp [untilClosed, isOpener_closerOf, isCloser_closerOf, Except.map, putFirst]
      · rw [Checked.enclosed_eq_of opens, enclosed_of_balanced balanced]

/-! ### The call that the scanner collects -/

/-- In a call of a field or of a group the first bracket is open. A list of functions goes on
behind a call, so that there an earlier bracket may have been closed. -/
def Mode.IsPending : Mode → Prop
  | .call capture => capture.target ≠ .functions →
      Pending capture.innermost capture.outer capture.text.toList
  | _ => True

namespace Control

variable {control next last : Control} {edits : List Edit}

theorem Step.isPending (step : Step control char edits next)
    (pending : control.mode.IsPending) : next.mode.IsPending := by
  cases step with
  | push cursor token frames takes => exact pending
  | group cursor frames named =>
      intro _
      rw [String.toList_push]
      exact .start (Connective.isPlain_of_ofWord? named) rfl
  | operator cursor name frames named =>
      intro _
      rw [String.toList_push]
      exact .start (Operator.isPlain_of_ofWord? named) rfl
  | list cursor name frames =>
      intro _
      have start : Pending (closerOf '[') [] ([] ++ ['[']) := .start (by decide) rfl
      simpa [closerOf] using start
  | function cursor frames written => exact fun other => absurd rfl other
  | nest cursor capture frames opens =>
      intro other
      rw [String.toList_push]
      exact (pending other).push (afterBracket?_of_opener opens _)
  | inside cursor capture frames plain =>
      intro other
      rw [String.toList_push]
      exact (pending other).push (afterBracket?_of_plain plain _)
  | unnest cursor start text outer target frames closes =>
      intro other
      rw [String.toList_push]
      refine (pending other).push ?_
      simp [afterBracket?, closes, isOpener_of_isCloser closes]
  | _ => trivial

theorem Runs.isPending (runs : Runs control text edits last)
    (pending : control.mode.IsPending) : last.mode.IsPending := by
  induction runs with
  | nil => exact pending
  | cons step _ hypothesis => exact hypothesis (step.isPending pending)

end Control

namespace ScanState

variable {options : ScanOptions} {state : ScanState} {seen : List Char} {capture call : Capture}

/-- The first bracket of a call that is not one of functions is open as long as it is collected. -/
theorem pending_of_run (ran : run options {} seen = .ok state) (mode : state.mode = .call capture)
    (other : capture.target ≠ .functions) :
    Pending capture.innermost capture.outer capture.text.toList := by
  obtain ⟨edits, runs, -, -⟩ := exists_runs_of_start ran
  have pending := runs.isPending trivial
  have unplaced : state.control.mode = .call { capture with start := 0 } :=
    congrArg Mode.unplaced mode
  rw [unplaced] at pending
  exact pending other

/-- The character closes the last bracket of the call that is being collected, and `call` is the
call up to there. -/
def Completes (state : ScanState) (char : Char) (call : Capture) : Prop :=
  ∃ capture, state.mode = .call capture ∧
    afterBracket? (capture.innermost :: capture.outer) char = some [] ∧
    call = { capture with text := capture.text.push char }

/-- A call that is completed is handed to its reader. -/
theorem Completes.act_eq (completes : state.Completes char call) :
    state.act options char = state.endCall call := by
  obtain ⟨capture, mode, after, rfl⟩ := completes
  obtain ⟨closes, rfl, outer⟩ := of_afterBracket?_eq_nil after
  simp [act, mode, callChar, isOpener_of_isCloser closes, closes, outer]

theorem Completes.closesAtEnd (completes : state.Completes char call)
    (ran : run options {} seen = .ok state) (other : call.target ≠ .functions) :
    ClosesAtEnd call.text.toList := by
  obtain ⟨capture, mode, after, rfl⟩ := completes
  have pending := pending_of_run ran mode other
  obtain ⟨-, last, outer⟩ := of_afterBracket?_eq_nil after
  rw [last, outer] at pending
  obtain ⟨word, opener, inner, depth, whole, plain, opens, balanced⟩ := pending.exists_balanced
  rw [String.toList_push, whole]
  exact closesAtEnd_of_balanced plain opens balanced

end ScanState

/-! ### The arguments of a group -/

/-- The slice is one of the arguments that a group hands on as conditions. -/
def HandsOn (position : Nat) (group : List Char) (slice : Slice) : Prop :=
  ∃ call slices, Call.read Connective.ofWord? .group position group = .ok (some call) ∧
    arguments .group call.position call.inner = .ok slices ∧ slice ∈ slices

namespace HandsOn

variable {position : Nat} {group : List Char} {slice : Slice}

theorem exists_balanced (handsOn : HandsOn position group slice) :
    ∃ depth, Balanced depth slice.text := by
  obtain ⟨call, slices, read, cut, member⟩ := handsOn
  obtain ⟨word, -, -, -, depth, balanced⟩ := Call.called_of_read read
  exact ((pieces_of_arguments balanced cut).2 slice member).balanced

/-- An argument lacks at least the parentheses of its group. -/
theorem length_lt (handsOn : HandsOn position group slice) :
    slice.text.length < group.length := by
  obtain ⟨call, slices, read, cut, member⟩ := handsOn
  have inside := Call.length_read read
  have total := totalLength_arguments cut
  have shorter := Slice.length_lt_totalLength member
  omega

end HandsOn

/-- What one reader hands to the next has matching brackets. A call of a field or of a group that
the scanner has collected, whatever the text and the options, has its first bracket closed by its
last character, so that the reader of the call finds the closer there and nothing behind it. An
argument of a group, whatever text is read as a group, can be cut into segments; the parentheses of
their keys and values match, and a key that is a group again is shorter than the group. -/
theorem matched_of_handedOn :
    (∀ options seen state char call, ScanState.run options {} seen = .ok state →
      state.Completes char call → call.target ≠ .functions →
        state.act options char = state.endCall call ∧ ClosesAtEnd call.text.toList) ∧
      ∀ position group slice, HandsOn position group slice →
        (∃ depth, Balanced depth slice.text) ∧
          ∃ segments, Segment.ofText slice.position slice.text = .ok segments ∧
            ∀ segment ∈ segments, Segment.ParensMatch 0 segment.key ∧
              (∀ value, segment.value = some value → Segment.ParensMatch 0 value) ∧
              (segment.value = none → '(' ∈ segment.key → segment.key.length < group.length) := by
  constructor
  · intro options seen state char call ran completes other
    exact ⟨completes.act_eq, completes.closesAtEnd ran other⟩
  · intro position group slice handsOn
    obtain ⟨depth, balanced⟩ := handsOn.exists_balanced
    obtain ⟨segments, cut⟩ := balanced.exists_ofText slice.position
    refine ⟨⟨depth, balanced⟩, segments, cut, ?_⟩
    intro segment member
    have parts := Segment.partsMatch_of_ofText cut segment member
    refine ⟨parts.key, parts.value, ?_⟩
    intro _ _
    exact (Segment.length_key_of_ofText cut member).trans_lt handsOn.length_lt

/-- A group with a list and a group in it, whose last bracket is closed by the next character. -/
theorem matched_of_handedOn_or :
    (∃ state call, ScanState.run {} {} "or(a=[1,2],not(b=3&c=4)&d=5".toList = .ok state ∧
        state.Completes ')' call ∧ call.text = "or(a=[1,2],not(b=3&c=4)&d=5)" ∧
        ClosesAtEnd call.text.toList) ∧
      HandsOn 0 "or(a=[1,2],not(b=3&c=4)&d=5)".toList ⟨11, "not(b=3&c=4)&d=5".toList⟩ ∧
      Segment.ofText 11 "not(b=3&c=4)&d=5".toList =
        .ok [⟨11, "not(b=3&c=4)".toList, none⟩, ⟨24, ['d'], some ['5']⟩] ∧
      "not(b=3&c=4)".toList.length < "or(a=[1,2],not(b=3&c=4)&d=5)".toList.length := by
  obtain ⟨completed, handed⟩ := matched_of_handedOn
  constructor
  · have capture : ∃ state capture,
        ScanState.run {} {} "or(a=[1,2],not(b=3&c=4)&d=5".toList = .ok state ∧
          state.mode = .call capture ∧
          capture = ⟨0, "or(a=[1,2],not(b=3&c=4)&d=5", ')', [], .group⟩ :=
      ⟨_, _, by cbv, rfl, rfl⟩
    obtain ⟨state, capture, ran, mode, rfl⟩ := capture
    have completes : state.Completes ')'
        ⟨0, "or(a=[1,2],not(b=3&c=4)&d=5)", ')', [], .group⟩ := ⟨_, mode, rfl, rfl⟩
    exact ⟨state, _, ran, completes, rfl, (completed _ _ _ _ _ ran completes (by decide)).2⟩
  · have handsOn : HandsOn 0 "or(a=[1,2],not(b=3&c=4)&d=5)".toList
        ⟨11, "not(b=3&c=4)&d=5".toList⟩ :=
      ⟨⟨.or, 3, "a=[1,2],not(b=3&c=4)&d=5".toList⟩,
        [⟨3, "a=[1,2]".toList⟩, ⟨11, "not(b=3&c=4)&d=5".toList⟩], by cbv, by cbv, by simp⟩
    have cut : Segment.ofText 11 "not(b=3&c=4)&d=5".toList =
        .ok [⟨11, "not(b=3&c=4)".toList, none⟩, ⟨24, ['d'], some ['5']⟩] := by cbv
    obtain ⟨-, segments, found, shorter⟩ := handed _ _ _ handsOn
    cases found.symm.trans cut
    exact ⟨handsOn, cut, (shorter _ List.mem_cons_self).2.2 rfl (by decide)⟩

end QueryGate
