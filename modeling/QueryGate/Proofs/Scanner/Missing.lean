import Mathlib
import QueryGate.Proofs.Scanner.Failure

/-!
# Where a scan misses a part

A scan that ends because a part is missing reports the place where the part should have ended: the
character that ends it, or the end of the text. It is so in every mode, and however deep in calls
and groups the part is missing.

The exception is a parameter whose value is a list of fields or of functions and is missing as a
whole. It is reported where its token begins, and no token has begun; the place is still that of
the token before, which is the parameter's name.
-/

namespace QueryGate

open Control ScanState

/-- The parameter whose whole value the part is, where that is a list. -/
def Part.list? : Part → Option Parameter
  | fieldList => some .fields
  | functionList => some .functions
  | _ => none

/-- What stands at the place where a part is reported as missing: what ends it, or of a list the
name of the parameter, without a value behind. -/
def Part.IsMissingAt (part : Part) (after : List Char) : Prop :=
  match part.list? with
  | none => part.EndsAt after
  | some parameter => ∃ name rest, after = name.toList ++ '=' :: rest ∧
      Parameter.ofName? name = some parameter ∧ ∀ char ∈ rest.head?, char = '&' ∨ char = ')'

/-- If the error is that a part is missing, then the text says so at the place of the error. -/
def QueryError.Misses (text : List Char) (error : QueryError) : Prop :=
  ∀ place part, error = .empty place part → ∃ before after, text = before ++ after ∧
    place = before.length ∧ part.IsMissingAt after

variable {options : ScanOptions} {state next : ScanState} {seen rest front text : List Char}
  {char : Char} {error : QueryError} {position : Nat} {part : Part} {parameter : Parameter}

/-- An error of another kind reports no part as missing. -/
theorem QueryError.misses_of_fault {fault : Fault} (other : ∀ part, fault ≠ .empty part) :
    (⟨position, fault⟩ : QueryError).Misses text :=
  fun _ part same => absurd (congrArg QueryError.fault same) (other part)

theorem Part.EndsAt.isMissingAt (ends : part.EndsAt rest) : part.IsMissingAt rest := by
  cases part with
  | fieldList | functionList => exact absurd rfl ends.1
  | _ => exact ends

/-- What is missing in a part that was read by itself is missing in the text. -/
theorem QueryError.MissesIn.misses (misses : error.MissesIn position text rest)
    (stands : position = front.length) : error.Misses (front ++ text ++ rest) := by
  intro place part same
  obtain ⟨before, after, rfl, at?, ends⟩ := misses place part same
  refine ⟨front ++ before, after ++ rest, by simp, ?_, ends.isMissingAt⟩
  rw [at?, stands, List.length_append]

/-! ### Calls of connectives -/

/-- The call of a group has a parenthesis. -/
def Mode.OpensGroup : Mode → Prop
  | .call capture => capture.target = .group → '(' ∈ capture.text.toList
  | _ => True

theorem Control.Step.opensGroup {control next : Control} {edits : List Edit}
    (step : Step control char edits next) (opens : control.mode.OpensGroup) :
    next.mode.OpensGroup := by
  cases step with
  | push => exact opens
  | group => exact fun _ => by simp
  | operator | list | function => nofun
  | nest | inside | unnest => exact fun target => by simp [opens target]
  | _ => trivial

theorem Control.Runs.opensGroup {control last : Control} {edits : List Edit}
    (runs : Runs control text edits last) (opens : control.mode.OpensGroup) :
    last.mode.OpensGroup := by
  induction runs with
  | nil => exact opens
  | cons step _ hypothesis => exact hypothesis (step.opensGroup opens)

/-! ### Values that have not begun -/

/-- Only behind its name and a `=` is a parameter without a token. -/
theorem Control.Step.begins {control next : Control} {edits : List Edit}
    (step : Step control char edits next) (mode : next.mode = .value parameter)
    (empty : next.token = "") :
    char = '=' ∧ control.mode = .name ∧ control.token ≠ "" ∧
      Parameter.ofName? control.token = some parameter := by
  cases step with
  | push => simp at empty
  | called => simp at empty
  | parameter cursor frames written found =>
      cases mode
      exact ⟨rfl, rfl, written, found⟩
  | _ => cases mode

/-- A parameter has been named where its value begins, and the place of the token is that of the
name. -/
theorem exists_name_of_run (ran : run options {} seen = .ok state)
    (mode : state.mode = .value parameter) (empty : state.token = "") :
    ∃ before name, seen = before ++ name.toList ++ ['='] ∧ state.tokenStart = before.length ∧
      Parameter.ofName? name = some parameter := by
  cases seen using List.reverseRecOn with
  | nil =>
      cases ran
      cases mode
  | append_singleton seen char =>
      rw [run_append, bind_eq_ok_iff] at ran
      obtain ⟨previous, ranSeen, stepped⟩ := ran
      obtain ⟨_, found, same⟩ := bind_eq_ok_iff.mp stepped
      cases same
      obtain ⟨acted, acts, rfl⟩ := map_eq_ok_iff.mp found
      -- The character before is the `=`, and what is read before that is the name.
      obtain ⟨-, -, sound, distinct⟩ := exists_runs_of_start ranSeen
      obtain ⟨edits, last, step⟩ := exists_step_of_act sound distinct acts
      have reached := act_of_step options step rfl sound distinct
      rw [acts] at reached
      generalize Edit.applyAll options previous.request.unnumbered edits = outcome at reached
      cases reached with
      | state same =>
          have modeLast : last.mode = .value parameter := by
            rw [← same]
            exact congrArg Mode.unplaced mode
          have emptyLast : last.token = "" := by
            rw [← same]
            exact empty
          obtain ⟨rfl, naming, written, named⟩ := step.begins modeLast emptyLast
          obtain ⟨before, after, split, place, ends⟩ :=
            ((Traces.start options).of_run ranSeen).token
          rw [ends written, List.append_nil, List.nil_append] at split
          refine ⟨before, previous.token, by rw [split], ?_, named⟩
          have modeName : previous.mode = .name := by
            cases given : previous.mode <;>
              simp [ScanState.control, Mode.unplaced, given] at naming
            rfl
          have kept : acted = previous.dropToken.enter (previous.modeOfName previous.token) := by
            have given : previous.token.isEmpty = false := String.isEmpty_eq_false_iff.mpr written
            simpa [act, modeName, nameChar, given] using acts.symm
          rw [kept]
          exact place

namespace ScanState.Traces

variable (traces : Traces options seen state)
include traces

theorem misses_missing (ends : part.EndsAt rest) :
    (QueryError.empty state.position part).Misses (seen ++ rest) := by
  intro place other same
  cases same
  exact ⟨seen, rest, rfl, traces.position_eq, ends.isMissingAt⟩

/-- What is missing in the token is missing in the text. -/
theorem misses_of_token (written : state.token ≠ "")
    (misses : error.MissesIn state.tokenStart state.token.toList rest) :
    error.Misses (seen ++ rest) := by
  obtain ⟨before, after, split, place, ends⟩ := traces.token
  rw [ends written, List.append_nil] at split
  rw [split]
  exact misses.misses place

/-- A list that has not begun is reported as missing at the name of its parameter. -/
theorem misses_of_blank (list : part.list? = some parameter) (mode : state.mode = .value parameter)
    (empty : state.token = "") (closes : ∀ char ∈ rest.head?, char = '&' ∨ char = ')') :
    (QueryError.empty state.tokenStart part).Misses (seen ++ rest) := by
  obtain ⟨before, name, split, place, named⟩ := exists_name_of_run traces.ran mode empty
  intro at? other same
  cases same
  refine ⟨before, name.toList ++ '=' :: rest, by simp [split], place, ?_⟩
  rw [Part.IsMissingAt, list]
  exact ⟨name, rest, rfl, named, closes⟩

/-- A list that cannot be read misses a part within it, or is missing as a whole. -/
theorem misses_of_list (list : part.list? = some parameter) (mode : state.mode = .value parameter)
    (ends : EndsParameter rest)
    (blank : state.token = "" → error = .empty state.tokenStart part)
    (within : state.token ≠ "" → error.MissesIn state.tokenStart state.token.toList rest) :
    error.Misses (seen ++ rest) := by
  by_cases empty : state.token = ""
  · rw [blank empty]
    exact traces.misses_of_blank list mode empty ends
  · exact traces.misses_of_token empty (within empty)

/-- What is missing in a call that has been collected is missing in the text. -/
theorem misses_of_call {capture : Capture} (rest : List Char) (mode : state.mode = .call capture)
    (misses : error.MissesIn capture.start (capture.text.push char).toList rest) :
    error.Misses (seen ++ char :: rest) := by
  obtain ⟨-, -, before, rfl, place⟩ := traces.mode_call mode
  have whole := misses.misses place
  simpa using whole

/-- What is refused as missing is missing at the place that the error says. -/
theorem misses_of_refuses (refuses : state.Refuses options rest error) :
    error.Misses (seen ++ rest) := by
  cases refuses with
  | missing ends => exact traces.misses_missing ends
  | fields mode ends failed =>
      obtain ⟨depth, balanced⟩ := traces.balanced
      have list : Part.list? .fieldList = some .fields := rfl
      apply traces.misses_of_list list mode ends
      · intro empty
        rw [empty] at failed
        cases failed
        rfl
      · intro written
        exact missesIn_of_readFields balanced (by simpa using written) (ends.endsAt (by decide))
          failed
  | functions mode ends failed =>
      obtain ⟨depth, balanced⟩ := traces.balanced
      have list : Part.list? .functionList = some .functions := rfl
      apply traces.misses_of_list list mode ends
      · intro empty
        rw [empty] at failed
        cases failed
        rfl
      · intro written
        exact missesIn_of_readFunctions balanced (by simpa using written)
          (ends.endsAt (by decide)) failed
  | value rest mode target after failed =>
      exact traces.misses_of_call rest mode (missesIn_of_readValue failed)
  | group rest mode target after failed =>
      obtain ⟨edits, runs, -⟩ := exists_runs_of_start traces.ran
      have opens := runs.opensGroup trivial
      simp only [ScanState.control, Mode.unplaced, mode, Mode.OpensGroup] at opens
      exact traces.misses_of_call rest mode
        (missesIn_of_readGroup (by simp [opens target]) failed)
  | unexpected | repeated | deepRelation | deepBracket | openCall | openRelation =>
      exact QueryError.misses_of_fault (by simp)

end ScanState.Traces

theorem misses_of_scan {text : String} (failed : scan options text = .error error) :
    error.Misses text.toList := by
  obtain ⟨before, after, state, split, traces, refuses⟩ := exists_refuses_of_scan failed
  rw [split]
  exact traces.misses_of_refuses refuses

/-- What can end a part. -/
def delimiters : List Char := ['&', '=', '(', ')', ']', ',', '.']

theorem Part.mem_delimiters (ends : char ∈ part.enders) : char ∈ delimiters := by
  have each : ∀ other ∈ part.enders, other ∈ delimiters := by
    cases part <;> simp [enders, delimiters]
  exact each char ends

/-- The name of a parameter whose value is a list begins with a letter. -/
theorem head?_of_ofName? {name : String} (named : Parameter.ofName? name = some parameter)
    (list : part.list? = some parameter) : name.toList.head? = some 'f' := by
  have letter : parameter = .fields ∨ parameter = .functions := by
    cases part <;> cases list <;> simp
  rw [Parameter.ofName?] at named
  split at named <;> rename_i found <;> cases named
  · unfold Reserved.ofName? at found
    split at found <;> cases found <;> rfl
  · unfold Reserved.ofName? at found
    split at found <;> cases found <;> rfl
  all_goals simp at letter

/-- A part that is missing is reported at the place where it should have ended: at a character that
can end it, or at the end of the text. It is so exactly unless the part is the whole value of a
list of fields or of functions, which is reported at the beginning of the parameter's name. -/
theorem isMissingAt_of_scan {text : String}
    (failed : scan options text = .error (.empty position part)) :
    position ≤ text.length ∧ part.IsMissingAt (text.toList.drop position) ∧
      ((position = text.length ∨ ∃ char ∈ delimiters, text.toList[position]? = some char) ↔
        part.list? = none) := by
  obtain ⟨before, after, split, rfl, missing⟩ := misses_of_scan failed position part rfl
  have length : text.length = before.length + after.length := by
    rw [← String.length_toList, split, List.length_append]
  have next : text.toList[before.length]? = after.head? := by
    rw [split, List.getElem?_append_right (Nat.le_refl _), Nat.sub_self, List.head?_eq_getElem?]
  rw [next, length, split, List.drop_left]
  refine ⟨Nat.le_add_right _ _, missing, ?_⟩
  rw [Part.IsMissingAt] at missing
  cases list : part.list? with
  | none =>
      rw [list] at missing
      refine iff_of_true ?_ rfl
      cases after with
      | nil => exact .inl rfl
      | cons char rest => exact .inr ⟨char, Part.mem_delimiters (missing.2 char rfl), rfl⟩
  | some parameter =>
      rw [list] at missing
      obtain ⟨name, rest, rfl, named, -⟩ := missing
      have first := head?_of_ofName? named list
      have head : (name.toList ++ '=' :: rest).head? = some 'f' := by
        rw [List.head?_append, first, Option.some_or]
      have written : 0 < (name.toList ++ '=' :: rest).length := by simp
      refine iff_of_false ?_ nofun
      rintro (none | ⟨char, member, same⟩)
      · omega
      · rw [head] at same
        cases same
        exact absurd member (by decide)

theorem isMissingAt_of_scan_group :
    let text := "id=1&and(a=1,)"
    scan {} text = .error (.empty 13 .group) ∧ 13 ≤ text.length ∧
      Part.group.IsMissingAt (text.toList.drop 13) ∧
      (13 = text.length ∨ ∃ char ∈ delimiters, text.toList[13]? = some char) := by
  intro text
  have failed : scan {} text = .error (.empty 13 .group) := by cbv
  obtain ⟨inText, missing, ended⟩ := isMissingAt_of_scan failed
  exact ⟨failed, inText, missing, ended.mpr rfl⟩

/-- A list of fields that is missing at the end of the text, and is reported at its beginning. -/
theorem scan_fields_missing :
    scan {} "fields=" = .error (.empty 0 .fieldList) ∧
      ¬(0 = "fields=".length ∨ ∃ char ∈ delimiters, "fields=".toList[0]? = some char) := by
  have failed : scan {} "fields=" = .error (.empty 0 .fieldList) := by cbv
  refine ⟨failed, ?_⟩
  rintro (none | ⟨char, member, same⟩)
  · cases none
  · cases same
    exact absurd member (by decide)

end QueryGate
