import QueryGate.Proofs.Expression.Missing
import QueryGate.Proofs.Scanner.Trace

/-!
# How a scan fails

The next character, or the end of the text, can be refused in a few ways. They are listed once,
each with what is known of the scanner there, so that what is true of errors has to be shown of
these ways alone. What is wrong with a part that was cut off is left to the readers of the parts.
-/

namespace QueryGate

open ScanState

/-- A parameter ends in front of this text. -/
def EndsParameter (rest : List Char) : Prop := ∀ char ∈ rest.head?, char = '&' ∨ char = ')'

/-- A relation's name ends in front of this text. -/
def EndsName (rest : List Char) : Prop := ∀ char ∈ rest.head?, isSeparator char = true

/-- The rest of the text is refused with an error. -/
inductive ScanState.Refuses (options : ScanOptions) (state : ScanState) :
    List Char → QueryError → Prop where
  | unexpected (char : Char) (rest : List Char) :
      Refuses options state (char :: rest) (.unexpected state.position char)
  | missing {part : Part} {rest : List Char} :
      part.EndsAt rest → Refuses options state rest (.empty state.position part)
  | fields {rest : List Char} {error : QueryError} :
      state.mode = .value .fields → EndsParameter rest →
      readFields state.tokenStart state.token.toList = .error error →
      Refuses options state rest error
  | functions {rest : List Char} {error : QueryError} :
      state.mode = .value .functions → EndsParameter rest →
      readFunctions state.tokenStart state.token.toList = .error error →
      Refuses options state rest error
  | repeated {place : Place} {rest : List Char} :
      state.mode = .relations place → state.token ≠ "" → EndsName rest →
      Refuses options state rest ⟨state.tokenStart, .repeatedInclude state.token⟩
  | deepRelation {place : Place} {rest : List Char} :
      state.mode = .relations place → state.token ≠ "" → EndsName rest →
      options.maxDepth < place.chain.length + 1 →
      Refuses options state rest ⟨state.tokenStart, .tooDeep options.maxDepth⟩
  | deepBracket {capture : Capture} {opener : Char} (rest : List Char) :
      state.mode = .call capture → isOpener opener = true →
      options.maxDepth < capture.outer.length + 2 →
      Refuses options state (opener :: rest) ⟨state.position, .tooDeep options.maxDepth⟩
  /-- The call of an operator, or a list, has been collected and cannot be read. -/
  | value {capture : Capture} {closer : Char} {name : String} {error : QueryError}
      (rest : List Char) :
      state.mode = .call capture → capture.target = .predicate name →
      afterBracket? (capture.innermost :: capture.outer) closer = some [] →
      readValue capture.start (capture.text.push closer).toList = .error error →
      Refuses options state (closer :: rest) error
  | group {capture : Capture} {closer : Char} {error : QueryError} (rest : List Char) :
      state.mode = .call capture → capture.target = .group →
      afterBracket? (capture.innermost :: capture.outer) closer = some [] →
      readGroup capture.start (capture.text.push closer).toList = .error error →
      Refuses options state (closer :: rest) error
  | openCall {capture : Capture} :
      state.mode = .call capture →
      Refuses options state [] (.unclosed state.position capture.innermost)
  | openRelation :
      state.mode.closers = [] → state.frames ≠ [] →
      Refuses options state [] (.unclosed state.position ')')

variable {options : ScanOptions} {state next : ScanState} {seen rest text : List Char}
  {char : Char} {error : QueryError}

theorem EndsParameter.endsName (ends : EndsParameter rest) : EndsName rest := by
  intro char member
  obtain rfl | rfl := ends char member <;> rfl

/-- What can end a parameter ends each part that may be missing there. -/
theorem EndsParameter.endsAt {part : Part} (ends : EndsParameter rest)
    (both : '&' ∈ part.enders ∧ ')' ∈ part.enders) : part.EndsAt rest := by
  refine ⟨List.ne_nil_of_mem both.1, ?_⟩
  intro char member
  obtain rfl | rfl := ends char member
  · exact both.1
  · exact both.2

namespace ScanState

/-! ### Ends of what has been begun -/

theorem refuses_of_attach {place : Place} (mode : state.mode = .relations place)
    (written : state.token ≠ "") (ends : EndsName rest)
    (failed : state.attach options place.chain = .error error) :
    state.Refuses options rest error := by
  obtain same | ⟨request, made, same⟩ := exists_attach_eq options state place.chain
  · rw [same] at failed
    cases failed
    exact .repeated mode written ends
  · rw [same] at failed
    split at failed <;> cases failed
    rename_i deep
    exact .deepRelation mode written ends deep

theorem refuses_of_endRelation {place : Place} (mode : state.mode = .relations place)
    (ends : EndsName rest) (misses : Part.relationName.EndsAt rest)
    (failed : state.endRelation options place = .error error) :
    state.Refuses options rest error := by
  rw [endRelation] at failed
  split at failed
  · rename_i written
    exact refuses_of_attach mode (by simpa using written) ends (map_eq_error_iff.mp failed)
  · split at failed <;> cases failed
    exact .missing misses

theorem refuses_of_endValue {parameter : Parameter} (mode : state.mode = .value parameter)
    (ends : EndsParameter rest) (failed : state.endValue parameter = .error error) :
    state.Refuses options rest error := by
  cases parameter with
  | clause directive =>
      simp only [endValue] at failed
      split at failed <;> cases failed
      exact .missing (ends.endsAt (by simp [Part.enders]))
  | fields =>
      simp only [endValue, bind_eq_error_iff] at failed
      obtain failed | ⟨names, -, failed⟩ := failed
      · exact .fields mode ends failed
      · cases failed
  | functions =>
      simp only [endValue, bind_eq_error_iff] at failed
      obtain failed | ⟨calls, -, failed⟩ := failed
      · exact .functions mode ends failed
      · cases failed
  | predicate name => cases failed

theorem refuses_of_endText (ends : EndsParameter rest)
    (notCall : ∀ capture, state.mode ≠ .call capture)
    (failed : state.endText options = .error error) : state.Refuses options rest error := by
  cases mode : state.mode with
  | name =>
      simp only [endText, mode] at failed
      split at failed <;> cases failed
      exact .missing (ends.endsAt (by decide))
  | value parameter =>
      simp only [endText, mode] at failed
      exact refuses_of_endValue mode ends failed
  | relations place =>
      simp only [endText, mode] at failed
      exact refuses_of_endRelation mode ends.endsName (ends.endsAt (by decide)) failed
  | call capture => exact absurd mode (notCall capture)
  | afterCall =>
      simp only [endText, mode] at failed
      cases failed

/-! ### Characters -/

theorem refuses_of_separator (rest : List Char) (notCall : ∀ capture, state.mode ≠ .call capture)
    (failed : state.act options '&' = .error error) :
    state.Refuses options ('&' :: rest) error := by
  rw [act_separator notCall, bind_eq_error_iff] at failed
  obtain failed | ⟨ended, -, failed⟩ := failed
  · exact refuses_of_endText (by simp [EndsParameter]) notCall failed
  · cases failed

theorem refuses_of_closer (rest : List Char) (settled : state.mode = .afterCall → state.token = "")
    (notCall : ∀ capture, state.mode ≠ .call capture)
    (failed : state.act options ')' = .error error) :
    state.Refuses options (')' :: rest) error := by
  rw [act_closer notCall, bind_eq_error_iff] at failed
  obtain failed | ⟨ended, ends, failed⟩ := failed
  · exact refuses_of_endText (by simp [EndsParameter]) notCall failed
  · obtain ⟨-, request, made, rfl⟩ := exists_of_endText settled ends
    rw [closeRelation] at failed
    split at failed <;> cases failed
    exact .unexpected ')' rest

theorem refuses_of_nameChar (rest : List Char) (mode : state.mode = .name)
    (failed : state.act options char = .error error) :
    state.Refuses options (char :: rest) error := by
  have settled : state.mode = .afterCall → state.token = "" := by simp [mode]
  have fails := failed
  simp only [act, mode, nameChar] at fails
  split at fails
  · split at fails <;> cases fails
    exact .missing (Part.endsAt_cons (by decide) rest)
  · split at fails <;> cases fails
    exact .unexpected _ rest
  · exact refuses_of_separator rest (by simp [mode]) failed
  · exact refuses_of_closer rest settled (by simp [mode]) failed
  iterate 4
    cases fails
    exact .unexpected _ rest
  · cases fails

theorem refuses_of_valueChar {parameter : Parameter} (rest : List Char)
    (mode : state.mode = .value parameter) (failed : state.act options char = .error error) :
    state.Refuses options (char :: rest) error := by
  have settled : state.mode = .afterCall → state.token = "" := by simp [mode]
  have fails := failed
  simp only [act, mode, valueChar] at fails
  split at fails
  · exact refuses_of_separator rest (by simp [mode]) failed
  · exact refuses_of_closer rest settled (by simp [mode]) failed
  · split at fails <;> cases fails
    exact .unexpected _ rest
  · split at fails
    · split at fails <;> cases fails
      exact .unexpected _ rest
    · cases fails
      exact .unexpected _ rest
  iterate 2
    cases fails
    exact .unexpected _ rest
  · cases fails

theorem refuses_of_relationChar {place : Place} (rest : List Char)
    (mode : state.mode = .relations place) (failed : state.act options char = .error error) :
    state.Refuses options (char :: rest) error := by
  have settled : state.mode = .afterCall → state.token = "" := by simp [mode]
  have ends : ∀ {char : Char}, isSeparator char = true → EndsName (char :: rest) :=
    fun separates => by simpa [EndsName] using separates
  have fails := failed
  simp only [act, mode, relationChar] at fails
  split at fails
  · split at fails
    · split at fails <;> cases fails
      · exact .unexpected _ rest
      · exact .missing (Part.endsAt_cons (by decide) rest)
    · rename_i written
      rw [bind_eq_error_iff] at fails
      obtain fails | ⟨attached, -, fails⟩ := fails
      · exact refuses_of_attach mode (by simpa using written) (ends rfl) fails
      · cases fails
  · split at fails
    · rename_i written
      rw [bind_eq_error_iff] at fails
      obtain fails | ⟨attached, -, fails⟩ := fails
      · exact refuses_of_attach mode (by simpa using written) (ends rfl) fails
      · cases fails
    · split at fails <;> cases fails
      exact .missing (Part.endsAt_cons (by decide) rest)
  · rw [bind_eq_error_iff] at fails
    obtain fails | ⟨ended, -, fails⟩ := fails
    · exact refuses_of_endRelation mode (ends rfl) (Part.endsAt_cons (by decide) rest) fails
    · cases fails
  · exact refuses_of_separator rest (by simp [mode]) failed
  · exact refuses_of_closer rest settled (by simp [mode]) failed
  iterate 3
    cases fails
    exact .unexpected _ rest
  · split at fails <;> cases fails
    exact .unexpected _ rest

theorem refuses_of_endCall {capture : Capture} (rest : List Char)
    (mode : state.mode = .call capture)
    (after : afterBracket? (capture.innermost :: capture.outer) char = some [])
    (failed : state.endCall { capture with text := capture.text.push char } = .error error) :
    state.Refuses options (char :: rest) error := by
  cases target : capture.target with
  | predicate name =>
      simp only [endCall, target, bind_eq_error_iff] at failed
      obtain failed | ⟨condition, -, failed⟩ := failed
      · exact .value rest mode target after failed
      · cases failed
  | group =>
      simp only [endCall, target, bind_eq_error_iff] at failed
      obtain failed | ⟨⟨joining, condition⟩, -, failed⟩ := failed
      · exact .group rest mode target after failed
      · cases failed
  | functions =>
      simp only [endCall, target] at failed
      cases failed

theorem refuses_of_callChar {capture : Capture} (rest : List Char)
    (mode : state.mode = .call capture) (failed : state.act options char = .error error) :
    state.Refuses options (char :: rest) error := by
  simp only [act, mode, callChar] at failed
  split at failed
  · rename_i opens
    split at failed <;> cases failed
    rename_i deep
    exact .deepBracket rest mode opens deep
  · rename_i opens
    split at failed
    · rename_i closes
      split at failed
      · cases failed
        exact .unexpected char rest
      · rename_i matched
        have same : char = capture.innermost := by simpa using matched
        split at failed
        · rename_i outermost
          refine refuses_of_endCall rest mode ?_ failed
          rw [outermost, ← same]
          simp [afterBracket?, opens, closes]
        · cases failed
    · cases failed

/-- A character that is not read is refused. -/
theorem refuses_of_act (rest : List Char) (settled : state.mode = .afterCall → state.token = "")
    (failed : state.act options char = .error error) :
    state.Refuses options (char :: rest) error := by
  cases mode : state.mode with
  | name => exact refuses_of_nameChar rest mode failed
  | value parameter => exact refuses_of_valueChar rest mode failed
  | relations place => exact refuses_of_relationChar rest mode failed
  | call capture => exact refuses_of_callChar rest mode failed
  | afterCall =>
      have fails := failed
      simp only [act, mode, afterCallChar] at fails
      split at fails
      · exact refuses_of_separator rest (by simp [mode]) failed
      · exact refuses_of_closer rest settled (by simp [mode]) failed
      · cases fails
        exact .unexpected _ rest

/-! ### Texts -/

/-- Where the text cannot end, its end is refused. -/
theorem refuses_of_finish (settled : state.mode = .afterCall → state.token = "")
    (failed : state.finish options = .error error) : state.Refuses options [] error := by
  rw [finish, bind_eq_error_iff] at failed
  obtain failed | ⟨ended, ends, failed⟩ := failed
  · cases mode : state.mode with
    | call capture =>
        simp only [endText, mode] at failed
        cases failed
        exact .openCall mode
    | name | value | relations | afterCall =>
        exact refuses_of_endText (by simp [EndsParameter]) (by simp [mode]) failed
  · obtain ⟨notCall, request, made, rfl⟩ := exists_of_endText settled ends
    split at failed <;> cases failed
    rename_i unfinished
    exact .openRelation notCall (by simpa using unfinished)

/-- A run that fails has come to a place where the rest of the text is refused. -/
theorem Traces.exists_refuses_of_run (traces : Traces options seen state)
    (failed : run options state text = .error error) :
    ∃ before after last, seen ++ text = before ++ after ∧ Traces options before last ∧
      last.Refuses options after error := by
  induction text generalizing state seen with
  | nil => cases failed
  | cons char text hypothesis =>
      obtain failed | ⟨_, stepped, failed⟩ := bind_eq_error_iff.mp failed
      · exact ⟨seen, char :: text, state, rfl, traces,
          refuses_of_act text traces.settled (map_eq_error_iff.mp failed)⟩
      · obtain ⟨acted, found, rfl⟩ := map_eq_ok_iff.mp stepped
        rw [List.append_cons]
        exact hypothesis (traces.of_act found) failed

end ScanState

/-- A scan that fails has come to a place where the rest of the text is refused. -/
theorem exists_refuses_of_scan {text : String} (failed : scan options text = .error error) :
    ∃ before after state, text.toList = before ++ after ∧ Traces options before state ∧
      state.Refuses options after error := by
  obtain failed | ⟨last, ran, failed⟩ := bind_eq_error_iff.mp failed
  · exact (Traces.start options).exists_refuses_of_run failed
  · have traces := (Traces.start options).of_run ran
    exact ⟨text.toList, [], last, (List.append_nil _).symm, traces,
      refuses_of_finish traces.settled failed⟩

end QueryGate
