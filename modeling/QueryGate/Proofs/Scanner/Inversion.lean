import QueryGate.Proofs.Expression.Shallow
import QueryGate.Proofs.Scanner.Spelling

/-!
# Runs taken apart

A run says of its text what the text must be. Characters that a mode takes only lengthen the
token, so that a run over a value can be cut where the first character stands that is not taken.
A call that is ended has its last bracket closed in the text, and was read there. Behind the
call of a field a whole query has nothing more but a further parameter.
-/

namespace QueryGate

namespace Control

variable {cursor : Path} {token : String} {mode : Mode} {frames : List Frame}
  {edits after : List Edit} {last : Control} {char : Char} {front text rest : List Char}

/-- A character that the mode takes only lengthens the token. -/
theorem Step.of_takes (takes : mode.Takes char)
    (step : Step ⟨cursor, token, mode, frames⟩ char edits last) :
    last = ⟨cursor, token.push char, mode, frames⟩ := by
  cases step with
  | push => rfl
  | separate ends => cases ends <;> simp_all [Mode.Takes, isSeparator]
  | leave ends => cases ends <;> simp_all [Mode.Takes, isSeparator, isBracket, isCloser]
  | next ends => simp_all [Mode.Takes, isSeparator]
  | parameter | includes | group | operator | list | function | enter | descend | descendClosed =>
      simp_all [Mode.Takes, isSeparator, isBracket, isOpener]
  | nest | inside | unnest | read | called => exact takes.elim

/-- Characters that the mode takes only lengthen the token. -/
theorem Runs.of_takes (takes : ∀ char ∈ front, mode.Takes char)
    (runs : Runs ⟨cursor, token, mode, frames⟩ (front ++ rest) edits last) :
    ∃ later, Runs ⟨cursor, token ++ String.ofList front, mode, frames⟩ rest later last := by
  induction front generalizing token edits with
  | nil =>
      rw [String.ofList_nil, String.append_empty]
      exact ⟨edits, runs⟩
  | cons char front hypothesis =>
      obtain ⟨first, others⟩ := List.forall_mem_cons.mp takes
      rw [append_ofList_cons]
      cases runs with
      | cons step runs =>
          cases step.of_takes first
          exact hypothesis others runs

/-- Either a mode takes a whole text, or there is a first character that it does not take. -/
theorem exists_untaken (mode : Mode) (text : List Char) :
    (∀ char ∈ text, mode.Takes char) ∨
      ∃ front char rest, text = front ++ char :: rest ∧ (∀ taken ∈ front, mode.Takes taken) ∧
        ¬mode.Takes char := by
  induction text with
  | nil => exact .inl (by simp)
  | cons first text hypothesis =>
      by_cases takes : mode.Takes first
      · obtain each | ⟨front, char, rest, rfl, each, untaken⟩ := hypothesis
        · exact .inl (List.forall_mem_cons.mpr ⟨takes, each⟩)
        · exact .inr ⟨first :: front, char, rest, rfl,
            List.forall_mem_cons.mpr ⟨takes, each⟩, untaken⟩
      · exact .inr ⟨[], first, text, rfl, by simp, takes⟩

/-- The name of a parameter and `=` lead to its value. -/
theorem Runs.of_parameter {name : String} {parameter : Parameter}
    (plain : ∀ char ∈ name.toList, isSeparator char = false)
    (found : Parameter.ofName? name = some parameter)
    (runs : Runs (level cursor frames) (name.toList ++ '=' :: rest) edits last) :
    ∃ later, Runs ⟨cursor, "", .value parameter, frames⟩ rest later last := by
  have takes : ∀ char ∈ name.toList, Mode.Takes char .name := plain
  obtain ⟨later, runs⟩ := Runs.of_takes takes runs
  rw [String.ofList_toList, String.empty_append] at runs
  cases runs with
  | cons step runs =>
      cases step with
      | push _ _ _ takes => cases takes
      | parameter _ _ _ same =>
          rw [found] at same
          cases same
          exact ⟨_, runs⟩
      | includes _ _ absent =>
          rw [found] at absent
          cases absent

/-- What a run of a call leaves behind the call's last bracket. -/
inductive BehindCall (cursor : Path) (frames : List Frame) (target : CallTarget) (text : String)
    (behind : List Char) (last : Control) : Prop where
  /-- The call has been read. -/
  | read {change : Terms.Change} {edits : List Edit} :
      target.Reads text change → Runs ⟨cursor, "", .afterCall, frames⟩ behind edits last →
      BehindCall cursor frames target text behind last
  /-- The call is part of a list of functions, which goes on. -/
  | listed {edits : List Edit} :
      target = .functions → Runs ⟨cursor, text, .value .functions, frames⟩ behind edits last →
      BehindCall cursor frames target text behind last

/-- A call that has been ended has its last bracket closed in the text. -/
theorem Runs.of_call {start : Nat} {collected : String} {innermost : Char} {outer : List Char}
    {target : CallTarget} (ends : Ends last after)
    (runs : Runs ⟨cursor, "", .call ⟨start, collected, innermost, outer, target⟩, frames⟩ text
      edits last) :
    ∃ inside behind, text = inside ++ behind ∧
      unclosed? (innermost :: outer) inside = some [] ∧
      BehindCall cursor frames target (collected ++ String.ofList inside) behind last := by
  induction text generalizing collected innermost outer edits with
  | nil =>
      cases runs
      cases ends
  | cons char rest hypothesis =>
      -- What follows a character that does not end the call is the rest of the call.
      have goesOn : ∀ {next : Char} {others : List Char} {later : List Edit},
          afterBracket? (innermost :: outer) char = some (next :: others) →
          Runs ⟨cursor, "", .call ⟨start, collected.push char, next, others, target⟩, frames⟩
            rest later last →
          ∃ inside behind, char :: rest = inside ++ behind ∧
            unclosed? (innermost :: outer) inside = some [] ∧
            BehindCall cursor frames target (collected ++ String.ofList inside) behind last := by
        intro next others later open? runs
        obtain ⟨inside, behind, rfl, closed, left⟩ := hypothesis runs
        refine ⟨char :: inside, behind, rfl, ?_, ?_⟩
        · rw [unclosed?_cons, open?, Option.bind_some, closed]
        · rwa [append_ofList_cons]
      cases runs with
      | cons step runs =>
          cases step with
          | push _ _ _ takes => exact takes.elim
          | separate ended => cases ended
          | leave ended => cases ended
          | nest _ _ _ opens => exact goesOn (afterBracket?_of_opener opens _) runs
          | inside _ _ _ plain => exact goesOn (afterBracket?_of_plain plain _) runs
          | unnest _ _ _ _ _ _ closes =>
              refine goesOn ?_ runs
              simp [afterBracket?, closes, isOpener_of_isCloser closes]
          | read _ _ _ closes reads =>
              refine ⟨[char], rest, rfl, ?_, ?_⟩
              · simp [unclosed?_cons, afterBracket?, closes, isOpener_of_isCloser closes]
              · rw [append_ofList_cons, String.ofList_nil, String.append_empty]
                exact .read reads runs
          | called _ _ _ _ closes =>
              refine ⟨[char], rest, rfl, ?_, ?_⟩
              · simp [unclosed?_cons, afterBracket?, closes, isOpener_of_isCloser closes]
              · rw [append_ofList_cons, String.ofList_nil, String.append_empty]
                exact .listed rfl runs

/-- Outside all relations a call is the end of the text, or a separator stands behind it. -/
theorem Runs.of_afterCall (runs : Runs ⟨cursor, "", .afterCall, []⟩ text edits last) :
    text = [] ∨ ∃ rest, text = '&' :: rest := by
  cases runs with
  | nil => exact .inl rfl
  | cons step _ =>
      cases step with
      | push _ _ _ takes => exact takes.elim
      | separate => exact .inr ⟨_, rfl⟩

end Control

end QueryGate
