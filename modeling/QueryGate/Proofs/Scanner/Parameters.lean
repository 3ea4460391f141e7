import QueryGate.Proofs.Expression.Text
import QueryGate.Proofs.Scanner.Spelling

/-!
# The texts of parameters

What the text of a parameter does when it is read: a plain value is given to the parameter, and
a call is collected up to its last bracket. The brackets in a call make edits of their own,
which count them.
-/

namespace QueryGate

open Expression (CallText)

namespace Control

/-- The edits count brackets inside the brackets of a call. No more than so many brackets are
open at a time. -/
def Nests (limit : Nat) (edits : List Edit) : Prop :=
  ∀ edit ∈ edits, ∃ depth, 1 < depth ∧ depth ≤ limit ∧ edit = .nest depth

theorem Nests.append {limit : Nat} {before after : List Edit} (first : Nests limit before)
    (later : Nests limit after) : Nests limit (before ++ after) := by
  intro edit member
  obtain inFirst | inLater := List.mem_append.mp member
  · exact first edit inFirst
  · exact later edit inLater

theorem Nests.mono {limit more : Nat} {edits : List Edit} (nests : Nests limit edits)
    (enough : limit ≤ more) : Nests more edits := by
  intro edit member
  obtain ⟨depth, inner, small, rfl⟩ := nests edit member
  exact ⟨depth, inner, by omega, rfl⟩

theorem Nests.nil (limit : Nat) : Nests limit [] := by
  intro edit member
  cases member

/-- In the brackets of a call alone there is nothing to count. -/
theorem Nests.eq_nil {edits : List Edit} (nests : Nests 1 edits) : edits = [] := by
  rw [List.eq_nil_iff_forall_not_mem]
  intro edit member
  obtain ⟨depth, inner, small, -⟩ := nests edit member
  omega

section Calls

variable {depth : Nat} {text : List Char} (cursor : Path) (frames : List Frame)

/-- A text whose brackets match is collected as a whole. -/
theorem exists_runs_collect (balanced : Balanced depth text) (start : Nat) (collected : String)
    (innermost : Char) (outer : List Char) (target : CallTarget) :
    ∃ edits, Nests (outer.length + 1 + depth) edits ∧
      Runs ⟨cursor, "", .call ⟨start, collected, innermost, outer, target⟩, frames⟩ text edits
        ⟨cursor, "", .call ⟨start, collected ++ String.ofList text, innermost, outer, target⟩,
          frames⟩ := by
  induction balanced generalizing collected innermost outer with
  | nil =>
      refine ⟨[], .nil _, ?_⟩
      rw [String.ofList_nil, String.append_empty]
      exact .nil _
  | @plain depth char rest notBracket _ hypothesis =>
      obtain ⟨edits, nests, run⟩ := hypothesis (collected.push char) innermost outer
      rw [append_ofList_cons]
      exact ⟨edits, nests, .cons (.inside cursor _ frames notBracket) run⟩
  | @nest depth opener inner rest opens _ _ innerHypothesis restHypothesis =>
      obtain ⟨innerEdits, innerNests, innerRun⟩ :=
        innerHypothesis (collected.push opener) (closerOf opener) (innermost :: outer)
      obtain ⟨edits, nests, run⟩ := restHypothesis
        ((collected.push opener ++ String.ofList inner).push (closerOf opener)) innermost outer
      have longer : collected ++ String.ofList (opener :: inner ++ closerOf opener :: rest) =
          (collected.push opener ++ String.ofList inner).push (closerOf opener) ++
            String.ofList rest := by
        rw [← String.toList_inj]
        simp
      have opened := Runs.single (.nest cursor
        ⟨start, collected, innermost, outer, target⟩ frames opens)
      have closed := innerRun.snoc (.unnest cursor start _ outer target frames
        (isCloser_closerOf opener))
      have whole := (opened.append closed).append run
      rw [List.length_cons] at innerNests
      refine ⟨[.nest (outer.length + 2)] ++ (innerEdits ++ []) ++ edits, ?_, ?_⟩
      · refine Nests.append (Nests.append ?_ ?_) nests
        · intro edit member
          rw [List.mem_singleton.mp member]
          exact ⟨_, by omega, by omega, rfl⟩
        · rw [List.append_nil]
          exact innerNests.mono (by omega)
      · rw [longer]
        simpa using whole

/-- What is in brackets is collected, and read at its last bracket. -/
theorem exists_runs_bracketed {opened : String} {closer : Char} {target : CallTarget}
    {change : Terms.Change} {inner : List Char} (balanced : Balanced depth inner)
    (closes : isCloser closer = true)
    (reads : target.Reads ((opened ++ String.ofList inner).push closer) change) :
    ∃ edits, Nests (depth + 1) edits ∧
      Runs ⟨cursor, "", .call ⟨0, opened, closer, [], target⟩, frames⟩ (inner ++ [closer])
        (edits ++ [.assign cursor change]) ⟨cursor, "", .afterCall, frames⟩ := by
  obtain ⟨edits, nests, run⟩ :=
    exists_runs_collect cursor frames balanced 0 opened closer [] target
  rw [List.length_nil, Nat.zero_add, Nat.add_comm] at nests
  exact ⟨edits, nests, run.snoc (.read cursor 0 frames closes reads)⟩

/-- A call is collected from its first bracket on, and read at its last one. -/
theorem exists_runs_call {word : String} {target : CallTarget} {change : Terms.Change}
    {inner : List Char} (balanced : Balanced depth inner)
    (reads : target.Reads (String.ofList (called word inner)) change) :
    ∃ edits, Nests (depth + 1) edits ∧
      Runs ⟨cursor, "", .call ⟨0, word.push '(', ')', [], target⟩, frames⟩ (inner ++ [')'])
        (edits ++ [.assign cursor change]) ⟨cursor, "", .afterCall, frames⟩ := by
  have whole : (word.push '(' ++ String.ofList inner).push ')' =
      String.ofList (called word inner) := by
    rw [← String.toList_inj]
    simp [called]
  rw [← whole] at reads
  exact exists_runs_bracketed cursor frames balanced rfl reads

end Calls

/-! ### Whole parameters -/

/-- The name of a parameter and `=` lead to its value. -/
theorem Runs.parameter {name : String} {parameter : Parameter} (named : IsName name)
    (found : Parameter.ofName? name = some parameter) :
    Runs (level [] []) (name.toList ++ ['=']) [] ⟨[], "", .value parameter, []⟩ := by
  have takes : ∀ char ∈ name.toList, Mode.Takes char .name := named.2
  have pushed := Runs.push [] [] "" takes
  rw [String.ofList_toList, String.empty_append] at pushed
  exact pushed.snoc (.parameter [] [] named.1 found)

/-- A text without brackets, `=` and `&` becomes part of a value. -/
theorem takes_value {text : List Char} (plain : IsPlain text) (unseparated : Unseparated text)
    (parameter : Parameter) : ∀ char ∈ text, Mode.Takes char (.value parameter) := by
  intro char member
  exact ⟨plain char member, (unseparated char member).2, (unseparated char member).1⟩

/-- A parameter with a plain value makes the change that it reads. -/
theorem writes_plain {name : String} {parameter : Parameter} {change : Terms.Change}
    {text : List Char} (named : IsName name) (found : Parameter.ofName? name = some parameter)
    (plain : IsPlain text) (unseparated : Unseparated text)
    (reads : parameter.Reads (String.ofList text) change) :
    Writes (name.toList ++ '=' :: text) [.assign [] change] := by
  have pushed := Runs.push [] [] "" (takes_value plain unseparated parameter)
  rw [String.empty_append] at pushed
  have run := (Runs.parameter named found).append pushed
  have writes := Writes.intro run (.value [] reads) rfl
  simpa using writes

/-- A field whose value is the call of an operator, under any word of the operator. -/
theorem exists_writes_operation {name word : String} {operator : Operator}
    {expression : Expression} {depth : Nat} {inner : List Char} (named : IsName name)
    (found : Parameter.ofName? name = some (.predicate name))
    (word? : Operator.ofWord? word = some operator) (balanced : Balanced depth inner)
    (read : readValue 0 (called word inner) = .ok expression) :
    ∃ edits, Nests (depth + 1) edits ∧ Writes (name.toList ++ '=' :: called word inner)
      (edits ++ [.assign [] (.predicate name expression)]) := by
  have reads : (CallTarget.predicate name).Reads (String.ofList (called word inner))
      (.predicate name expression) := .predicate name (by rwa [String.toList_ofList])
  obtain ⟨edits, nests, collected⟩ := exists_runs_call [] [] balanced reads
  have namedWord := Operator.isName_of_ofWord? word?
  have pushed := Runs.push [] [] ""
    (takes_value namedWord.isPlain namedWord.unseparated (.predicate name))
  rw [String.ofList_toList, String.empty_append] at pushed
  have opened := ((Runs.parameter named found).append pushed).snoc (.operator [] name [] word?)
  have writes := Writes.intro (opened.append collected) (.call [] []) rfl
  exact ⟨edits, nests, by simpa [called] using writes⟩

/-- A field whose value is the call of an operator. -/
theorem exists_writes_operator {name : String} {operator : Operator} {expression : Expression}
    {depth : Nat} {text : List Char} (named : IsName name)
    (found : Parameter.ofName? name = some (.predicate name))
    (call : CallText depth operator.word text) (read : readValue 0 text = .ok expression) :
    ∃ edits, Nests depth edits ∧ Writes (name.toList ++ '=' :: text)
      (edits ++ [.assign [] (.predicate name expression)]) := by
  obtain ⟨inner, less, rfl, -, rfl, balanced⟩ := call
  exact exists_writes_operation named found (Operator.ofWord?_word operator) balanced read

/-- A field whose value is a list in square brackets. -/
theorem exists_writes_list {name : String} {expression : Expression} {depth : Nat}
    {inner : List Char} (named : IsName name)
    (found : Parameter.ofName? name = some (.predicate name)) (balanced : Balanced depth inner)
    (read : readValue 0 ('[' :: inner ++ [']']) = .ok expression) :
    ∃ edits, Nests (depth + 1) edits ∧ Writes (name.toList ++ '=' :: ('[' :: inner ++ [']']))
      (edits ++ [.assign [] (.predicate name expression)]) := by
  have reads : (CallTarget.predicate name).Reads (("[" ++ String.ofList inner).push ']')
      (.predicate name expression) := .predicate name (by simpa using read)
  obtain ⟨edits, nests, collected⟩ := exists_runs_bracketed [] [] balanced rfl reads
  have opened := (Runs.parameter named found).snoc (.list [] name [])
  have writes := Writes.intro (opened.append collected) (.call [] []) rfl
  exact ⟨edits, nests, by simpa using writes⟩

/-- A group of conditions under any word of its connective. -/
theorem exists_writes_called {word : String} {joining : Connective} {expression : Expression}
    {depth : Nat} {inner : List Char} (named : IsName word)
    (found : Connective.ofWord? word = some joining) (balanced : Balanced depth inner)
    (read : readGroup 0 (called word inner) = .ok (joining, expression)) :
    ∃ edits, Nests (depth + 1) edits ∧
      Writes (called word inner) (edits ++ [.assign [] (.predicate joining.word expression)]) := by
  have reads : CallTarget.group.Reads (String.ofList (called word inner))
      (.predicate joining.word expression) := .group (by rwa [String.toList_ofList])
  obtain ⟨edits, nests, collected⟩ := exists_runs_call [] [] balanced reads
  have takes : ∀ char ∈ word.toList, Mode.Takes char .name := named.2
  have pushed := Runs.push [] [] "" takes
  rw [String.ofList_toList, String.empty_append] at pushed
  have opened := pushed.snoc (.group [] [] found)
  have writes := Writes.intro (opened.append collected) (.call [] []) rfl
  exact ⟨edits, nests, by simpa [called] using writes⟩

/-- A group of conditions. -/
theorem exists_writes_group {joining : Connective} {expression : Expression} {depth : Nat}
    {text : List Char} (call : CallText depth joining.word text)
    (read : readGroup 0 text = .ok (joining, expression)) :
    ∃ edits, Nests depth edits ∧
      Writes text (edits ++ [.assign [] (.predicate joining.word expression)]) := by
  obtain ⟨inner, less, rfl, -, rfl, balanced⟩ := call
  exact exists_writes_called joining.isName_word (Connective.ofWord?_word joining)
    balanced read

/-! ### Lists of functions -/

/-- A call of a function becomes part of the token. -/
theorem Runs.functionCall {name : String} {inner : List Char} (named : IsName name)
    (plain : IsPlain inner) (token : String) :
    Runs ⟨[], token, .value .functions, []⟩ (called name inner) []
      ⟨[], token ++ String.ofList (called name inner), .value .functions, []⟩ := by
  have pushed := Runs.push [] [] token (takes_value named.isPlain named.unseparated .functions)
  rw [String.ofList_toList] at pushed
  have written : token ++ name ≠ "" := by
    intro empty
    exact named.1 (String.append_eq_empty_iff.mp empty).2
  obtain ⟨edits, nests, collected⟩ := exists_runs_collect [] [] (.of_plain 0 plain) 0
    ((token ++ name).push '(') ')' [] .functions
  cases nests.eq_nil
  have closes : isCloser ')' = true := rfl
  have run := ((pushed.snoc (.function [] [] written)).append collected).snoc
    (.called [] 0 _ [] closes)
  have whole : token ++ String.ofList (called name inner) =
      ((token ++ name).push '(' ++ String.ofList inner).push ')' := by
    rw [← String.toList_inj]
    simp [called]
  rw [whole]
  simpa [called] using run

/-- Texts with commas between them become the token of a value if each of them does. -/
theorem Runs.pieces {parameter : Parameter} {pieces : List (List Char)}
    (each : ∀ piece ∈ pieces, ∀ token, Runs ⟨[], token, .value parameter, []⟩ piece []
      ⟨[], token ++ String.ofList piece, .value parameter, []⟩) (token : String) :
    Runs ⟨[], token, .value parameter, []⟩ (commas pieces) []
      ⟨[], token ++ String.ofList (commas pieces), .value parameter, []⟩ := by
  induction pieces generalizing token with
  | nil =>
      have nothing : commas [] = [] := rfl
      rw [nothing, String.ofList_nil, String.append_empty]
      exact .nil _
  | cons piece rest hypothesis =>
      obtain ⟨first, later⟩ := List.forall_mem_cons.mp each
      have read := first token
      cases rest with
      | nil => rwa [commas_single]
      | cons next rest =>
          have comma : Mode.Takes ',' (.value parameter) := ⟨rfl, by decide, by decide⟩
          have behind := read.snoc (.push [] _ [] comma)
          have run := behind.append (hypothesis later _)
          have whole : token ++ String.ofList (commas (piece :: next :: rest)) =
              (token ++ String.ofList piece).push ',' ++
                String.ofList (commas (next :: rest)) := by
            rw [← String.toList_inj]
            simp
          rw [whole]
          simpa using run

/-- A function becomes part of the token. -/
theorem Runs.function {text : List Char} (shape : FunctionCall.Shape text) (token : String) :
    Runs ⟨[], token, .value .functions, []⟩ text []
      ⟨[], token ++ String.ofList text, .value .functions, []⟩ := by
  cases shape with
  | name whole named =>
      subst whole
      exact Runs.push [] [] token (takes_value named.isPlain named.unseparated .functions)
  | call whole named plain =>
      subst whole
      exact Runs.functionCall named plain token

/-- A text that is read as a list of functions. -/
theorem writes_of_readFunctions {text : List Char} {calls : List FunctionCall}
    (read : readFunctions 0 text = .ok calls) :
    Writes ("functions".toList ++ '=' :: text) [.assign [] (.functions calls)] := by
  have reads : Parameter.functions.Reads (String.ofList text) (.functions calls) :=
    .functions (by rwa [String.toList_ofList])
  rw [readFunctions] at read
  split at read
  · cases read
  · obtain ⟨slices, cut, readAll⟩ := bind_eq_ok_iff.mp read
    have each : ∀ piece ∈ slices.map Slice.text, ∀ token,
        Runs ⟨[], token, .value .functions, []⟩ piece []
          ⟨[], token ++ String.ofList piece, .value .functions, []⟩ := by
      rw [List.forall_mem_map]
      intro slice member
      obtain ⟨call, readCall⟩ := exists_mapM_eq_ok_iff.mp ⟨calls, readAll⟩ slice member
      exact Runs.function (FunctionCall.shape_of_read readCall)
    have collected := Runs.pieces each ""
    rw [← commas_of_arguments cut, String.empty_append] at collected
    have named : IsName "functions" := by decide
    have run := (Runs.parameter named rfl).append collected
    have writes := Writes.intro run (.value [] reads) rfl
    simpa using writes

/-- A list of functions. -/
theorem writes_functions {calls : List FunctionCall} (some : calls ≠ [])
    (writable : ∀ call ∈ calls, call.Writable) :
    Writes ("functions".toList ++ '=' :: commas (calls.map FunctionCall.text))
      [.assign [] (.functions calls)] :=
  writes_of_readFunctions (readFunctions_commas some writable 0)

/-- A list of fields. -/
theorem writes_fields {fields : List String} (some : fields ≠ [])
    (named : ∀ field ∈ fields, IsName field) (distinct : fields.Nodup) :
    Writes ("fields".toList ++ '=' :: commas (fields.map String.toList))
      [.assign [] (.fields fields some)] := by
  have name : IsName "fields" := by decide
  have plain : IsPlain (commas (fields.map String.toList)) :=
    forall_mem_commas rfl (List.forall_mem_map.mpr fun field member =>
      (named field member).isPlain)
  have unseparated : Unseparated (commas (fields.map String.toList)) :=
    unseparated_commas (List.forall_mem_map.mpr fun field member =>
      (named field member).unseparated)
  apply writes_plain name rfl plain unseparated
  refine .fields some ?_
  rw [String.toList_ofList]
  exact readFields_commas some named distinct 0

/-- A clause. -/
theorem writes_clause {text : String} (directive : Clause) (named : IsName text) :
    Writes (directive.name.toList ++ '=' :: text.toList)
      [.assign [] (.clause directive text)] := by
  have name : IsName directive.name := by cases directive <;> decide
  have found : Parameter.ofName? directive.name = some (.clause directive) := by
    cases directive <;> rfl
  apply writes_plain name found named.isPlain named.unseparated
  rw [String.ofList_toList]
  exact .clause directive named.1

/-- A field or a group, with as many brackets open at a time as its text has. -/
theorem exists_writes_entry {depth : Nat} {name : String} {expression : Expression}
    (writable : expression.Writable depth (.entry name)) (free : Reserved.ofName? name = none) :
    ∃ edits, Nests depth edits ∧
      Writes (entryText (Expression.entry (name, expression)))
        (edits ++ [.assign [] (.predicate name expression)]) := by
  cases writable with
  | ofValue named value =>
      obtain ⟨text, notGroup, -⟩ := value.written
      have found : Parameter.ofName? name = some (.predicate name) := by
        rw [Parameter.ofName?, free]
      rw [Expression.entry, notGroup]
      obtain ⟨raw, namedRaw, rfl⟩ | ⟨operator, call⟩ := text.shape
      · refine ⟨[], .nil depth, ?_⟩
        have reads : (Parameter.predicate name).Reads (String.ofList raw.toList)
            (.predicate name (.literal raw)) := by
          rw [String.ofList_toList]
          exact .predicate name raw
        exact writes_plain named found namedRaw.isPlain namedRaw.unseparated reads
      · exact exists_writes_operator named found call (text.read 0)
  | ofGroup group =>
      obtain ⟨text, isGroup⟩ := group.written
      rw [Expression.entry, isGroup]
      exact exists_writes_group text.call (text.read 0)

end Control

end QueryGate
