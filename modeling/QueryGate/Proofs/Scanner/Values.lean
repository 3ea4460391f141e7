import Mathlib
import QueryGate.Proofs.Arena.Scanned
import QueryGate.Proofs.Scanner.Groups
import QueryGate.Proofs.Scanner.Inversion

/-!
# Values that are scanned and read

The scanner decides from the token so far whether a value is a literal, a list or a call, and
where that ends; the reader of values decides it from the whole text. Both agree on every text
that can stand as one value. A literal is never given to the reader when it is scanned: it is
the token that is left. A list of functions is scanned call by call, and each call becomes the
token again, so that what is read at the end is the whole list.
-/

namespace QueryGate

open Control

/-- A request without relations is known from what it says at its root. -/
theorem Request.eq_of_unnumbered {request : Request} {name : String} {terms : Terms}
    (number : request.number = 0) (same : request.unnumbered = ⟨0, name, terms, []⟩) :
    request = ⟨0, name, terms, []⟩ := by
  cases request with
  | mk number name terms includes =>
      cases number
      cases includes <;> simp_all [Request.unnumbered, Request.unnumberedAll]

/-- A text that makes one change is scanned into the request that has nothing else. -/
theorem scan_of_change {options : ScanOptions} {text : String} {edits : List Edit}
    {change : Terms.Change} (nests : Nests options.maxDepth edits)
    (writes : Writes text.toList (edits ++ [.assign [] change])) :
    scan options text = .ok ⟨0, Request.rootName, change.apply {}, []⟩ := by
  have turns := nests.turns_assign 0 (.blank 0 Request.rootName) change
  obtain ⟨request, scanned, same⟩ := exists_scan_of_turns writes turns (Nat.zero_le _)
  rw [scanned, Request.eq_of_unnumbered (number_of_scan scanned) same]
  rfl

section Reading

variable {name : String} {text : List Char} {expression : Expression}

theorem readValue_of_isPlain (plain : IsPlain text) (position : Nat) :
    readValue position text = .ok (.literal (String.ofList text)) := by
  have notList : ∀ rest, text = '[' :: rest → False := by
    rintro rest rfl
    have bracket := plain '[' List.mem_cons_self
    cases bracket
  rw [readValue_eq notList, Call.read_none plain]
  exact congrArg (Except.map Expression.literal) (readLiteral_of_isPlain plain position)

/-- A value is a literal, a list in square brackets, or the call of an operator. -/
inductive ValueShape (text : List Char) (expression : Expression) : Prop where
  | literal : IsPlain text → expression = .literal (String.ofList text) →
      ValueShape text expression
  | list {inner : List Char} {depth : Nat} : text = '[' :: inner ++ [']'] → Balanced depth inner →
      ValueShape text expression
  | call {word : String} {operator : Operator} {inner : List Char} {depth : Nat} :
      text = called word inner → Operator.ofWord? word = some operator → Balanced depth inner →
      ValueShape text expression

theorem shape_of_readValue {position : Nat} (read : readValue position text = .ok expression) :
    ValueShape text expression := by
  by_cases isList : ∃ rest, text = '[' :: rest
  · obtain ⟨rest, rfl⟩ := isList
    simp only [readValue, bind_eq_ok_iff] at read
    obtain ⟨inner, closed, -⟩ := read
    obtain ⟨rfl, depth, balanced⟩ := balanced_of_enclosed closed
    exact .list rfl balanced
  · have notList : ∀ rest, text = '[' :: rest → False := fun rest same => isList ⟨rest, same⟩
    rw [readValue_eq notList, bind_eq_ok_iff] at read
    obtain ⟨call?, found, read⟩ := read
    cases call? with
    | none =>
        obtain ⟨raw, readRaw, rfl⟩ := map_eq_ok_iff.mp read
        obtain ⟨plain, rfl⟩ := readLiteral_eq_ok_iff.mp readRaw
        exact .literal plain rfl
    | some call =>
        obtain ⟨word, rfl, word?, -, depth, balanced⟩ := Call.called_of_read found
        exact .call rfl word? balanced

/-- A text that is read as a value is one behind a field's name, too. -/
theorem exists_writes_of_readValue {limit : Nat} (named : IsName name)
    (found : Parameter.ofName? name = some (.predicate name)) (inside : MarksInside text)
    (shallow : Shallow limit text) (read : readValue 0 text = .ok expression) :
    ∃ edits, Nests limit edits ∧ Writes (name.toList ++ '=' :: text)
      (edits ++ [.assign [] (.predicate name expression)]) := by
  cases shape_of_readValue read with
  | literal plain same =>
      subst same
      have unseparated : Unseparated text := by
        intro char member
        obtain ⟨front, rest, rfl⟩ := List.append_of_mem member
        have plainFront : IsPlain front := plain.of_subset (List.subset_append_left _ _)
        exact inside.not_mark (plainFront.unclosed? []) rfl
      exact ⟨[], .nil limit, writes_plain named found plain unseparated (.predicate name _)⟩
  | list whole balanced =>
      subst whole
      obtain ⟨less, rfl, shallowInner⟩ := shallow.exists_of_opener rfl
      exact exists_writes_list named found (balanced.of_shallow shallowInner) read
  | @call word operator inner depth whole word? balanced =>
      subst whole
      have even := (Balanced.of_plain 0 (Operator.isPlain_of_ofWord? word?)).countP_eq
      rw [called, List.append_assoc] at shallow
      obtain ⟨less, rfl, shallowInner⟩ := (shallow.of_append even).exists_of_opener rfl
      exact exists_writes_operation named found word? (balanced.of_shallow shallowInner) read

end Reading

/-- A call that is a field's value is the whole of it, and was read. -/
theorem Control.Runs.read_of_call {cursor : Path} {edits after : List Edit} {last : Control}
    {opened : String} {closer : Char} {name : String} {rest : List Char} (ends : Ends last after)
    (runs : Runs ⟨cursor, "", .call ⟨0, opened, closer, [], .predicate name⟩, []⟩ rest edits last)
    (waiting : unclosed? [] opened.toList = some [closer])
    (inside : MarksInside (opened.toList ++ rest)) :
    ∃ expression, readValue 0 (opened.toList ++ rest) = .ok expression := by
  obtain ⟨inner, behind, rfl, closed, left⟩ := runs.of_call ends
  cases left with
  | listed other => cases other
  | read reads runs =>
      cases reads with
      | predicate _ read =>
          obtain rfl | ⟨rest, rfl⟩ := runs.of_afterCall
          · exact ⟨_, by simpa using read⟩
          · -- Outside all relations a `&` stands behind the call, and so in none of its brackets.
            have balanced : unclosed? [] (opened.toList ++ inner) = some [] := by
              rw [unclosed?_append, waiting, Option.bind_some, closed]
            rw [← List.append_assoc] at inside
            exact absurd rfl (inside.not_mark balanced rfl).1

/-- The value of a field that is scanned is read by itself. -/
theorem exists_readValue_of_writes {name : String} {text : List Char} {edits : List Edit}
    (named : IsName name) (found : Parameter.ofName? name = some (.predicate name))
    (inside : MarksInside text) (writes : Writes (name.toList ++ '=' :: text) edits) :
    ∃ expression, readValue 0 text = .ok expression := by
  obtain ⟨runs, ends, outermost⟩ := writes
  obtain ⟨later, runs⟩ := Runs.of_parameter named.2 found runs
  obtain each | ⟨front, char, rest, rfl, each, untaken⟩ :=
    exists_untaken (.value (.predicate name)) text
  · exact ⟨_, readValue_of_isPlain (fun char member => (each char member).1) 0⟩
  · obtain ⟨behind, goesOn⟩ := Runs.of_takes each runs
    have plain : IsPlain front := fun char member => (each char member).1
    have notMark := inside.not_mark (plain.unclosed? []) rfl
    generalize token? : "" ++ String.ofList front = token at goesOn
    have written : front = token.toList := by simp [← token?]
    subst written
    cases goesOn with
    | cons step runs =>
        cases step with
        | push _ _ _ takes => exact absurd takes untaken
        | separate => exact absurd rfl notMark.1
        | operator _ _ _ word? =>
            have waiting : unclosed? [] (token.push '(').toList = some [')'] := by
              rw [String.toList_push, unclosed?_append, plain.unclosed?]
              rfl
            have whole : token.toList ++ '(' :: rest = (token.push '(').toList ++ rest := by simp
            rw [whole] at inside ⊢
            exact runs.read_of_call ends waiting inside
        | list =>
            have waiting : unclosed? [] "[".toList = some [']'] := rfl
            have whole : "".toList ++ '[' :: rest = "[".toList ++ rest := rfl
            rw [whole] at inside ⊢
            exact runs.read_of_call ends waiting inside

/-- A query that gives one field a value is accepted exactly if the value is read by itself, and
then it says of the field what has been read and nothing else. Any text that can stand as one
value will do, well-formed or not, if no more brackets of it are open than the options allow. -/
theorem scan_field {options : ScanOptions} {name value : String} (named : IsName name)
    (free : Reserved.ofName? name = none) (inside : MarksInside value.toList)
    (shallow : Shallow options.maxDepth value.toList) :
    ((∃ request, scan options (name ++ "=" ++ value) = .ok request) ↔
        ∃ expression, readValue 0 value.toList = .ok expression) ∧
      ∀ expression, readValue 0 value.toList = .ok expression →
        scan options (name ++ "=" ++ value) = .ok (.ofPredicates [(name, expression)]) := by
  have found : Parameter.ofName? name = some (.predicate name) := by
    rw [Parameter.ofName?, free]
  have text : (name ++ "=" ++ value).toList = name.toList ++ '=' :: value.toList := by simp
  have accepted : ∀ expression, readValue 0 value.toList = .ok expression →
      scan options (name ++ "=" ++ value) = .ok (.ofPredicates [(name, expression)]) := by
    intro expression read
    obtain ⟨edits, nests, writes⟩ := exists_writes_of_readValue named found inside shallow read
    rw [← text] at writes
    exact scan_of_change nests writes
  refine ⟨⟨?_, ?_⟩, accepted⟩
  · rintro ⟨request, scanned⟩
    obtain ⟨edits, writes⟩ := exists_writes_of_scan scanned
    rw [text] at writes
    exact exists_readValue_of_writes named found inside writes
  · rintro ⟨expression, read⟩
    exact ⟨_, accepted expression read⟩

/-- Two alternatives, with a `&` and a `=` in the brackets of one, fill the limit of two open
brackets; the same text with the wrong closer is neither a value nor a query. -/
theorem scan_field_alternatives :
    scan ⟨.reject, 2⟩ "title=|(like(a=b&c),in(x,y))" =
        .ok (.ofPredicates [("title", .or [.like "a=b&c", .oneOf ["x", "y"]])]) ∧
      ¬∃ request, scan ⟨.reject, 2⟩ "title=|(like(a=b&c],in(x,y))" = .ok request := by
  have named : IsName "title" := by decide
  constructor
  · have inside : MarksInside "|(like(a=b&c),in(x,y))".toList := by decide
    have shallow : Shallow 2 "|(like(a=b&c),in(x,y))".toList := by decide
    exact (scan_field named rfl inside shallow).2 _ (by cbv)
  · have inside : MarksInside "|(like(a=b&c],in(x,y))".toList := by decide
    have shallow : Shallow 2 "|(like(a=b&c],in(x,y))".toList := by decide
    intro accepted
    obtain ⟨expression, read⟩ := (scan_field named rfl inside shallow).1.mp accepted
    have fault : readValue 0 "|(like(a=b&c],in(x,y))".toList = .error (.unexpected 12 ']') := by
      cbv
    rw [fault] at read
    cases read

/-! ### Lists of functions -/

/-- Where a list of functions can be ended, the token is all that has been scanned of it. -/
theorem Control.Runs.eq_of_functions {cursor : Path} {token : String} {edits after : List Edit}
    {last : Control} {text : List Char} (ends : Ends last after)
    (runs : Runs ⟨cursor, token, .value .functions, []⟩ text edits last)
    (closed : unclosed? [] token.toList = some []) (inside : MarksInside (token.toList ++ text)) :
    last = ⟨cursor, token ++ String.ofList text, .value .functions, []⟩ := by
  obtain each | ⟨front, char, rest, rfl, each, untaken⟩ := exists_untaken (.value .functions) text
  · rw [← List.append_nil text] at runs
    obtain ⟨later, stays⟩ := Runs.of_takes each runs
    cases stays
    rfl
  · obtain ⟨later, goesOn⟩ := Runs.of_takes each runs
    have plain : IsPlain front := fun char member => (each char member).1
    have closedFront : unclosed? [] (token.toList ++ front) = some [] := by
      rw [unclosed?_append, closed, Option.bind_some, plain.unclosed?]
    have notMark := inside.not_mark closedFront (List.append_assoc _ _ _).symm
    generalize collected : token ++ String.ofList front = name at goesOn
    cases goesOn with
    | cons step goesOn =>
        cases step with
        | push _ _ _ takes => exact absurd takes untaken
        | separate => exact absurd rfl notMark.1
        | function =>
            obtain ⟨inner, behind, rfl, closedCall, left⟩ := goesOn.of_call ends
            cases left with
            | read reads => cases reads
            | listed _ goesOn =>
                -- Behind the call the list goes on with a longer token.
                have called : (name.push '(' ++ String.ofList inner).toList =
                    token.toList ++ front ++ '(' :: inner := by
                  simp [← collected]
                have closedLonger :
                    unclosed? [] (name.push '(' ++ String.ofList inner).toList = some [] := by
                  rw [called, unclosed?_append, closedFront]
                  exact closedCall
                have insideLonger :
                    MarksInside ((name.push '(' ++ String.ofList inner).toList ++ behind) := by
                  rw [called]
                  simpa using inside
                have whole : name.push '(' ++ String.ofList inner ++ String.ofList behind =
                    token ++ String.ofList (front ++ '(' :: (inner ++ behind)) := by
                  rw [← String.toList_inj]
                  simp [← collected]
                rw [← whole]
                exact goesOn.eq_of_functions ends closedLonger insideLonger
termination_by text.length
decreasing_by
  subst_vars
  simp only [List.length_append, List.length_cons]
  omega

theorem exists_readFunctions_of_writes {text : List Char} {edits : List Edit}
    (inside : MarksInside text) (writes : Writes ("functions".toList ++ '=' :: text) edits) :
    ∃ calls, readFunctions 0 text = .ok calls := by
  obtain ⟨runs, ends, outermost⟩ := writes
  have named : IsName "functions" := by decide
  obtain ⟨later, runs⟩ := Runs.of_parameter named.2 rfl runs
  have stays := runs.eq_of_functions ends rfl inside
  rw [String.empty_append] at stays
  subst stays
  generalize written : String.ofList text = token at ends
  cases ends with
  | value _ reads =>
      cases reads with
      | functions read => exact ⟨_, by rwa [← written, String.toList_ofList] at read⟩

/-- A query that gives a list of functions is accepted exactly if the list is read by itself, and
then it asks for the functions that have been read, in their order, and says nothing else. The
options have no part in it, as no function's call has brackets inside its own. -/
theorem scan_functions {options : ScanOptions} {text : String} (inside : MarksInside text.toList) :
    ((∃ request, scan options ("functions=" ++ text) = .ok request) ↔
        ∃ calls, readFunctions 0 text.toList = .ok calls) ∧
      ∀ calls, readFunctions 0 text.toList = .ok calls →
        scan options ("functions=" ++ text) =
          .ok ⟨0, Request.rootName, { functions := calls }, []⟩ := by
  have split : ("functions=" ++ text).toList = "functions".toList ++ '=' :: text.toList := by
    simp
  have accepted : ∀ calls, readFunctions 0 text.toList = .ok calls →
      scan options ("functions=" ++ text) =
        .ok ⟨0, Request.rootName, { functions := calls }, []⟩ := by
    intro calls read
    have writes := writes_of_readFunctions read
    rw [← split] at writes
    exact scan_of_change (.nil options.maxDepth) writes
  refine ⟨⟨?_, ?_⟩, accepted⟩
  · rintro ⟨request, scanned⟩
    obtain ⟨edits, writes⟩ := exists_writes_of_scan scanned
    rw [split] at writes
    exact exists_readFunctions_of_writes inside writes
  · rintro ⟨calls, read⟩
    exact ⟨_, accepted calls read⟩

/-- Calls and a bare name in between; a call with nothing in front of it is refused. -/
theorem scan_functions_mixed :
    scan {} "functions=count(),total,sum(price,tax)" =
        .ok ⟨0, Request.rootName,
          { functions := [⟨"count", []⟩, ⟨"total", []⟩, ⟨"sum", ["price", "tax"]⟩] }, []⟩ ∧
      ¬∃ request, scan {} "functions=count(),(price)" = .ok request := by
  constructor
  · have inside : MarksInside "count(),total,sum(price,tax)".toList := by decide
    exact (scan_functions inside).2 _ (by cbv)
  · have inside : MarksInside "count(),(price)".toList := by decide
    intro accepted
    obtain ⟨calls, read⟩ := (scan_functions inside).1.mp accepted
    have fault : readFunctions 0 "count(),(price)".toList = .error (.empty 8 .functionName) := by
      cbv
    rw [fault] at read
    cases read

end QueryGate
