import QueryGate.Proofs.Checked.Basic
import QueryGate.Proofs.Expression.Brackets
import QueryGate.Query.Expression.Reader

/-!
# Brackets and commas by index

What stands between brackets and between commas is a slice of a text. Its ends are indices that
have been counted on the way through the text, and the number of open brackets is counted up and
down. A slice is in order because a bracket is closed behind the place where it was opened, and
because pieces are cut at the place that has been reached or at the end.
-/

namespace QueryGate

namespace Checked

/-- The index of the bracket that closes the last of the open ones. `closers` closes these from
the inside out, and the rest of the text is at `index`. -/
def closeFrom (position : Nat) (closers : List Char) (index : Nat) :
    List Char → Except QueryError Nat
  | [] => .error (.unclosed (position + index) (closers.head?.getD ')'))
  | char :: rest =>
      if isOpener char then closeFrom position (closerOf char :: closers) (index + 1) rest
      else if isCloser char then
        match closers with
        | [] => .error (.unexpected (position + index) char)
        | innermost :: outer =>
            if char ≠ innermost then .error (.unexpected (position + index) char)
            else if outer.isEmpty then .ok index
            else closeFrom position outer (index + 1) rest
      else closeFrom position closers (index + 1) rest

/-- The text between the opener at an index and its closer, behind which nothing may stand. -/
def enclosed (position : Nat) (chars : List Char) (opener : Nat) :
    Checked QueryError (List Char) := do
  let close ← of (closeFrom position [] opener (chars.drop opener))
  match chars[close + 1]? with
  | some char => throw (.unexpected (position + close + 1) char)
  | none => slice chars (opener + 1) close

/-- Cuts a text at its commas outside brackets, from an index on. `slices` have been cut already,
`depth` brackets are open, and the current piece begins at `start`. -/
def argumentsFrom (part : Part) (position : Nat) (chars : List Char) (slices : List Slice)
    (depth start index : Nat) : List Char → Checked QueryError (List Slice)
  | [] =>
      if start = chars.length then throw (.empty (position + start) part)
      else do
        let text ← slice chars start chars.length
        return slices ++ [⟨position + start, text⟩]
  | char :: rest =>
      if isOpener char then
        argumentsFrom part position chars slices (depth + 1) start (index + 1) rest
      else if isCloser char then
        if depth = 0 then throw (.unexpected (position + index) char)
        else do
          let depth ← decrement depth
          argumentsFrom part position chars slices depth start (index + 1) rest
      else if char = ',' ∧ depth = 0 then
        if index = start then throw (.empty (position + index) part)
        else do
          let text ← slice chars start index
          argumentsFrom part position chars (slices ++ [⟨position + start, text⟩]) depth
            (index + 1) (index + 1) rest
      else argumentsFrom part position chars slices depth start (index + 1) rest

/-- The non-empty pieces of a text between its commas outside brackets. -/
def arguments (part : Part) (position : Nat) (chars : List Char) :
    Checked QueryError (List Slice) :=
  argumentsFrom part position chars [] 0 0 0 chars

/-- Rejects the first character that satisfies a test. -/
def reject (test : Char → Bool) (position : Nat) (chars : List Char) : Checked QueryError Unit :=
  match chars.findIdx? test with
  | some index => do throw (.unexpected (position + index) (← item chars index))
  | none => return ()

/-- Reads a literal. -/
def readLiteral (position : Nat) (chars : List Char) : Checked QueryError String := do
  reject isBracket position chars
  return String.ofList chars

/-- Reads the name of a field, a relation or a function. -/
def readName (position : Nat) (chars : List Char) : Checked QueryError String :=
  if chars.isEmpty then throw (.empty position .name)
  else do
    reject isSeparator position chars
    return String.ofList chars

/-! ### Brackets -/

/-- The closer stands behind the text up to it. -/
theorem closeFrom_eq (position index : Nat) (innermost : Char) (outer text : List Char) :
    closeFrom position (innermost :: outer) index text =
      (untilClosed innermost outer (position + index) text).map fun pair =>
        index + pair.1.length := by
  induction text generalizing innermost outer index with
  | nil => rfl
  | cons char rest hypothesis =>
      -- In front of the last closer a character puts it off by one.
      have goesOn : ∀ innermost outer, closeFrom position (innermost :: outer) (index + 1) rest =
          ((untilClosed innermost outer (position + index + 1) rest).map (consFirst char)).map
            fun pair => index + pair.1.length := by
        intro innermost outer
        rw [hypothesis, Nat.add_assoc]
        cases untilClosed innermost outer (position + (index + 1)) rest with
        | error fault => rfl
        | ok pair =>
            simp only [Except.map, consFirst, List.length_cons]
            congr 1
            omega
      rw [closeFrom]
      unfold untilClosed
      split
      · exact goesOn _ _
      · split
        · split
          · rfl
          · cases outer with
            | nil => rfl
            | cons next outer => exact goesOn next outer
        · exact goesOn _ _

/-- What is enclosed from an opener on is a slice of the text. -/
theorem enclosed_eq_of {opener : Char} (opens : isOpener opener = true) (position : Nat)
    (word rest : List Char) :
    enclosed position (word ++ opener :: rest) word.length =
      of (QueryGate.enclosed opener (position + word.length + 1) rest) := by
  have close : closeFrom position [] word.length (opener :: rest) =
      (untilClosed (closerOf opener) [] (position + word.length + 1) rest).map fun pair =>
        word.length + 1 + pair.1.length := by
    rw [closeFrom, if_pos opens, closeFrom_eq, Nat.add_assoc position]
  rw [enclosed, QueryGate.enclosed, List.drop_left, close]
  cases found : untilClosed (closerOf opener) [] (position + word.length + 1) rest with
  | error fault => rfl
  | ok pair =>
      obtain ⟨inner, after⟩ := pair
      obtain ⟨last, rfl, -⟩ := closes_of_untilClosed found
      have whole : word ++ opener :: (inner ++ last :: after) =
          (word ++ [opener]) ++ inner ++ last :: after := by simp
      have length : word.length + 1 + inner.length + 1 =
          ((word ++ [opener]) ++ inner ++ [last]).length := by simp; omega
      have behind :
          (word ++ opener :: (inner ++ last :: after))[word.length + 1 + inner.length + 1]? =
            after.head? := by
        rw [whole, length]
        cases after <;> simp
      simp only [Except.map, ok_bind, behind]
      cases after with
      | nil =>
          rw [whole, ← List.length_singleton (a := opener), ← List.length_append]
          exact slice_append (word ++ [opener]) inner [last]
      | cons char others =>
          have place : position + (word.length + 1 + inner.length) + 1 =
              position + word.length + 1 + inner.length + 1 := by omega
          exact congrArg (fun place => of (.error (QueryError.unexpected place char))) place

/-! ### Commas -/

/-- All pieces of a text: those cut already, then the one that begins at `start`, with what has been
passed of it and what is left of it, then the later ones. -/
def pieces (slices : List Slice) (start : Nat) (passed : List Char)
    (cut : List Char × List Slice) : List Slice :=
  slices ++ ⟨start, passed ++ cut.1⟩ :: cut.2

/-- A character can be put behind what has been passed or in front of what is left. -/
theorem map_pieces_consFirst (slices : List Slice) (start : Nat) (passed : List Char) (char : Char)
    (result : Except QueryError (List Char × List Slice)) :
    (result.map (consFirst char)).map (pieces slices start passed) =
      result.map (pieces slices start (passed ++ [char])) := by
  cases result with
  | error fault => rfl
  | ok cut => simp [Except.map, pieces, consFirst]

/-- At a comma nothing is left of a piece, and it becomes the last of those cut already. -/
theorem map_pieces_comma (slices : List Slice) (start place : Nat) (passed : List Char)
    (result : Except QueryError (List Char × List Slice)) :
    (result.map fun (text, later) => ([], ⟨place, text⟩ :: later)).map
        (pieces slices start passed) =
      result.map (pieces (slices ++ [⟨start, passed⟩]) place []) := by
  cases result with
  | error fault => rfl
  | ok cut => simp [Except.map, pieces]

/-- From a place in a text on, the pieces are cut that are left of it. -/
theorem argumentsFrom_eq_of (part : Part) (position : Nat) (before rest : List Char)
    (slices : List Slice) (depth start : Nat) (begun : start ≤ before.length) :
    argumentsFrom part position (before ++ rest) slices depth start before.length rest =
      of ((cutCommas part depth (start = before.length) (position + before.length) rest).map
        (pieces slices (position + start) (before.drop start))) := by
  induction rest generalizing before slices depth start with
  | nil =>
      have piece : (slice before start before.length : Checked QueryError (List Char)) =
          of (.ok (before.drop start)) := by
        simpa using slice_of_le before [] begun
      rw [argumentsFrom, cutCommas, List.append_nil]
      by_cases fresh : start = before.length
      · simp [fresh, throw_eq_of, Except.map]
      · simp [fresh, piece, ok_bind, pure_eq_of, Except.map, pieces]
  | cons char rest hypothesis =>
      have passed := fun slices depth start begun =>
        hypothesis (before ++ [char]) slices depth start begun
      simp only [List.append_assoc, List.singleton_append, List.length_append,
        List.length_singleton, ← Nat.add_assoc position] at passed
      -- A character that does not end the current piece is the next one of it.
      have goesOn : ∀ deeper,
          argumentsFrom part position (before ++ char :: rest) slices deeper start
            (before.length + 1) rest =
          of (((cutCommas part deeper false (position + before.length + 1) rest).map
            (consFirst char)).map (pieces slices (position + start) (before.drop start))) := by
        intro deeper
        have notFresh : start ≠ before.length + 1 := by omega
        rw [passed slices deeper start (by omega), map_pieces_consFirst,
          List.drop_append_of_le_length begun]
        simp only [notFresh, decide_false]
      rw [argumentsFrom]
      unfold cutCommas
      split
      · exact goesOn _
      · split
        · cases depth with
          | zero => rfl
          | succ depth =>
              rw [if_neg (Nat.succ_ne_zero depth), decrement_succ, ok_bind]
              exact goesOn _
        · split
          · rename_i comma
            obtain ⟨rfl, rfl⟩ := comma
            by_cases fresh : start = before.length
            · simp [fresh, throw_eq_of, Except.map]
            · rw [if_neg (Ne.symm fresh), slice_of_le before _ begun, ok_bind,
                passed _ 0 (before.length + 1) (Nat.le_refl _)]
              simp [fresh, map_pieces_comma, Nat.add_assoc]
          · exact goesOn _

/-- The arguments of a text are slices of it. -/
theorem arguments_eq_of (part : Part) (position : Nat) (chars : List Char) :
    arguments part position chars = of (QueryGate.arguments part position chars) :=
  argumentsFrom_eq_of part position [] chars [] 0 0 (Nat.le_refl 0)

/-! ### Characters that are rejected -/

theorem reject_eq_of (test : Char → Bool) (position : Nat) (chars : List Char) :
    reject test position chars =
      of (match firstMatch? test position chars with
        | some (place, found) => .error (.unexpected place found)
        | none => .ok ()) := by
  induction chars generalizing position with
  | nil => rfl
  | cons char rest hypothesis =>
      rw [firstMatch?, reject, List.findIdx?_cons]
      by_cases rejected : test char = true
      · simp only [rejected, if_true]
        rfl
      · simp only [rejected, Bool.false_eq_true, if_false]
        rw [← hypothesis, reject]
        cases rest.findIdx? test with
        | none => rfl
        | some index =>
            have place : position + (index + 1) = position + 1 + index := by omega
            simp only [Option.map_some, place]
            rfl

theorem readLiteral_eq_of (position : Nat) (chars : List Char) :
    readLiteral position chars = of (QueryGate.readLiteral position chars) := by
  rw [readLiteral, reject_eq_of, QueryGate.readLiteral]
  cases firstMatch? isBracket position chars <;> rfl

theorem readName_eq_of (position : Nat) (chars : List Char) :
    readName position chars = of (QueryGate.readName position chars) := by
  rw [readName, reject_eq_of, QueryGate.readName]
  split
  · rfl
  · cases firstMatch? isSeparator position chars <;> rfl

end Checked

end QueryGate
