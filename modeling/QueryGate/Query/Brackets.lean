import QueryGate.Query.Error

/-!
# Brackets and the texts between them

Query text knows two kinds of brackets, parentheses and square brackets. This
module finds the bracket that closes an open one, and cuts a text at the commas
that stand outside all brackets. Both report the first offence in reading order.
-/

namespace QueryGate

/-- Whether a character opens a bracket. -/
def isOpener (char : Char) : Bool := char == '(' || char == '['

/-- Whether a character closes a bracket. -/
def isCloser (char : Char) : Bool := char == ')' || char == ']'

/-- Whether a character is a bracket. -/
def isBracket (char : Char) : Bool := isOpener char || isCloser char

/-- The character that closes the bracket opened by the given one. -/
def closerOf (opener : Char) : Char := if opener = '[' then ']' else ')'

/-- A character in front of the first of two texts. -/
def consFirst {α : Type} (char : Char) (pair : List Char × α) : List Char × α :=
  (char :: pair.1, pair.2)

/-- The text up to the closer of the outermost open bracket, and the text after
it. `innermost` closes the innermost open bracket and `outer` the ones around it;
the text stands at `position`. -/
def untilClosed (innermost : Char) (outer : List Char) (position : Nat) :
    List Char → Except QueryError (List Char × List Char)
  | [] => .error (.unclosed position innermost)
  | char :: rest =>
      if isOpener char then
        (untilClosed (closerOf char) (innermost :: outer) (position + 1) rest).map (consFirst char)
      else if isCloser char then
        if char ≠ innermost then .error (.unexpected position char)
        else
          match outer with
          | [] => .ok ([], rest)
          | next :: outer => (untilClosed next outer (position + 1) rest).map (consFirst char)
      else (untilClosed innermost outer (position + 1) rest).map (consFirst char)

/-- The text between an opener, which stands just before `position`, and its
closer, which has to be the last character. -/
def enclosed (opener : Char) (position : Nat) (text : List Char) :
    Except QueryError (List Char) := do
  let (inner, after) ← untilClosed (closerOf opener) [] position text
  match after with
  | [] => .ok inner
  | char :: _ => .error (.unexpected (position + inner.length + 1) char)

/-- A part of a text and where it stands. -/
structure Slice where
  position : Nat
  text : List Char
  deriving DecidableEq, Repr

/-- Cuts a text that stands at `position` at its commas outside brackets. The
first result is the text up to the first such comma, the second holds a slice for
each comma. `depth` counts the open brackets of either kind, and `fresh` says that
the current piece is still empty; no piece may stay so. -/
def cutCommas (part : Part) (depth : Nat) (fresh : Bool) (position : Nat) :
    List Char → Except QueryError (List Char × List Slice)
  | [] => if fresh then .error (.empty position part) else .ok ([], [])
  | char :: rest =>
      if isOpener char then
        (cutCommas part (depth + 1) false (position + 1) rest).map (consFirst char)
      else if isCloser char then
        match depth with
        | 0 => .error (.unexpected position char)
        | depth + 1 => (cutCommas part depth false (position + 1) rest).map (consFirst char)
      else if char = ',' ∧ depth = 0 then
        if fresh then .error (.empty position part)
        else (cutCommas part 0 true (position + 1) rest).map fun (text, later) =>
          ([], ⟨position + 1, text⟩ :: later)
      else (cutCommas part depth false (position + 1) rest).map (consFirst char)

/-- The non-empty pieces of a text between its commas outside brackets. -/
def arguments (part : Part) (position : Nat) (text : List Char) :
    Except QueryError (List Slice) :=
  (cutCommas part 0 true position text).map fun (first, later) => ⟨position, first⟩ :: later

/-- The joint length of slices, each with the separator after it. -/
def Slice.totalLength : List Slice → Nat
  | [] => 0
  | slice :: rest => slice.text.length + 1 + totalLength rest

@[simp] theorem Slice.totalLength_nil : Slice.totalLength [] = 0 := rfl

@[simp] theorem Slice.totalLength_cons (slice : Slice) (rest : List Slice) :
    Slice.totalLength (slice :: rest) = slice.text.length + 1 + Slice.totalLength rest := rfl

theorem Slice.length_lt_totalLength {slices : List Slice} {slice : Slice}
    (member : slice ∈ slices) : slice.text.length < Slice.totalLength slices := by
  induction slices with
  | nil => cases member
  | cons first rest hypothesis =>
      rw [Slice.totalLength_cons]
      rcases List.mem_cons.mp member with rfl | member
      · omega
      · have shorter := hypothesis member
        omega

/-- A mapped result is a success exactly when the result is. -/
theorem map_eq_ok_iff {ε α β : Type} {image : α → β} {result : Except ε α} {value : β} :
    result.map image = .ok value ↔ ∃ found, result = .ok found ∧ image found = value := by
  cases result <;> simp [Except.map]

/-- Of the text up to a closer, the closer and the text after it, nothing is lost. -/
theorem length_untilClosed {innermost : Char} {outer : List Char} {position : Nat}
    {text inner after : List Char}
    (closed : untilClosed innermost outer position text = .ok (inner, after)) :
    text.length = inner.length + 1 + after.length := by
  fun_induction untilClosed innermost outer position text generalizing inner after <;>
    grind [map_eq_ok_iff, consFirst]

/-- The enclosed text is shorter than the text by its closer. -/
theorem length_enclosed {opener : Char} {position : Nat} {text inner : List Char}
    (closed : enclosed opener position text = .ok inner) :
    text.length = inner.length + 1 := by
  rw [enclosed] at closed
  cases found : untilClosed (closerOf opener) [] position text with
  | error fault => simp [found, bind, Except.bind] at closed
  | ok pair =>
      rcases pair with ⟨left, right⟩
      have total := length_untilClosed found
      cases right with
      | nil =>
          simp [found, bind, Except.bind] at closed
          simpa [closed] using total
      | cons char rest => simp [found, bind, Except.bind] at closed

/-- The pieces between commas and the commas make up the text. -/
theorem length_cutCommas {part : Part} {depth : Nat} {fresh : Bool} {position : Nat}
    {text first : List Char} {later : List Slice}
    (cut : cutCommas part depth fresh position text = .ok (first, later)) :
    text.length = first.length + Slice.totalLength later := by
  fun_induction cutCommas part depth fresh position text generalizing first later <;>
    grind [map_eq_ok_iff, consFirst, Slice.totalLength_nil, Slice.totalLength_cons]

/-- The arguments of a text have its length, counting one separator for each of them. -/
theorem totalLength_arguments {part : Part} {position : Nat} {text : List Char}
    {slices : List Slice} (cut : arguments part position text = .ok slices) :
    Slice.totalLength slices = text.length + 1 := by
  rcases map_eq_ok_iff.mp cut with ⟨⟨first, later⟩, found, equal⟩
  have total := length_cutCommas found
  subst equal
  simp only [Slice.totalLength_cons]
  omega

end QueryGate
