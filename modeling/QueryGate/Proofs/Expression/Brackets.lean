import QueryGate.Proofs.Result

/-!
# Matched brackets

Texts whose brackets match, each with the closer of its own kind. A search for a closer passes
over such a text as a whole; and what it has found between an opener and its closer is such a
text.
-/

namespace QueryGate

/-- The brackets of a text match, and no more than so many are open at a time. -/
inductive Balanced : Nat → List Char → Prop where
  | nil (depth : Nat) : Balanced depth []
  | plain {depth : Nat} {char : Char} {rest : List Char} :
      isBracket char = false → Balanced depth rest → Balanced depth (char :: rest)
  | nest {depth : Nat} {opener : Char} {inner rest : List Char} :
      isOpener opener = true → Balanced depth inner → Balanced (depth + 1) rest →
      Balanced (depth + 1) (opener :: inner ++ closerOf opener :: rest)

/-- A text without brackets. -/
def IsPlain (text : List Char) : Prop := ∀ char ∈ text, isBracket char = false

instance (text : List Char) : Decidable (IsPlain text) :=
  decidable_of_iff ((text.all fun char => !isBracket char) = true) (by simp [IsPlain])

/-- A word and a text in parentheses. -/
def called (word : String) (inner : List Char) : List Char :=
  word.toList ++ '(' :: inner ++ [')']

variable {depth : Nat} {text rest : List Char}

theorem isCloser_closerOf (opener : Char) : isCloser (closerOf opener) = true := by
  rw [closerOf]
  split <;> rfl

theorem isOpener_closerOf (opener : Char) : isOpener (closerOf opener) = false := by
  rw [closerOf]
  split <;> rfl

theorem closes_of_opens {opener : Char} (opens : isOpener opener = true) :
    isCloser opener = false := by
  rw [isOpener, Bool.or_eq_true, beq_iff_eq, beq_iff_eq] at opens
  obtain rfl | rfl := opens <;> rfl

theorem isOpener_of_isCloser {char : Char} (closes : isCloser char = true) :
    isOpener char = false := by
  rw [isCloser, Bool.or_eq_true, beq_iff_eq, beq_iff_eq] at closes
  obtain rfl | rfl := closes <;> rfl

theorem not_opener_of_not_bracket {char : Char} (plain : isBracket char = false) :
    isOpener char = false :=
  (Bool.or_eq_false_iff.mp plain).1

theorem not_closer_of_not_bracket {char : Char} (plain : isBracket char = false) :
    isCloser char = false :=
  (Bool.or_eq_false_iff.mp plain).2

theorem ne_parens_of_not_bracket {char : Char} (plain : isBracket char = false) :
    char ≠ '(' ∧ char ≠ ')' := by
  constructor <;> rintro rfl <;> cases plain

namespace Balanced

theorem mono {more : Nat} (balanced : Balanced depth text) (enough : depth ≤ more) :
    Balanced more text := by
  induction balanced generalizing more with
  | nil => exact .nil more
  | plain plain _ hypothesis => exact .plain plain (hypothesis enough)
  | nest opens _ _ inside behind =>
      cases more with
      | zero => omega
      | succ more => exact .nest opens (inside (by omega)) (behind enough)

theorem append (balanced : Balanced depth text) (later : Balanced depth rest) :
    Balanced depth (text ++ rest) := by
  induction balanced with
  | nil => exact later
  | plain plain _ hypothesis => exact .plain plain (hypothesis later)
  | nest opens inside _ _ behind =>
      rw [List.append_assoc]
      exact .nest opens inside (behind later)

theorem of_plain (depth : Nat) (plain : IsPlain text) : Balanced depth text := by
  induction text with
  | nil => exact .nil depth
  | cons char rest hypothesis =>
      obtain ⟨first, later⟩ := List.forall_mem_cons.mp plain
      exact .plain first (hypothesis later)

/-- A text in brackets. -/
theorem bracketed {opener : Char} (opens : isOpener opener = true)
    (balanced : Balanced depth text) :
    Balanced (depth + 1) (opener :: text ++ [closerOf opener]) :=
  .nest opens balanced (.nil _)

theorem called {word : String} (plain : IsPlain word.toList) (balanced : Balanced depth text) :
    Balanced (depth + 1) (called word text) := by
  have opens : isOpener '(' = true := rfl
  rw [QueryGate.called, List.append_assoc]
  exact (Balanced.of_plain _ plain).append (balanced.bracketed opens)

/-- As many brackets are closed as are opened. -/
theorem countP_eq (balanced : Balanced depth text) : text.countP isOpener = text.countP isCloser := by
  induction balanced with
  | nil => rfl
  | plain plain _ hypothesis =>
      simp [not_opener_of_not_bracket plain, not_closer_of_not_bracket plain, hypothesis]
  | nest opens _ _ inside behind =>
      simp [opens, closes_of_opens opens, isOpener_closerOf, isCloser_closerOf, inside, behind]
      omega

/-- No more brackets are closed than have been opened before. -/
theorem countP_le (balanced : Balanced depth text) {before after : List Char}
    (split : text = before ++ after) : before.countP isCloser ≤ before.countP isOpener := by
  induction balanced generalizing before after with
  | nil =>
      obtain ⟨rfl, -⟩ := List.append_eq_nil_iff.mp split.symm
      exact Nat.le_refl 0
  | plain plain _ hypothesis =>
      cases before with
      | nil => exact Nat.le_refl 0
      | cons char before =>
          obtain ⟨rfl, splitRest⟩ := List.cons.inj split
          have counted := hypothesis splitRest
          simpa [not_opener_of_not_bracket plain, not_closer_of_not_bracket plain] using counted
  | @nest depth opener inner behind opens balanced _ insideHypothesis behindHypothesis =>
      have closed := closes_of_opens opens
      cases before with
      | nil => exact Nat.le_refl 0
      | cons char before =>
          obtain ⟨rfl, splitRest⟩ := List.cons.inj split
          -- The cut is in the brackets, or behind the closer.
          obtain ⟨more, rfl, whole⟩ | ⟨more, whole, -⟩ := List.append_eq_append_iff.mp splitRest
          · cases more with
            | nil =>
                simp [opens, closed, balanced.countP_eq]
            | cons closer more =>
                obtain ⟨rfl, wholeRest⟩ := List.cons.inj whole
                have counted := behindHypothesis wholeRest
                simp [opens, closed, isOpener_closerOf, isCloser_closerOf, balanced.countP_eq]
                omega
          · have counted := insideHypothesis whole
            simp [opens, closed]
            omega

end Balanced

theorem IsPlain.of_subset (plain : IsPlain text) (part : rest ⊆ text) : IsPlain rest :=
  fun char member => plain char (part member)

theorem IsPlain.balanced (plain : IsPlain text) : ∃ depth, Balanced depth text :=
  ⟨0, .of_plain 0 plain⟩

/-- A text in front of the first of two. -/
def putFirst {α : Type} (text : List Char) (pair : List Char × α) : List Char × α :=
  (text ++ pair.1, pair.2)

@[simp] theorem map_putFirst_nil {ε α : Type} (result : Except ε (List Char × α)) :
    result.map (putFirst []) = result := by
  cases result <;> rfl

theorem consFirst_eq_putFirst {α : Type} (char : Char) :
    (consFirst char : List Char × α → List Char × α) = putFirst [char] := rfl

theorem map_consFirst_putFirst {ε α : Type} (char : Char) (text : List Char)
    (result : Except ε (List Char × α)) :
    (result.map (putFirst text)).map (consFirst char) = result.map (putFirst (char :: text)) := by
  cases result <;> rfl

theorem map_putFirst_putFirst {ε α : Type} (text rest : List Char)
    (result : Except ε (List Char × α)) :
    (result.map (putFirst rest)).map (putFirst text) = result.map (putFirst (text ++ rest)) := by
  cases result with
  | error fault => rfl
  | ok pair => simp [Except.map, putFirst]

/-! ### The closer of a bracket -/

/-- No closer is found in a text whose brackets match; it is found behind it. -/
theorem untilClosed_append (balanced : Balanced depth text) (innermost : Char)
    (outer : List Char) (position : Nat) (rest : List Char) :
    untilClosed innermost outer position (text ++ rest) =
      (untilClosed innermost outer (position + text.length) rest).map (putFirst text) := by
  induction balanced generalizing innermost outer position rest with
  | nil => simp
  | plain plain _ hypothesis =>
      simp only [List.cons_append, untilClosed, not_opener_of_not_bracket plain,
        not_closer_of_not_bracket plain, hypothesis, map_consFirst_putFirst, List.length_cons]
      simp [Nat.add_comm, Nat.add_left_comm]
  | @nest depth opener inner behind opens _ _ insideHypothesis behindHypothesis =>
      simp only [List.cons_append, List.append_assoc, untilClosed, opens, if_true,
        insideHypothesis, isOpener_closerOf, isCloser_closerOf, behindHypothesis,
        map_consFirst_putFirst]
      simp [map_putFirst_putFirst, Nat.add_comm, Nat.add_left_comm]

/-- Everything between an opener and its closer at the end is enclosed. -/
theorem enclosed_of_balanced (balanced : Balanced depth text) (opener : Char) (position : Nat) :
    enclosed opener position (text ++ [closerOf opener]) = .ok text := by
  rw [enclosed, untilClosed_append balanced]
  simp [untilClosed, isOpener_closerOf, isCloser_closerOf, Except.map, putFirst, bind, Except.bind]

/-- A text closes the brackets that are open, from the inside out, and ends with the last
closer. -/
inductive Closes : Char → List Char → List Char → Prop where
  | last {depth : Nat} {innermost : Char} {text : List Char} :
      Balanced depth text → Closes innermost [] (text ++ [innermost])
  | next {depth : Nat} {innermost next : Char} {outer text rest : List Char} :
      Balanced depth text → Closes next outer rest →
      Closes innermost (next :: outer) (text ++ innermost :: rest)

namespace Closes

variable {innermost : Char} {outer : List Char}

theorem plain {char : Char} (plain : isBracket char = false) (closes : Closes innermost outer text) :
    Closes innermost outer (char :: text) := by
  cases closes with
  | last balanced =>
      rw [← List.cons_append]
      exact .last (.plain plain balanced)
  | next balanced closes =>
      rw [← List.cons_append]
      exact .next (.plain plain balanced) closes

/-- In front of what closes it, a bracket can be opened. -/
theorem opened {opener : Char} (opens : isOpener opener = true)
    (closes : Closes (closerOf opener) (innermost :: outer) text) :
    Closes innermost outer (opener :: text) := by
  cases closes with
  | @next depth _ _ _ inner rest balanced closes =>
      have nested : ∀ {more : Nat} {after : List Char}, Balanced more after →
          Balanced (max depth more + 1) (opener :: inner ++ closerOf opener :: after) :=
        fun later => .nest opens (balanced.mono (by omega)) (later.mono (by omega))
      cases closes with
      | last later =>
          have closed : Closes innermost [] _ := .last (nested later)
          simpa using closed
      | next later closes => simpa using Closes.next (nested later) closes

/-- Where one bracket is open, nothing is closed before the last character but what was opened
behind it. -/
theorem exists_balanced (closes : Closes innermost [] text) :
    ∃ inner depth, text = inner ++ [innermost] ∧ Balanced depth inner := by
  cases closes with
  | last balanced => exact ⟨_, _, rfl, balanced⟩

end Closes

/-- What is found up to the last closer closes all brackets that are open. -/
theorem closes_of_untilClosed {innermost : Char} {outer : List Char} {position : Nat}
    {inner after : List Char}
    (closed : untilClosed innermost outer position text = .ok (inner, after)) :
    ∃ last, text = inner ++ last :: after ∧ Closes innermost outer (inner ++ [last]) := by
  induction text generalizing innermost outer position inner with
  | nil => simp [untilClosed] at closed
  | cons char rest hypothesis =>
      -- A character that is not the last closer stands in front of what is found behind it.
      have goesOn : ∀ {next : Char} {others : List Char},
          (untilClosed next others (position + 1) rest).map (consFirst char) = .ok (inner, after) →
          ∃ found last, inner = char :: found ∧ rest = found ++ last :: after ∧
            Closes next others (found ++ [last]) := by
        intro next others closed
        obtain ⟨⟨found, behind⟩, closedRest, equal⟩ := map_eq_ok_iff.mp closed
        cases equal
        obtain ⟨last, whole, closes⟩ := hypothesis closedRest
        exact ⟨found, last, rfl, whole, closes⟩
      unfold untilClosed at closed
      split at closed
      · rename_i opens
        obtain ⟨found, last, rfl, whole, closes⟩ := goesOn closed
        exact ⟨last, by rw [whole]; rfl, closes.opened opens⟩
      · split at closed
        · split at closed
          · cases closed
          · rename_i matched
            have same : char = innermost := by simpa using matched
            subst same
            cases outer with
            | nil =>
                cases closed
                exact ⟨char, rfl, .last (.nil 0)⟩
            | cons next outer =>
                obtain ⟨found, last, rfl, whole, closes⟩ := goesOn closed
                exact ⟨last, by rw [whole]; rfl, .next (.nil 0) closes⟩
        · rename_i opens closes
          have plain : isBracket char = false := by simp [isBracket, opens, closes]
          obtain ⟨found, last, rfl, whole, closes⟩ := goesOn closed
          exact ⟨last, by rw [whole]; rfl, closes.plain plain⟩

/-- What is enclosed has matching brackets, and its closer is the end of the text. -/
theorem balanced_of_enclosed {opener : Char} {position : Nat} {inner : List Char}
    (closed : enclosed opener position text = .ok inner) :
    text = inner ++ [closerOf opener] ∧ ∃ depth, Balanced depth inner := by
  rw [enclosed, bind_eq_ok_iff] at closed
  obtain ⟨⟨before, after⟩, found, whole⟩ := closed
  obtain ⟨last, split, closes⟩ := closes_of_untilClosed found
  cases after with
  | nil =>
      cases whole
      obtain ⟨found, depth, ended, balanced⟩ := closes.exists_balanced
      obtain ⟨rfl, same⟩ := List.append_inj' ended rfl
      cases same
      exact ⟨split, depth, balanced⟩
  | cons char rest => cases whole

end QueryGate
