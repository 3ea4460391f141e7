import QueryGate.Proofs.Expression.Brackets

/-!
# Open brackets

Which brackets of a text are still open behind it, as the closers that they wait for, the
innermost first. A text leaves none open exactly if its brackets match; and what a part of a
text leaves open is what the part behind it has to close.
-/

namespace QueryGate

/-- What is open behind one more character: none if that closes what is not the innermost open
bracket. -/
def afterBracket? (closers : List Char) (char : Char) : Option (List Char) :=
  if isOpener char then some (closerOf char :: closers)
  else if isCloser char then
    match closers with
    | [] => none
    | innermost :: outer => if char = innermost then some outer else none
  else some closers

/-- The closers of the brackets that are open behind a text, the innermost first, where
`closers` are those of the brackets open in front of it; none if a closer is out of place. -/
def unclosed? (closers text : List Char) : Option (List Char) := text.foldlM afterBracket? closers

/-- The innermost bracket that a text leaves open waits for that closer. -/
def LeavesOpen (text : List Char) (closer : Char) : Prop :=
  ∃ outer, unclosed? [] text = some (closer :: outer)

variable {closers found text rest : List Char} {char : Char}

@[simp] theorem afterBracket?_of_plain (plain : isBracket char = false) (closers : List Char) :
    afterBracket? closers char = some closers := by
  simp [afterBracket?, not_opener_of_not_bracket plain, not_closer_of_not_bracket plain]

@[simp] theorem afterBracket?_of_opener (opens : isOpener char = true) (closers : List Char) :
    afterBracket? closers char = some (closerOf char :: closers) := by
  simp [afterBracket?, opens]

@[simp] theorem afterBracket?_closerOf (opener : Char) (closers : List Char) :
    afterBracket? (closerOf opener :: closers) (closerOf opener) = some closers := by
  simp [afterBracket?, isOpener_closerOf, isCloser_closerOf]

@[simp] theorem unclosed?_nil (closers : List Char) : unclosed? closers [] = some closers := rfl

theorem unclosed?_cons (closers : List Char) (char : Char) (text : List Char) :
    unclosed? closers (char :: text) =
      (afterBracket? closers char).bind fun next => unclosed? next text := rfl

theorem unclosed?_append (closers text rest : List Char) :
    unclosed? closers (text ++ rest) =
      (unclosed? closers text).bind fun next => unclosed? next rest := by
  rw [unclosed?, List.foldlM_append]
  rfl

/-- A character that is in place opens a bracket, closes the innermost one, or is no bracket. -/
theorem afterBracket?_eq_some {next : List Char} (after : afterBracket? closers char = some next) :
    (isOpener char = true ∧ next = closerOf char :: closers) ∨
      (isCloser char = true ∧ closers = char :: next) ∨
      (isBracket char = false ∧ next = closers) := by
  unfold afterBracket? at after
  split at after
  · rename_i opens
    cases after
    exact .inl ⟨opens, rfl⟩
  · split at after
    · rename_i closes
      cases closers with
      | nil => cases after
      | cons innermost outer =>
          simp only [Option.ite_none_right_eq_some, Option.some.injEq] at after
          obtain ⟨rfl, rfl⟩ := after
          exact .inr (.inl ⟨closes, rfl⟩)
    · rename_i opens closes
      cases after
      exact .inr (.inr ⟨by simp [isBracket, opens, closes], rfl⟩)

/-- A character behind which nothing is open any more closes the only bracket that is open. -/
theorem of_afterBracket?_eq_nil {innermost : Char} {outer : List Char}
    (after : afterBracket? (innermost :: outer) char = some []) :
    isCloser char = true ∧ innermost = char ∧ outer = [] := by
  obtain ⟨-, same⟩ | ⟨closes, same⟩ | ⟨-, same⟩ := afterBracket?_eq_some after
  · cases same
  · exact ⟨closes, List.cons.inj same⟩
  · cases same

/-- A part in front of a text has no closer out of place if the text has none. -/
theorem exists_unclosed?_of_append (open? : unclosed? closers (text ++ rest) = some found) :
    ∃ next, unclosed? closers text = some next ∧ unclosed? next rest = some found := by
  rw [unclosed?_append, Option.bind_eq_some_iff] at open?
  exact open?

/-- Brackets around a text stay open, behind what the text itself leaves open. -/
theorem unclosed?_outer (open? : unclosed? closers text = some found) (outer : List Char) :
    unclosed? (closers ++ outer) text = some (found ++ outer) := by
  induction text generalizing closers with
  | nil =>
      cases open?
      rfl
  | cons char rest hypothesis =>
      rw [unclosed?_cons, Option.bind_eq_some_iff] at open? ⊢
      obtain ⟨next, after, openRest⟩ := open?
      refine ⟨next ++ outer, ?_, hypothesis openRest⟩
      obtain ⟨opens, rfl⟩ | ⟨closes, rfl⟩ | ⟨plain, rfl⟩ := afterBracket?_eq_some after
      · exact afterBracket?_of_opener opens _
      · simp [afterBracket?, closes, isOpener_of_isCloser closes]
      · exact afterBracket?_of_plain plain _

theorem IsPlain.unclosed? (plain : IsPlain text) (closers : List Char) :
    unclosed? closers text = some closers := by
  induction text with
  | nil => rfl
  | cons char rest hypothesis =>
      obtain ⟨first, later⟩ := List.forall_mem_cons.mp plain
      rw [unclosed?_cons, afterBracket?_of_plain first, Option.bind_some, hypothesis later]

theorem Balanced.unclosed? {depth : Nat} (balanced : Balanced depth text) (closers : List Char) :
    unclosed? closers text = some closers := by
  induction balanced generalizing closers with
  | nil => rfl
  | plain plain _ hypothesis =>
      rw [unclosed?_cons, afterBracket?_of_plain plain, Option.bind_some, hypothesis]
  | nest opens _ _ inside behind =>
      rw [List.cons_append, unclosed?_cons, afterBracket?_of_opener opens, Option.bind_some,
        unclosed?_append, inside, Option.bind_some, unclosed?_cons, afterBracket?_closerOf,
        Option.bind_some, behind]

/-- A text that leaves nothing open closes the innermost bracket that is open in front of it, and
up to there its own brackets match. -/
theorem exists_closer_of_unclosed? {innermost : Char} {outer text : List Char}
    (closed : unclosed? (innermost :: outer) text = some []) :
    ∃ inner behind depth, text = inner ++ innermost :: behind ∧ Balanced depth inner ∧
      unclosed? outer behind = some [] := by
  match text with
  | [] => cases closed
  | char :: rest =>
      rw [unclosed?_cons, Option.bind_eq_some_iff] at closed
      obtain ⟨next, after, closedRest⟩ := closed
      obtain ⟨opens, rfl⟩ | ⟨-, same⟩ | ⟨plain, rfl⟩ := afterBracket?_eq_some after
      · -- The closer of the bracket that opens here comes first, then that of the one around it.
        obtain ⟨nested, later, depth, rfl, balanced, closedLater⟩ :=
          exists_closer_of_unclosed? closedRest
        obtain ⟨inner, behind, more, rfl, balancedInner, closedBehind⟩ :=
          exists_closer_of_unclosed? closedLater
        have whole := Balanced.nest opens (balanced.mono (Nat.le_max_left depth more))
          (balancedInner.mono (by omega : more ≤ max depth more + 1))
        exact ⟨_, behind, _, by simp, whole, closedBehind⟩
      · cases same
        exact ⟨[], rest, 0, rfl, .nil 0, closedRest⟩
      · obtain ⟨inner, behind, depth, rfl, balanced, closedBehind⟩ :=
          exists_closer_of_unclosed? closedRest
        exact ⟨char :: inner, behind, depth, rfl, .plain plain balanced, closedBehind⟩
termination_by text.length
decreasing_by
  all_goals
    subst_vars
    simp only [List.length_cons, List.length_append]
    omega

theorem balanced_of_unclosed? {text : List Char} (closed : unclosed? [] text = some []) :
    ∃ depth, Balanced depth text := by
  match text with
  | [] => exact ⟨0, .nil 0⟩
  | char :: rest =>
      rw [unclosed?_cons, Option.bind_eq_some_iff] at closed
      obtain ⟨next, after, closedRest⟩ := closed
      obtain ⟨opens, rfl⟩ | ⟨-, same⟩ | ⟨plain, rfl⟩ := afterBracket?_eq_some after
      · obtain ⟨inner, behind, depth, rfl, balanced, closedBehind⟩ :=
          exists_closer_of_unclosed? closedRest
        obtain ⟨more, balancedBehind⟩ := balanced_of_unclosed? closedBehind
        exact ⟨max depth more + 1, .nest opens (balanced.mono (Nat.le_max_left depth more))
          (balancedBehind.mono (by omega))⟩
      · cases same
      · obtain ⟨depth, balanced⟩ := balanced_of_unclosed? closedRest
        exact ⟨depth, .plain plain balanced⟩
termination_by text.length
decreasing_by
  all_goals
    subst_vars
    simp only [List.length_cons, List.length_append]
    omega

/-- Each open parenthesis has been opened and not been closed. -/
theorem count_of_unclosed? (open? : unclosed? closers text = some found) :
    text.count ')' + found.count ')' = text.count '(' + closers.count ')' := by
  induction text generalizing closers with
  | nil =>
      cases open?
      simp
  | cons char rest hypothesis =>
      rw [unclosed?_cons, Option.bind_eq_some_iff] at open?
      obtain ⟨next, after, openRest⟩ := open?
      have counted := hypothesis openRest
      obtain ⟨opens, rfl⟩ | ⟨closes, rfl⟩ | ⟨plain, rfl⟩ := afterBracket?_eq_some after
      · rw [isOpener, Bool.or_eq_true, beq_iff_eq, beq_iff_eq] at opens
        obtain rfl | rfl := opens
        · simp [closerOf] at counted ⊢
          omega
        · simp [closerOf] at counted ⊢
          omega
      · rw [isCloser, Bool.or_eq_true, beq_iff_eq, beq_iff_eq] at closes
        obtain rfl | rfl := closes
        · simp at counted ⊢
          omega
        · simp at counted ⊢
          omega
      · simp [ne_parens_of_not_bracket plain] at counted ⊢
        omega

/-- What is waited for are closers. -/
theorem isCloser_of_unclosed? (each : ∀ closer ∈ closers, isCloser closer = true)
    (open? : unclosed? closers text = some found) : ∀ closer ∈ found, isCloser closer = true := by
  induction text generalizing closers with
  | nil =>
      cases open?
      exact each
  | cons char rest hypothesis =>
      rw [unclosed?_cons, Option.bind_eq_some_iff] at open?
      obtain ⟨next, after, openRest⟩ := open?
      refine hypothesis ?_ openRest
      obtain ⟨-, rfl⟩ | ⟨-, rfl⟩ | ⟨-, rfl⟩ := afterBracket?_eq_some after
      · exact List.forall_mem_cons.mpr ⟨isCloser_closerOf char, each⟩
      · exact (List.forall_mem_cons.mp each).2
      · exact each

end QueryGate
