import QueryGate.Proofs.Expression.Open

/-!
# Texts that stand as one value

A value goes on up to the first `&` or `=` that stands in none of its brackets. A text that has
them in its brackets alone is one value, whatever else is wrong with it. How many brackets it
has open at a time is counted without a look at their kinds, so that it is known of texts whose
brackets do not match, too.
-/

namespace QueryGate

/-- Each `&` and each `=` of a text stands behind more openers than closers. -/
def MarksInside (text : List Char) : Prop :=
  ∀ before char after, char = '&' ∨ char = '=' → text = before ++ char :: after →
    before.countP isCloser < before.countP isOpener

/-- No more than so many brackets of a text are open at a time, of whatever kinds they are. -/
def Shallow (limit : Nat) (text : List Char) : Prop :=
  ∀ before after, text = before ++ after →
    before.countP isOpener ≤ before.countP isCloser + limit

instance (text : List Char) : Decidable (MarksInside text) :=
  decidable_of_iff
    (∀ place, (inText : place < text.length) → text[place] = '&' ∨ text[place] = '=' →
      (text.take place).countP isCloser < (text.take place).countP isOpener) <| by
    constructor
    · rintro each before char after mark rfl
      simpa using each before.length (by simp) (by simpa using mark)
    · intro inside place inText mark
      refine inside _ text[place] (text.drop (place + 1)) mark ?_
      rw [List.getElem_cons_drop, List.take_append_drop]

instance (limit : Nat) (text : List Char) : Decidable (Shallow limit text) :=
  decidable_of_iff
    (∀ place ≤ text.length,
      (text.take place).countP isOpener ≤ (text.take place).countP isCloser + limit) <| by
    constructor
    · rintro each before after rfl
      simpa using each before.length (by simp)
    · intro shallow place _
      exact shallow _ (text.drop place) (List.take_append_drop place text).symm

variable {limit depth : Nat} {text front rest inner : List Char}

/-- Behind a text whose brackets match stands none of the marks. -/
theorem MarksInside.not_mark {char : Char} (inside : MarksInside text)
    (closed : unclosed? [] front = some []) (split : text = front ++ char :: rest) :
    char ≠ '&' ∧ char ≠ '=' := by
  obtain ⟨depth, balanced⟩ := balanced_of_unclosed? closed
  have even := balanced.countP_eq
  constructor <;> rintro rfl
  · have less := inside front '&' rest (.inl rfl) split
    omega
  · have less := inside front '=' rest (.inr rfl) split
    omega

namespace Shallow

/-- Text in front that closes as many brackets as it opens makes no difference. -/
theorem of_append (shallow : Shallow limit (front ++ rest))
    (even : front.countP isOpener = front.countP isCloser) : Shallow limit rest := by
  intro before after split
  have counted := shallow (front ++ before) after (by rw [split, List.append_assoc])
  rw [List.countP_append, List.countP_append] at counted
  omega

/-- Behind an opener there is room for one bracket less. -/
theorem exists_of_opener {opener : Char} (shallow : Shallow limit (opener :: inner ++ rest))
    (opens : isOpener opener = true) : ∃ less, limit = less + 1 ∧ Shallow less inner := by
  have counted : ∀ before after, inner = before ++ after →
      before.countP isOpener + 1 ≤ before.countP isCloser + limit := by
    intro before after split
    have counted := shallow (opener :: before) (after ++ rest) (by simp [split])
    simpa [opens, closes_of_opens opens] using counted
  have room := counted [] inner rfl
  simp only [List.countP_nil] at room
  refine ⟨limit - 1, by omega, ?_⟩
  intro before after split
  have inside := counted before after split
  omega

end Shallow

/-- Where brackets match, they are as deep as their count says. -/
theorem Balanced.of_shallow (balanced : Balanced depth text) (shallow : Shallow limit text) :
    Balanced limit text := by
  induction balanced generalizing limit with
  | nil => exact .nil limit
  | @plain depth char rest plain _ hypothesis =>
      have even : [char].countP isOpener = [char].countP isCloser := by
        simp [not_opener_of_not_bracket plain, not_closer_of_not_bracket plain]
      have later : Shallow limit rest := Shallow.of_append shallow even
      exact .plain plain (hypothesis later)
  | @nest depth opener inner rest opens balanced _ insideHypothesis restHypothesis =>
      obtain ⟨less, rfl, inside⟩ := shallow.exists_of_opener opens
      have later : Shallow (less + 1) rest := by
        rw [List.append_cons] at shallow
        exact shallow.of_append (balanced.bracketed opens).countP_eq
      exact .nest opens (insideHypothesis inside) (restHypothesis later)

end QueryGate
