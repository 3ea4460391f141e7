import Mathlib.Data.List.TakeWhile
import QueryGate.Proofs.Expression.Commas
import QueryGate.Proofs.Expression.Position

/-!
# The grammar of values

A phrase is a value as it is written: the rule of the grammar that gives it, and its parts. The
text of a phrase is what is written, and its expression is what that denotes. The grammar has
every text of a valid phrase and no other.

The main statement is that reading accepts exactly the texts of valid phrases, with the
expression of the phrase, and that no text has two phrases.
-/

namespace QueryGate

/-- A value as it is written. -/
inductive Phrase where
  | literal (text : List Char)
  /-- Items in square brackets. -/
  | list (items : List (List Char))
  | oneOf (items : List (List Char))
  | like (pattern : List Char)
  | notLike (pattern : List Char)
  /-- A negation, with its sign `!` or with its word. -/
  | not (sign : Bool) (operand : Phrase)
  | and (operands : List Phrase)
  /-- An alternative, with its sign `|` or with its word. -/
  | or (sign : Bool) (operands : List Phrase)

/-- An item of a list: not empty, and without brackets and commas. -/
def IsItem (text : List Char) : Prop := text ≠ [] ∧ IsPlain text ∧ ',' ∉ text

namespace Phrase

/-- The word or the sign of a negation. -/
def negation (sign : Bool) : String := if sign then "!" else "not"

/-- The word or the sign of an alternative. -/
def alternative (sign : Bool) : String := if sign then "|" else "or"

mutual

/-- What is written. -/
def text : Phrase → List Char
  | literal text => text
  | list items => '[' :: commas items ++ [']']
  | oneOf items => called "in" (commas items)
  | like pattern => called "like" pattern
  | notLike pattern => called "notLike" pattern
  | not sign operand => called (negation sign) operand.text
  | and operands => called "and" (commas (texts operands))
  | or sign operands => called (alternative sign) (commas (texts operands))

/-- What is written for each of several phrases. -/
def texts : List Phrase → List (List Char)
  | [] => []
  | phrase :: rest => phrase.text :: texts rest

end

mutual

/-- What is denoted. -/
def expression : Phrase → Expression
  | literal text => .literal (String.ofList text)
  | list items | oneOf items => .oneOf (items.map String.ofList)
  | like pattern => .like (String.ofList pattern)
  | notLike pattern => .notLike (String.ofList pattern)
  | not _ operand => .not operand.expression
  | and operands => .and (expressions operands)
  | or _ operands => .or (expressions operands)

/-- What is denoted by each of several phrases. -/
def expressions : List Phrase → List Expression
  | [] => []
  | phrase :: rest => phrase.expression :: expressions rest

end

theorem texts_eq_map (phrases : List Phrase) : texts phrases = phrases.map text := by
  induction phrases with
  | nil => rfl
  | cons phrase rest hypothesis => rw [texts, List.map_cons, hypothesis]

theorem expressions_eq_map (phrases : List Phrase) :
    expressions phrases = phrases.map expression := by
  induction phrases with
  | nil => rfl
  | cons phrase rest hypothesis => rw [expressions, List.map_cons, hypothesis]

/-- The phrases of the grammar. What stands between the commas of a connective is not empty,
and the commas are those that stand in no brackets. -/
inductive Valid : Phrase → Prop where
  | literal {text : List Char} : IsPlain text → Valid (.literal text)
  | list {items : List (List Char)} :
      items ≠ [] → (∀ item ∈ items, IsItem item) → Valid (.list items)
  | oneOf {items : List (List Char)} :
      items ≠ [] → (∀ item ∈ items, IsItem item) → Valid (.oneOf items)
  | like {pattern : List Char} : pattern ≠ [] → IsPlain pattern → Valid (.like pattern)
  | notLike {pattern : List Char} : pattern ≠ [] → IsPlain pattern → Valid (.notLike pattern)
  | not {operand : Phrase} (sign : Bool) :
      operand.text ≠ [] → Valid operand → Valid (.not sign operand)
  | and {operands : List Phrase} :
      operands ≠ [] → (∀ operand ∈ operands, operand.text ≠ [] ∧ CommasInside operand.text) →
      (∀ operand ∈ operands, Valid operand) → Valid (.and operands)
  | or {operands : List Phrase} (sign : Bool) :
      operands ≠ [] → (∀ operand ∈ operands, operand.text ≠ [] ∧ CommasInside operand.text) →
      (∀ operand ∈ operands, Valid operand) → Valid (.or sign operands)

end Phrase

open Phrase

/-! ### Texts of phrases -/

theorem ne_paren_of_isPlain {text : List Char} (plain : IsPlain text) :
    ∀ char ∈ text, (char != '(') = true := by
  intro char member
  rw [bne_iff_ne]
  intro same
  have bracket := plain char member
  rw [same] at bracket
  cases bracket

/-- The word in front of the first parenthesis, the parenthesis and what is behind it. -/
theorem eq_of_dropWhile_paren {text rest : List Char} {opener : Char}
    (dropped : text.dropWhile (· != '(') = opener :: rest) :
    text = text.takeWhile (· != '(') ++ '(' :: rest := by
  have opens := List.head?_dropWhile_not (· != '(') text
  rw [dropped] at opens
  have same : opener = '(' := by simpa using opens
  subst same
  rw [← dropped, List.takeWhile_append_dropWhile]

theorem IsItem.isPiece {text : List Char} (item : IsItem text) : IsPiece text :=
  ⟨item.1, .of_not_mem item.2.2, item.2.1.balanced⟩

theorem isPlain_negation (sign : Bool) : IsPlain (negation sign).toList := by
  cases sign <;> decide

theorem isPlain_alternative (sign : Bool) : IsPlain (alternative sign).toList := by
  cases sign <;> decide

theorem negation_injective {sign other : Bool} (same : negation sign = negation other) :
    sign = other := by
  revert same
  cases sign <;> cases other <;> decide

theorem alternative_injective {sign other : Bool} (same : alternative sign = alternative other) :
    sign = other := by
  revert same
  cases sign <;> cases other <;> decide

theorem ofWord?_negation (sign : Bool) :
    Operator.ofWord? (negation sign) = some (.connective .not) := by
  cases sign <;> rfl

theorem ofWord?_alternative (sign : Bool) :
    Operator.ofWord? (alternative sign) = some (.connective .or) := by
  cases sign <;> rfl

/-- Keywords have no brackets. -/
theorem Connective.isPlain_of_ofWord? {word : String} {joining : Connective}
    (named : Connective.ofWord? word = some joining) : IsPlain word.toList := by
  unfold Connective.ofWord? at named
  split at named
  all_goals first | decide | cases named

theorem Operator.isPlain_of_ofWord? {word : String} {operator : Operator}
    (named : Operator.ofWord? word = some operator) : IsPlain word.toList := by
  unfold Operator.ofWord? at named
  split at named
  · decide
  · decide
  · decide
  · obtain ⟨joining, found, -⟩ := Option.map_eq_some_iff.mp named
    exact Connective.isPlain_of_ofWord? found

namespace Phrase

theorem exists_balanced_items {items : List (List Char)} (each : ∀ item ∈ items, IsItem item) :
    ∃ depth, Balanced depth (commas items) := by
  obtain ⟨depth, balanced⟩ := exists_balanced_all fun item member => (each item member).2.1.balanced
  exact ⟨depth, balanced_commas balanced⟩

theorem exists_balanced_operands {operands : List Phrase}
    (each : ∀ operand ∈ operands, ∃ depth, Balanced depth operand.text) :
    ∃ depth, Balanced depth (commas (texts operands)) := by
  rw [texts_eq_map]
  obtain ⟨depth, balanced⟩ := exists_balanced_all (List.forall_mem_map.mpr each)
  exact ⟨depth, balanced_commas balanced⟩

/-- The brackets of a phrase match. -/
theorem Valid.balanced {phrase : Phrase} (valid : phrase.Valid) :
    ∃ depth, Balanced depth phrase.text := by
  induction valid with
  | literal plain => exact plain.balanced
  | list _ each =>
      obtain ⟨depth, balanced⟩ := exists_balanced_items each
      have opens : isOpener '[' = true := rfl
      exact ⟨depth + 1, balanced.bracketed opens⟩
  | oneOf _ each =>
      obtain ⟨depth, balanced⟩ := exists_balanced_items each
      exact ⟨depth + 1, balanced.called (by decide)⟩
  | like _ plain | notLike _ plain =>
      obtain ⟨depth, balanced⟩ := plain.balanced
      exact ⟨depth + 1, balanced.called (by decide)⟩
  | not sign _ _ hypothesis =>
      obtain ⟨depth, balanced⟩ := hypothesis
      exact ⟨depth + 1, balanced.called (isPlain_negation sign)⟩
  | and _ _ _ hypothesis =>
      obtain ⟨depth, balanced⟩ := exists_balanced_operands hypothesis
      exact ⟨depth + 1, balanced.called (by decide)⟩
  | or sign _ _ _ hypothesis =>
      obtain ⟨depth, balanced⟩ := exists_balanced_operands hypothesis
      exact ⟨depth + 1, balanced.called (isPlain_alternative sign)⟩

end Phrase

/-! ### Every phrase is read -/

theorem readLiteral_of_isPlain {text : List Char} (plain : IsPlain text) (position : Nat) :
    readLiteral position text = .ok (String.ofList text) :=
  readLiteral_eq_ok_iff.mpr ⟨plain, rfl⟩

theorem readItems_commas {items : List (List Char)} (written : items ≠ [])
    (each : ∀ item ∈ items, IsItem item) (position : Nat) :
    readItems position (commas items) = .ok (items.map String.ofList) := by
  obtain ⟨slices, cut, read⟩ := exists_read_commas written
    (fun item member => (each item member).isPiece)
    (fun item member => readLiteral_of_isPlain (each item member).2.1) .item position
  have notEmpty := commas_ne_nil written fun item member => (each item member).1
  rw [List.map_id'] at cut
  rw [readItems, List.isEmpty_eq_false_iff.mpr notEmpty, cut]
  exact read

/-- A word and a text in parentheses are read as a call. -/
theorem Call.read_called {κ : Type} {keyword? : String → Option κ} {keyword : κ} {word : String}
    {depth : Nat} {inner : List Char} (found : keyword? word = some keyword)
    (plain : IsPlain word.toList) (written : inner ≠ []) (balanced : Balanced depth inner)
    (part : Part) (position : Nat) :
    Call.read keyword? part position (called word inner) =
      .ok (some ⟨keyword, position + word.toList.length + 1, inner⟩) := by
  have before := ne_paren_of_isPlain plain
  have closed := enclosed_of_balanced balanced '(' (position + word.toList.length + 1)
  have closer : closerOf '(' = ')' := rfl
  rw [closer] at closed
  simp only [Call.read, called, List.append_assoc, List.takeWhile_append_of_pos before,
    List.dropWhile_append_of_pos before]
  simp [found, closed, written, bind, Except.bind, pure, Except.pure]

/-- A text is read as a call only if it is a word and a text in parentheses. -/
theorem Call.called_of_read {κ : Type} {keyword? : String → Option κ} {part : Part}
    {position : Nat} {text : List Char} {call : Call κ}
    (found : Call.read keyword? part position text = .ok (some call)) :
    ∃ word, text = called word call.inner ∧ keyword? word = some call.keyword ∧
      call.inner ≠ [] ∧ ∃ depth, Balanced depth call.inner := by
  simp only [Call.read] at found
  split at found
  · cases found
  · rename_i opener rest dropped
    split at found
    · cases found
    · rename_i keyword named
      rw [bind_eq_ok_iff] at found
      obtain ⟨inner, closed, found⟩ := found
      split at found
      · cases found
      · rename_i written
        cases found
        have whole := eq_of_dropWhile_paren dropped
        generalize text.takeWhile (· != '(') = word at whole named
        obtain ⟨split, balanced⟩ := balanced_of_enclosed closed
        refine ⟨_, ?_, named, by simpa using written, balanced⟩
        rw [whole, split]
        simp [called, closerOf]

/-- A text that is not read as a call has no parenthesis to open. -/
theorem Call.read_none {κ : Type} {keyword? : String → Option κ} {text : List Char}
    (plain : IsPlain text) (part : Part) (position : Nat) :
    Call.read keyword? part position text = .ok none := by
  rw [Call.read, List.dropWhile_eq_nil_iff.mpr (ne_paren_of_isPlain plain)]

namespace Phrase

theorem Valid.isPiece {phrase : Phrase} (valid : phrase.Valid)
    (placed : phrase.text ≠ [] ∧ CommasInside phrase.text) : IsPiece phrase.text :=
  ⟨placed.1, placed.2, valid.balanced⟩

/-- The operands of a connective are read one by one. -/
theorem exists_readValues_commas {operands : List Phrase} (written : operands ≠ [])
    (placed : ∀ operand ∈ operands, operand.text ≠ [] ∧ CommasInside operand.text)
    (valid : ∀ operand ∈ operands, operand.Valid)
    (read : ∀ operand ∈ operands, ∀ position,
      readValue position operand.text = .ok operand.expression) (position : Nat) :
    ∃ slices, arguments .operatorArgument position (commas (texts operands)) = .ok slices ∧
      readValues slices = .ok (expressions operands) := by
  have pieces : ∀ operand ∈ operands, IsPiece operand.text := fun operand member =>
    (valid operand member).isPiece (placed operand member)
  obtain ⟨slices, cut, all⟩ := exists_read_commas written pieces read .operatorArgument position
  rw [← readValues_eq_mapM] at all
  rw [texts_eq_map, expressions_eq_map]
  exact ⟨slices, cut, all⟩

theorem commas_texts_ne_nil {operands : List Phrase} (written : operands ≠ [])
    (placed : ∀ operand ∈ operands, operand.text ≠ [] ∧ CommasInside operand.text) :
    commas (texts operands) ≠ [] := by
  rw [texts_eq_map]
  exact commas_ne_nil (by simpa using written)
    (List.forall_mem_map.mpr fun operand member => (placed operand member).1)

/-- A call is read by what its operator makes of its inner text. -/
theorem readValue_called {operator : Operator} {word : String} {depth : Nat} {inner : List Char}
    {expression : Expression} (found : Operator.ofWord? word = some operator)
    (plain : IsPlain word.toList) (written : inner ≠ []) (balanced : Balanced depth inner)
    (read : ∀ inside, operator.readInner inside inner = .ok expression) (position : Nat) :
    readValue position (called word inner) = .ok expression := by
  have notList : ∀ rest, called word inner = '[' :: rest → False := by
    intro rest same
    cases letters : word.toList with
    | nil => simp [called, letters] at same
    | cons char letters' =>
        have bracket := plain char (by rw [letters]; exact List.mem_cons_self)
        simp only [called, letters, List.cons_append, List.cons.injEq] at same
        rw [same.1] at bracket
        cases bracket
  rw [readValue_eq notList, Call.read_called found plain written balanced]
  exact read _

/-- A valid phrase is read, and denotes its expression. -/
theorem Valid.readValue {phrase : Phrase} (valid : phrase.Valid) (position : Nat) :
    readValue position phrase.text = .ok phrase.expression := by
  induction valid generalizing position with
  | @literal text plain =>
      have notList : ∀ rest, text = '[' :: rest → False := by
        intro rest same
        have bracket := plain '[' (by rw [same]; exact List.mem_cons_self)
        cases bracket
      rw [Phrase.text, readValue_eq notList, Call.read_none plain]
      exact map_eq_ok_iff.mpr ⟨_, readLiteral_of_isPlain plain position, rfl⟩
  | @list items written each =>
      obtain ⟨depth, balanced⟩ := exists_balanced_items each
      have closed := enclosed_of_balanced balanced '[' (position + 1)
      have read := readItems_commas written each (position + 1)
      rw [Phrase.text, List.cons_append, QueryGate.readValue]
      exact bind_eq_ok_iff.mpr ⟨_, closed, bind_eq_ok_iff.mpr ⟨_, read, rfl⟩⟩
  | oneOf written each =>
      obtain ⟨depth, balanced⟩ := exists_balanced_items each
      have notEmpty := commas_ne_nil written fun item member => (each item member).1
      have named : Operator.ofWord? "in" = some .oneOf := rfl
      apply readValue_called named (by decide) notEmpty balanced
      intro inside
      exact map_eq_ok_iff.mpr ⟨_, readItems_commas written each inside, rfl⟩
  | like written plain =>
      obtain ⟨depth, balanced⟩ := plain.balanced
      have named : Operator.ofWord? "like" = some .like := rfl
      apply readValue_called named (by decide) written balanced
      intro inside
      exact map_eq_ok_iff.mpr ⟨_, readLiteral_of_isPlain plain inside, rfl⟩
  | notLike written plain =>
      obtain ⟨depth, balanced⟩ := plain.balanced
      have named : Operator.ofWord? "notLike" = some .notLike := rfl
      apply readValue_called named (by decide) written balanced
      intro inside
      exact map_eq_ok_iff.mpr ⟨_, readLiteral_of_isPlain plain inside, rfl⟩
  | not sign written valid hypothesis =>
      obtain ⟨depth, balanced⟩ := valid.balanced
      apply readValue_called (ofWord?_negation sign) (isPlain_negation sign) written balanced
      intro inside
      exact map_eq_ok_iff.mpr ⟨_, hypothesis inside, rfl⟩
  | and written placed valid hypothesis =>
      obtain ⟨depth, balanced⟩ := exists_balanced_operands fun operand member =>
        (valid operand member).balanced
      have named : Operator.ofWord? "and" = some (.connective .and) := rfl
      apply readValue_called named (by decide) (commas_texts_ne_nil written placed) balanced
      intro inside
      obtain ⟨slices, cut, all⟩ := exists_readValues_commas written placed valid hypothesis inside
      exact bind_eq_ok_iff.mpr ⟨slices, cut, map_eq_ok_iff.mpr ⟨_, all, rfl⟩⟩
  | or sign written placed valid hypothesis =>
      obtain ⟨depth, balanced⟩ := exists_balanced_operands fun operand member =>
        (valid operand member).balanced
      apply readValue_called (ofWord?_alternative sign) (isPlain_alternative sign)
        (commas_texts_ne_nil written placed) balanced
      intro inside
      obtain ⟨slices, cut, all⟩ := exists_readValues_commas written placed valid hypothesis inside
      exact bind_eq_ok_iff.mpr ⟨slices, cut, map_eq_ok_iff.mpr ⟨_, all, rfl⟩⟩

end Phrase

/-! ### Nothing else is read -/

theorem not_mem_comma_of_isPlain {text : List Char} (plain : IsPlain text)
    (inside : CommasInside text) : ',' ∉ text := by
  intro member
  obtain ⟨before, after, split⟩ := List.append_of_mem member
  have counted := inside before after split
  have none : before.countP isOpener = 0 := by
    rw [List.countP_eq_zero]
    intro char charMember
    simp [not_opener_of_not_bracket (plain char (by simp [split, charMember]))]
  omega

theorem items_of_readItems {position : Nat} {text : List Char} {found : List String} {depth : Nat}
    (balanced : Balanced depth text) (read : readItems position text = .ok found) :
    ∃ items, items ≠ [] ∧ (∀ item ∈ items, IsItem item) ∧ commas items = text ∧
      items.map String.ofList = found := by
  rw [readItems] at read
  split at read
  · cases read
  · rw [bind_eq_ok_iff] at read
    obtain ⟨slices, cut, all⟩ := read
    obtain ⟨whole, pieces⟩ := pieces_of_arguments balanced cut
    have pairs := mapM_eq_ok_iff.mp all
    refine ⟨slices.map Slice.text, ?_, ?_, whole.symm, ?_⟩
    · simpa using ne_nil_of_arguments cut
    · rw [List.forall_mem_map]
      intro slice member
      have piece := pieces slice member
      obtain ⟨item, readItem⟩ := exists_mapM_eq_ok_iff.mp ⟨found, all⟩ slice member
      have plain : IsPlain slice.text := (readLiteral_eq_ok_iff.mp readItem).1
      exact ⟨piece.written, plain, not_mem_comma_of_isPlain plain piece.inside⟩
    · have texts : List.Forall₂ (fun slice item => id item = String.ofList slice.text) slices found :=
        pairs.imp fun slice item readItem => (readLiteral_eq_ok_iff.mp readItem).2.symm
      have same := map_eq_map_of_pairs texts
      rw [List.map_id] at same
      rw [List.map_map, same]
      rfl

namespace Phrase

/-- The words of an operator. -/
theorem word_of_ofWord? {word : String} {operator : Operator}
    (named : Operator.ofWord? word = some operator) :
    match operator with
    | .like => word = "like"
    | .notLike => word = "notLike"
    | .oneOf => word = "in"
    | .connective .not => ∃ sign, word = negation sign
    | .connective .and => word = "and"
    | .connective .or => ∃ sign, word = alternative sign := by
  simp only [Operator.ofWord?, Connective.ofWord?] at named
  split at named
  · cases named; rfl
  · cases named; rfl
  · cases named; rfl
  · split at named
    · cases named; rfl
    · cases named; exact ⟨false, rfl⟩
    · cases named; exact ⟨true, rfl⟩
    · cases named; exact ⟨false, rfl⟩
    · cases named; exact ⟨true, rfl⟩
    · cases named

/-- Operands that were read one by one are denoted by phrases with their texts. -/
theorem exists_operands {slices : List Slice} {found : List Expression}
    (each : ∀ slice ∈ slices, ∀ operand, readValue slice.position slice.text = .ok operand →
      ∃ phrase : Phrase, phrase.Valid ∧ phrase.text = slice.text ∧ phrase.expression = operand)
    (read : readValues slices = .ok found) :
    ∃ operands : List Phrase, (∀ operand ∈ operands, operand.Valid) ∧
      texts operands = slices.map Slice.text ∧ expressions operands = found := by
  induction slices generalizing found with
  | nil =>
      rw [readValues] at read
      cases read
      exact ⟨[], by simp, rfl, rfl⟩
  | cons slice rest hypothesis =>
      rw [List.forall_mem_cons] at each
      simp only [readValues, bind_eq_ok_iff, pure_eq_ok_iff] at read
      obtain ⟨operand, readOperand, later, readLater, rfl⟩ := read
      obtain ⟨phrase, valid, text, denotes⟩ := each.1 operand readOperand
      obtain ⟨operands, validLater, textsLater, denoteLater⟩ := hypothesis each.2 readLater
      refine ⟨phrase :: operands, ?_, ?_, ?_⟩
      · rw [List.forall_mem_cons]
        exact ⟨valid, validLater⟩
      · rw [texts, text, textsLater, List.map_cons]
      · rw [expressions, denotes, denoteLater]

/-- Operands that were read from a text make up the text, with commas between them. -/
theorem exists_operands_of_arguments {position depth : Nat} {inner : List Char}
    {slices : List Slice} {found : List Expression} (balanced : Balanced depth inner)
    (cut : arguments .operatorArgument position inner = .ok slices)
    (shorter : ∀ position text operand, text.length ≤ inner.length →
      readValue position text = .ok operand →
      ∃ phrase : Phrase, phrase.Valid ∧ phrase.text = text ∧ phrase.expression = operand)
    (read : readValues slices = .ok found) :
    ∃ operands : List Phrase, operands ≠ [] ∧
      (∀ operand ∈ operands, operand.text ≠ [] ∧ CommasInside operand.text) ∧
      (∀ operand ∈ operands, operand.Valid) ∧
      commas (texts operands) = inner ∧ expressions operands = found := by
  obtain ⟨whole, pieces⟩ := pieces_of_arguments balanced cut
  have total := totalLength_arguments cut
  obtain ⟨operands, valid, same, denotes⟩ := exists_operands (fun slice member operand =>
    shorter slice.position slice.text operand (by
      have short := Slice.length_lt_totalLength member
      omega)) read
  refine ⟨operands, ?_, ?_, valid, by rw [same, whole], denotes⟩
  · intro none
    rw [none] at same
    exact ne_nil_of_arguments cut (List.map_eq_nil_iff.mp same.symm)
  · intro operand member
    have placed : operand.text ∈ slices.map Slice.text := by
      rw [← same, texts_eq_map]
      exact List.mem_map_of_mem member
    obtain ⟨slice, sliceMember, equal⟩ := List.mem_map.mp placed
    have piece := pieces slice sliceMember
    rw [equal] at piece
    exact ⟨piece.written, piece.inside⟩

/-- What was read from a call is denoted by a phrase with its text, if so it is for what was
read from shorter texts. -/
theorem exists_phrase_of_readInner {word : String} {operator : Operator} {inside depth : Nat}
    {inner : List Char} {found : Expression} (named : Operator.ofWord? word = some operator)
    (written : inner ≠ []) (balanced : Balanced depth inner)
    (shorter : ∀ position text operand, text.length ≤ inner.length →
      readValue position text = .ok operand →
      ∃ phrase : Phrase, phrase.Valid ∧ phrase.text = text ∧ phrase.expression = operand)
    (read : operator.readInner inside inner = .ok found) :
    ∃ phrase : Phrase, phrase.Valid ∧ phrase.text = called word inner ∧
      phrase.expression = found := by
  have words := word_of_ofWord? named
  cases operator with
  | like =>
      obtain ⟨pattern, readPattern, rfl⟩ := map_eq_ok_iff.mp read
      obtain ⟨plain, rfl⟩ := readLiteral_eq_ok_iff.mp readPattern
      exact ⟨.like inner, .like written plain, by rw [words, Phrase.text], rfl⟩
  | notLike =>
      obtain ⟨pattern, readPattern, rfl⟩ := map_eq_ok_iff.mp read
      obtain ⟨plain, rfl⟩ := readLiteral_eq_ok_iff.mp readPattern
      exact ⟨.notLike inner, .notLike written plain, by rw [words, Phrase.text], rfl⟩
  | oneOf =>
      obtain ⟨found, readFound, rfl⟩ := map_eq_ok_iff.mp read
      obtain ⟨items, some, each, rfl, rfl⟩ := items_of_readItems balanced readFound
      exact ⟨.oneOf items, .oneOf some each, by rw [words, Phrase.text], rfl⟩
  | connective joining =>
      cases joining with
      | not =>
          obtain ⟨sign, rfl⟩ := words
          obtain ⟨operand, readOperand, rfl⟩ := map_eq_ok_iff.mp read
          obtain ⟨phrase, valid, rfl, rfl⟩ := shorter inside inner operand (Nat.le_refl _) readOperand
          exact ⟨.not sign phrase, .not sign written valid, by rw [Phrase.text], rfl⟩
      | and =>
          simp only [Operator.readInner, bind_eq_ok_iff, map_eq_ok_iff] at read
          obtain ⟨slices, cut, operands, readAll, rfl⟩ := read
          obtain ⟨phrases, some, placed, valid, rfl, rfl⟩ :=
            exists_operands_of_arguments balanced cut shorter readAll
          exact ⟨.and phrases, .and some placed valid, by rw [words, Phrase.text], rfl⟩
      | or =>
          obtain ⟨sign, rfl⟩ := words
          simp only [Operator.readInner, bind_eq_ok_iff, map_eq_ok_iff] at read
          obtain ⟨slices, cut, operands, readAll, rfl⟩ := read
          obtain ⟨phrases, some, placed, valid, rfl, rfl⟩ :=
            exists_operands_of_arguments balanced cut shorter readAll
          exact ⟨.or sign phrases, .or sign some placed valid, by rw [Phrase.text], rfl⟩

end Phrase

/-- What was read is denoted by a phrase with that text. -/
theorem exists_phrase_of_readValue {position : Nat} {text : List Char} {found : Expression}
    (read : readValue position text = .ok found) :
    ∃ phrase : Phrase, phrase.Valid ∧ phrase.text = text ∧ phrase.expression = found := by
  by_cases list : ∃ rest, text = '[' :: rest
  · obtain ⟨rest, rfl⟩ := list
    simp only [readValue, bind_eq_ok_iff, pure_eq_ok_iff] at read
    obtain ⟨inner, closed, found, readFound, rfl⟩ := read
    obtain ⟨rfl, depth, balanced⟩ := balanced_of_enclosed closed
    obtain ⟨items, written, each, rfl, rfl⟩ := items_of_readItems balanced readFound
    exact ⟨.list items, .list written each, by rw [Phrase.text]; rfl, rfl⟩
  · rw [readValue_eq (fun rest equal => list ⟨rest, equal⟩), bind_eq_ok_iff] at read
    obtain ⟨call?, called, read⟩ := read
    cases call? with
    | none =>
        obtain ⟨raw, readRaw, rfl⟩ := map_eq_ok_iff.mp read
        obtain ⟨plain, rfl⟩ := readLiteral_eq_ok_iff.mp readRaw
        exact ⟨.literal text, .literal plain, rfl, rfl⟩
    | some call =>
        have inside := Call.length_read called
        obtain ⟨word, whole, named, written, depth, balanced⟩ := Call.called_of_read called
        rw [whole]
        apply exists_phrase_of_readInner named written balanced _ read
        intro innerPosition innerText operand short readOperand
        exact exists_phrase_of_readValue readOperand
termination_by text.length

/-! ### No text has two phrases -/

/-- A word without parentheses and what stands in parentheses behind it can be told apart. -/
theorem called_injective {word other : String} {inner innerOther : List Char}
    (plain : IsPlain word.toList) (plainOther : IsPlain other.toList)
    (same : called word inner = called other innerOther) : word = other ∧ inner = innerOther := by
  have words := congrArg (List.takeWhile (· != '(')) same
  simp only [called, List.append_assoc, List.takeWhile_append_of_pos (ne_paren_of_isPlain plain),
    List.takeWhile_append_of_pos (ne_paren_of_isPlain plainOther)] at words
  have equal : word = other := String.toList_inj.mp (by simpa using words)
  subst equal
  simpa [called] using same

namespace Phrase

/-- What is read from a text is what each phrase with that text denotes. -/
theorem expression_eq_of_text {phrase other : Phrase} (valid : phrase.Valid)
    (validOther : other.Valid) (same : phrase.text = other.text) :
    phrase.expression = other.expression := by
  have read := valid.readValue 0
  rw [same, validOther.readValue 0] at read
  exact (Except.ok.inj read).symm

theorem items_eq_of_map {items others : List (List Char)}
    (same : items.map String.ofList = others.map String.ofList) : items = others :=
  List.map_injective_iff.mpr (fun _ _ => String.ofList_inj.mp) same

theorem eq_of_texts {operands others : List Phrase}
    (each : ∀ operand ∈ operands, ∀ other : Phrase, other.Valid → operand.text = other.text →
      operand = other)
    (validOthers : ∀ other ∈ others, other.Valid) (same : texts operands = texts others) :
    operands = others := by
  induction operands generalizing others with
  | nil =>
      rw [texts_eq_map, texts_eq_map] at same
      simpa using same.symm
  | cons operand rest hypothesis =>
      cases others with
      | nil => simp [texts] at same
      | cons other others =>
          simp only [texts, List.cons.injEq] at same
          rw [List.forall_mem_cons] at each validOthers
          rw [each.1 other validOthers.1 same.1, hypothesis each.2 validOthers.2 same.2]

/-- Operands that make up one text are the same. -/
theorem operands_eq_of_commas {operands others : List Phrase} (written : operands ≠ [])
    (writtenOthers : others ≠ [])
    (placed : ∀ operand ∈ operands, operand.text ≠ [] ∧ CommasInside operand.text)
    (placedOthers : ∀ other ∈ others, other.text ≠ [] ∧ CommasInside other.text)
    (valid : ∀ operand ∈ operands, operand.Valid) (validOthers : ∀ other ∈ others, other.Valid)
    (each : ∀ operand ∈ operands, ∀ other : Phrase, other.Valid → operand.text = other.text →
      operand = other)
    (same : commas (texts operands) = commas (texts others)) : operands = others := by
  apply eq_of_texts each validOthers
  rw [texts_eq_map, texts_eq_map] at same ⊢
  refine eq_of_commas_eq (by simpa using written) (by simpa using writtenOthers) ?_ ?_ same
  · exact List.forall_mem_map.mpr fun operand member =>
      (valid operand member).isPiece (placed operand member)
  · exact List.forall_mem_map.mpr fun other member =>
      (validOthers other member).isPiece (placedOthers other member)

/-- Two phrases have different texts. -/
theorem Valid.eq_of_text {phrase other : Phrase} (valid : phrase.Valid)
    (validOther : other.Valid) (same : phrase.text = other.text) : phrase = other := by
  have meaning := expression_eq_of_text valid validOther same
  induction valid generalizing other with
  | literal _ =>
      cases validOther with
      | literal _ => exact congrArg Phrase.literal same
      | _ => cases meaning
  | list _ _ =>
      cases validOther with
      | list _ _ => exact congrArg Phrase.list (items_eq_of_map (Expression.oneOf.inj meaning))
      | oneOf _ _ => cases same
      | _ => cases meaning
  | oneOf _ _ =>
      cases validOther with
      | list _ _ => cases same
      | oneOf _ _ => exact congrArg Phrase.oneOf (items_eq_of_map (Expression.oneOf.inj meaning))
      | _ => cases meaning
  | like _ _ =>
      cases validOther with
      | like _ _ =>
          exact congrArg Phrase.like (String.ofList_inj.mp (Expression.like.inj meaning))
      | _ => cases meaning
  | notLike _ _ =>
      cases validOther with
      | notLike _ _ =>
          exact congrArg Phrase.notLike (String.ofList_inj.mp (Expression.notLike.inj meaning))
      | _ => cases meaning
  | not sign _ valid hypothesis =>
      cases validOther with
      | not signOther _ validOther =>
          obtain ⟨words, inner⟩ :=
            called_injective (isPlain_negation sign) (isPlain_negation signOther) same
          rw [negation_injective words,
            hypothesis validOther inner (expression_eq_of_text valid validOther inner)]
      | _ => cases meaning
  | and written placed valid hypothesis =>
      cases validOther with
      | and writtenOther placedOther validOther =>
          obtain ⟨-, inner⟩ := called_injective (by decide) (by decide) same
          rw [operands_eq_of_commas written writtenOther placed placedOther valid validOther
            (fun operand member other validOther same => hypothesis operand member validOther same
              (expression_eq_of_text (valid operand member) validOther same)) inner]
      | _ => cases meaning
  | or sign written placed valid hypothesis =>
      cases validOther with
      | or signOther writtenOther placedOther validOther =>
          obtain ⟨words, inner⟩ :=
            called_injective (isPlain_alternative sign) (isPlain_alternative signOther) same
          rw [alternative_injective words,
            operands_eq_of_commas written writtenOther placed placedOther valid validOther
            (fun operand member other validOther same => hypothesis operand member validOther same
              (expression_eq_of_text (valid operand member) validOther same)) inner]
      | _ => cases meaning

end Phrase

/-- Reading accepts the texts of valid phrases and no others, and answers what the phrase
denotes; and no text has two phrases. -/
theorem readValue_eq_ok_iff_phrase :
    (∀ position text expression, readValue position text = .ok expression ↔
      ∃ phrase : Phrase, phrase.Valid ∧ phrase.text = text ∧ phrase.expression = expression) ∧
    ∀ phrase other : Phrase, phrase.Valid → other.Valid → phrase.text = other.text →
      phrase = other := by
  constructor
  · intro position text expression
    constructor
    · exact exists_phrase_of_readValue
    · intro found
      obtain ⟨phrase, valid, rfl, rfl⟩ := found
      exact valid.readValue position
  · intro phrase other valid validOther same
    exact valid.eq_of_text validOther same

theorem readValue_eq_ok_iff_phrase_alternative :
    readValue 0 "or(a,!(b),[c,d])".toList =
        .ok (.or [.literal "a", .not (.literal "b"), .oneOf ["c", "d"]]) ∧
      ∀ phrase : Phrase, phrase.Valid → phrase.text = "or(a,!(b),[c,d])".toList →
        phrase = .or false [.literal ['a'], .not true (.literal ['b']), .list [['c'], ['d']]] := by
  have opens : isOpener '[' = true := rfl
  have list : CommasInside (Phrase.list [['c'], ['d']]).text :=
    .bracketed opens (.of_plain 0 (by decide))
  have valid : (Phrase.or false
      [.literal ['a'], .not true (.literal ['b']), .list [['c'], ['d']]]).Valid := by
    refine .or false (by simp) ?_ ?_
    · simp only [List.forall_mem_cons]
      exact ⟨⟨by decide, .of_not_mem (by decide)⟩, ⟨by decide, .of_not_mem (by decide)⟩,
        ⟨by decide, list⟩, by simp⟩
    · simp only [List.forall_mem_cons]
      exact ⟨.literal (by decide), .not true (by decide) (.literal (by decide)),
        .list (by decide) (by unfold IsItem; decide), by simp⟩
  obtain ⟨accepts, unique⟩ := readValue_eq_ok_iff_phrase
  exact ⟨(accepts _ _ _).mpr ⟨_, valid, by decide, rfl⟩,
    fun phrase other same => unique phrase _ other valid same⟩

end QueryGate
