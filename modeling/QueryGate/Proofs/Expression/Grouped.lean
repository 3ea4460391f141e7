import Mathlib
import QueryGate.Proofs.Expression.Pieces
import QueryGate.Proofs.Expression.Text

/-!
# Values in groups

A value stands in a group as the condition of a field. It means there what it means by itself,
unless it is a list in square brackets with a `&` in one of its items: a level is cut at each `&`
that stands in no parentheses, so such a list is cut apart.
-/

namespace QueryGate

/-- Each comma and each `&` of a text stands in brackets of the text. -/
def SeparatorsInside (text : List Char) : Prop :=
  ∀ before char after, char = ',' ∨ char = '&' → text = before ++ char :: after →
    before.countP isCloser < before.countP isOpener

instance (text : List Char) : Decidable (SeparatorsInside text) :=
  decidable_of_iff
    (∀ place, (inText : place < text.length) → text[place] = ',' ∨ text[place] = '&' →
      (text.take place).countP isCloser < (text.take place).countP isOpener) <| by
    constructor
    · rintro each before char after separates rfl
      simpa using each before.length (by simp) (by simpa using separates)
    · intro inside place inText separates
      refine inside _ text[place] (text.drop (place + 1)) separates ?_
      rw [List.getElem_cons_drop, List.take_append_drop]

/-- A group of one condition. -/
def conditionText (name : String) (text : List Char) : List Char :=
  called "or" (name.toList ++ '=' :: text)

/-- As the condition of a field, a text is read in a group exactly if it is read by itself, and
then as the same value. -/
def ReadsInGroup (name : String) (text : List Char) : Prop :=
  ((∃ group, readGroup 0 (conditionText name text) = .ok group) ↔
      ∃ value, readValue 0 text = .ok value) ∧
    ∀ value, readValue 0 text = .ok value →
      readGroup 0 (conditionText name text) = .ok (.or, .or [.group [(name, value)]])

/-- Each `&` of a text stands in parentheses of the text. -/
def AmpersandsInside (text : List Char) : Prop :=
  ∀ before after, text = before ++ '&' :: after → before.count ')' < before.count '('

variable {name : String} {text inner : List Char} {value : Expression}

namespace SeparatorsInside

theorem commas (inside : SeparatorsInside text) : CommasInside text :=
  fun before after equal => inside before ',' after (.inl rfl) equal

/-- In front of a `&` a bracket is open. -/
theorem not_isPlain {before after : List Char} (inside : SeparatorsInside text)
    (split : text = before ++ '&' :: after) : ¬IsPlain before := by
  intro plain
  have less := inside before '&' after (.inr rfl) split
  have even := (Balanced.of_plain 0 plain).countP_eq
  omega

end SeparatorsInside

/-- In a call a `&` stands behind the word, in its parentheses. -/
theorem ampersandsInside_called {word : String} {depth : Nat} (plain : IsPlain word.toList)
    (balanced : Balanced depth inner) (inside : SeparatorsInside (called word inner)) :
    AmpersandsInside (called word inner) := by
  intro before after split
  have regrouped : called word inner = word.toList ++ ('(' :: (inner ++ [')'])) := by
    simp [called]
  obtain ⟨front, rfl, equal⟩ | ⟨rest, equal, -⟩ :=
    List.append_eq_append_iff.mp (regrouped.symm.trans split)
  · cases front with
    | nil => cases equal
    | cons opener front =>
        obtain ⟨rfl, equalInner⟩ := List.cons.inj equal
        obtain ⟨more, rfl, equalEnd⟩ | ⟨more, rfl, -⟩ := List.append_eq_append_iff.mp equalInner
        · have closer : '&' ∈ [')'] := by
            rw [equalEnd]
            simp
          exact absurd closer (by decide)
        · obtain ⟨closers, open?, -⟩ := exists_unclosed?_of_append (balanced.unclosed? [])
          have counted := count_of_unclosed? open?
          have even := count_of_unclosed? (plain.unclosed? [])
          simp at counted even ⊢
          omega
  · have plainBefore : IsPlain before := plain.of_subset (equal ▸ List.subset_append_left _ _)
    exact absurd plainBefore (inside.not_isPlain split)

/-- Each `&` of a value stands in parentheses, unless the value is a list in square brackets. -/
theorem ampersandsInside_of_readValue {position : Nat} (inside : SeparatorsInside text)
    (read : readValue position text = .ok value) (notList : ∀ rest, text = '[' :: rest → False) :
    AmpersandsInside text := by
  rw [readValue_eq notList, bind_eq_ok_iff] at read
  obtain ⟨call?, found, read⟩ := read
  cases call? with
  | none =>
      obtain ⟨raw, readRaw, -⟩ := map_eq_ok_iff.mp read
      have plain : IsPlain text := (readLiteral_eq_ok_iff.mp readRaw).1
      intro before after split
      have plainBefore : IsPlain before := plain.of_subset (split ▸ List.subset_append_left _ _)
      exact absurd plainBefore (inside.not_isPlain split)
  | some call =>
      obtain ⟨word, rfl, named, -, depth, balanced⟩ := Call.called_of_read found
      exact ampersandsInside_called (Operator.isPlain_of_ofWord? named) balanced inside

/-- In a list in square brackets nothing stands in parentheses. -/
theorem ampersandsInside_list_iff {position : Nat} {items : List Char}
    (read : readValue position ('[' :: items) = .ok value) :
    AmpersandsInside ('[' :: items) ↔ '&' ∉ items := by
  simp only [readValue, bind_eq_ok_iff] at read
  obtain ⟨inner, closed, found, readFound, -⟩ := read
  obtain ⟨rfl, depth, balanced⟩ := balanced_of_enclosed closed
  obtain ⟨pieces, -, each, rfl, -⟩ := items_of_readItems balanced readFound
  constructor
  · intro inside member
    obtain ⟨before, after, split⟩ := List.append_of_mem member
    have less := inside ('[' :: before) after (by rw [split]; rfl)
    have opens : '(' ∈ '[' :: (commas pieces ++ [closerOf '[']) := by
      rw [split, ← List.cons_append]
      exact List.mem_append_left _ (List.count_pos_iff.mp (by omega))
    have absent : '(' ∉ commas pieces := by
      have plain : ∀ char ∈ commas pieces, char ≠ '(' :=
        forall_mem_commas (by decide) fun piece pieceMember char charMember same => by
          have notBracket := (each piece pieceMember).2.1 char charMember
          rw [same] at notBracket
          cases notBracket
      exact fun member => plain _ member rfl
    simp [closerOf, absent] at opens
  · intro absent before after split
    have member : '&' ∈ '[' :: (commas pieces ++ [closerOf '[']) := by
      rw [split]
      simp
    simp only [List.mem_cons, absent, or_false] at member
    exact absurd member (by decide)

/-- A group of one argument is read as that argument is. -/
theorem readGroup_or {condition : Expression} (piece : IsPiece inner)
    (read : ∀ position, readCondition position inner = .ok condition) (position : Nat) :
    readGroup position (called "or" inner) = .ok (.or, .or [condition]) := by
  obtain ⟨depth, balanced⟩ := piece.balanced
  have named : Connective.ofWord? "or" = some .or := rfl
  have found := Call.read_called named (by decide) piece.written balanced .group position
  obtain ⟨slices, cut, same⟩ := exists_arguments_commas (List.cons_ne_nil inner [])
    (by simpa using piece) .group (position + "or".toList.length + 1)
  rw [commas_single] at cut
  obtain ⟨slice, rfl, text_eq⟩ := List.map_eq_singleton_iff.mp same
  have readSlice := read slice.position
  rw [← text_eq] at readSlice
  rw [readGroup_eq, bind_eq_ok_iff]
  refine ⟨_, found, ?_⟩
  simp only [bind_eq_ok_iff, pure_eq_ok_iff, readConditions_eq_mapM, mapM_eq_ok_iff]
  exact ⟨_, cut, [condition], .cons readSlice .nil, rfl⟩

theorem commasInside_condition (named : IsName name) (inside : SeparatorsInside text) :
    CommasInside (name.toList ++ '=' :: text) := by
  have sign : CommasInside ['='] := .of_not_mem (by decide)
  have assign : CommasInside ('=' :: text) := sign.append (by decide) inside.commas
  exact (CommasInside.of_not_mem named.not_mem_comma).append
    (Balanced.of_plain 0 named.isPlain).countP_eq assign

theorem isPiece_condition {depth : Nat} (named : IsName name) (inside : SeparatorsInside text)
    (balanced : Balanced depth text) : IsPiece (name.toList ++ '=' :: text) :=
  ⟨by simp, commasInside_condition named inside, depth,
    (Balanced.of_plain _ named.isPlain).append (.plain (by decide) balanced)⟩

/-- A value is read in a group if each `&` of it stands in parentheses. -/
theorem readGroup_of_readValue (named : IsName name) (inside : SeparatorsInside text)
    (ampersands : AmpersandsInside text) (read : readValue 0 text = .ok value) :
    readGroup 0 (conditionText name text) = .ok (.or, .or [.group [(name, value)]]) := by
  obtain ⟨phrase, valid, rfl, -⟩ := exists_phrase_of_readValue read
  obtain ⟨depth, balanced⟩ := valid.balanced
  refine readGroup_or (isPiece_condition named inside balanced) (fun position => ?_) 0
  have cutValue := Segment.cut_value balanced.parensMatch
    (by simpa [AmpersandsInside] using ampersands) (position + name.toList.length + 1)
  have cutText : Segment.ofText position (name.toList ++ '=' :: phrase.text) =
      .ok [⟨position, name.toList, some phrase.text⟩] := by
    rw [Segment.ofText, Segment.cut_key named.isPlain named.unseparated, cutValue]
    simp [Except.map, Segment.consSegment, Segment.isBlank]
  rw [readCondition_eq, bind_eq_ok_iff]
  refine ⟨_, cutText, ?_⟩
  rw [bind_eq_ok_iff]
  refine ⟨[(name, value)], ?_, rfl⟩
  rw [readSegments_eq_mapM, mapM_eq_ok_iff]
  refine .cons ?_ .nil
  simp only [Segment.read, bind_eq_ok_iff, pure_eq_ok_iff]
  exact ⟨name, readName_of_isName named position, value, readValue_anywhere phrase.text read, rfl⟩

/-- A condition that is read has a value that is read, and that is not cut apart. -/
theorem readValue_of_readCondition {position : Nat} {condition : Expression} (named : IsName name)
    (inside : SeparatorsInside text)
    (read : readCondition position (name.toList ++ '=' :: text) = .ok condition) :
    AmpersandsInside text ∧ ∃ value, readValue 0 text = .ok value := by
  simp only [readCondition_eq, bind_eq_ok_iff, readSegments_eq_mapM] at read
  obtain ⟨segments, cut, rows, readAll, -⟩ := read
  obtain ⟨next, cutText, rfl⟩ := map_eq_ok_iff.mp cut
  rw [Segment.cut_key named.isPlain named.unseparated] at cutText
  obtain ⟨⟨segment, later⟩, cutValue, rfl⟩ := map_eq_ok_iff.mp cutText
  obtain ⟨front, cuts⟩ := Segment.exists_cutsAt_of_cut cutValue
  obtain ⟨-, given⟩ := Segment.value_of_cut cutValue rfl
  obtain ⟨value, same⟩ := Option.isSome_iff_exists.mp given
  have whole : value = front := by simpa [Segment.textOf, same] using cuts.textOf_eq
  subst whole
  -- The condition was read from what was cut off.
  have member : (⟨position, name.toList, some value⟩ : Segment) ∈
      Segment.consSegment (⟨position, name.toList, segment.value⟩, later) := by
    simp [Segment.consSegment, Segment.isBlank, same]
  obtain ⟨row, readRow⟩ := exists_mapM_eq_ok_iff.mp ⟨rows, readAll⟩ _ member
  simp only [Segment.read, bind_eq_ok_iff] at readRow
  obtain ⟨_, -, found, readFound, -⟩ := readRow
  obtain ⟨rfl, -⟩ | ⟨rest, _, split, -, -⟩ := cuts.ends
  · exact ⟨by simpa [AmpersandsInside] using cuts.inside, found, readValue_anywhere text readFound⟩
  · -- In front of the separator the brackets match, although one should be open.
    obtain ⟨phrase, valid, rfl, -⟩ := exists_phrase_of_readValue readFound
    obtain ⟨depth, balanced⟩ := valid.balanced
    have less := inside phrase.text '&' rest (.inr rfl) split
    have even := balanced.countP_eq
    omega

/-- A group that is read has a value that is read, and that is not cut apart. -/
theorem readValue_of_readGroup {group : Connective × Expression} (named : IsName name)
    (inside : SeparatorsInside text) (read : readGroup 0 (conditionText name text) = .ok group) :
    AmpersandsInside text ∧ ∃ value, readValue 0 text = .ok value := by
  rw [readGroup_eq, bind_eq_ok_iff] at read
  obtain ⟨call?, found, read⟩ := read
  cases call? with
  | none => cases read
  | some call =>
      obtain ⟨word, same, word?, -, depth, balanced⟩ := Call.called_of_read found
      obtain ⟨-, inner⟩ :=
        called_injective (by decide) (Connective.isPlain_of_ofWord? word?) same
      simp only [bind_eq_ok_iff, readConditions_eq_mapM] at read
      obtain ⟨slices, cut, conditions, readAll, -⟩ := read
      rw [← inner] at cut balanced
      obtain ⟨whole, pieces⟩ := pieces_of_arguments balanced cut
      have piece : IsPiece (name.toList ++ '=' :: text) :=
        ⟨by simp, commasInside_condition named inside, depth, balanced⟩
      have single := eq_of_commas_eq (by simpa using ne_nil_of_arguments cut) (by simp)
        (List.forall_mem_map.mpr pieces) (by simpa using piece)
        (by rw [← whole, commas_single] : commas (slices.map Slice.text) =
          commas [name.toList ++ '=' :: text])
      obtain ⟨slice, rfl, text_eq⟩ := List.map_eq_singleton_iff.mp single
      obtain ⟨condition, readSlice⟩ :=
        exists_mapM_eq_ok_iff.mp ⟨conditions, readAll⟩ slice List.mem_cons_self
      rw [text_eq] at readSlice
      exact readValue_of_readCondition named inside readSlice

/-- A value means in a group what it means by itself, exactly if it is not a list in square
brackets with a `&` in it. -/
theorem readsInGroup_iff (named : IsName name) (inside : SeparatorsInside text) :
    ReadsInGroup name text ↔
      ∀ items value, text = '[' :: items → readValue 0 text = .ok value → '&' ∉ items := by
  constructor
  · rintro ⟨-, same⟩ items value rfl read
    obtain ⟨ampersands, -⟩ := readValue_of_readGroup named inside (same value read)
    exact (ampersandsInside_list_iff read).mp ampersands
  · intro whole
    have reads : ∀ value, readValue 0 text = .ok value →
        readGroup 0 (conditionText name text) = .ok (.or, .or [.group [(name, value)]]) := by
      intro value read
      refine readGroup_of_readValue named inside ?_ read
      by_cases list : ∃ items, text = '[' :: items
      · obtain ⟨items, rfl⟩ := list
        exact (ampersandsInside_list_iff read).mpr (whole items value rfl read)
      · exact ampersandsInside_of_readValue inside read fun items same => list ⟨items, same⟩
    refine ⟨⟨?_, ?_⟩, reads⟩
    · rintro ⟨group, read⟩
      exact (readValue_of_readGroup named inside read).2
    · rintro ⟨value, read⟩
      exact ⟨_, reads value read⟩

theorem readsInGroup_iff_titles :
    IsName "title" ∧ SeparatorsInside "in(a&b,c)".toList ∧
      ReadsInGroup "title" "in(a&b,c)".toList := by
  have named : IsName "title" := by decide
  have inside : SeparatorsInside "in(a&b,c)".toList := by decide
  refine ⟨named, inside, (readsInGroup_iff named inside).mpr ?_⟩
  intro items value same
  cases same

/-- A list that is read by itself, and not in a group. -/
theorem not_readsInGroup_list :
    readValue 0 "[a&b]".toList = .ok (.oneOf ["a&b"]) ∧
      readGroup 0 (conditionText "f" "[a&b]".toList) = .error (.unclosed 7 ']') ∧
      ¬ReadsInGroup "f" "[a&b]".toList := by
  have read : readValue 0 "[a&b]".toList = .ok (.oneOf ["a&b"]) := by cbv
  have failed : readGroup 0 (conditionText "f" "[a&b]".toList) = .error (.unclosed 7 ']') := by cbv
  refine ⟨read, failed, ?_⟩
  rintro ⟨-, same⟩
  rw [same _ read] at failed
  cases failed

end QueryGate
