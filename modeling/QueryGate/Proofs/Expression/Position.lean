import QueryGate.Proofs.Expression.Reader
import QueryGate.Query.Function

/-!
# What is read does not depend on where it stands

The readers are told the position of their text for the sake of errors alone. A text
that is read at one position is read with the same result at every other.
-/

namespace QueryGate

variable {position : Nat}

/-- The reader gives one result at all positions, if it gives any. -/
def ReadsAnywhere {α : Type} (read : Nat → List Char → Except QueryError α) (text : List Char) :
    Prop :=
  ∀ ⦃position other : Nat⦄ ⦃result : α⦄,
    read position text = .ok result → read other text = .ok result

/-- Slices of the same texts, wherever they stand. -/
def Slice.SameTexts (slices others : List Slice) : Prop :=
  List.Forall₂ (fun slice other => slice.text = other.text) slices others

theorem firstMatch?_eq_none_iff {test : Char → Bool} {text : List Char} :
    firstMatch? test position text = none ↔ ∀ char ∈ text, test char = false := by
  induction text generalizing position with
  | nil => simp [firstMatch?]
  | cons char rest hypothesis =>
      rw [firstMatch?, List.forall_mem_cons]
      split <;> simp [*]

theorem readLiteral_eq_ok_iff {text : List Char} {literal : String} :
    readLiteral position text = .ok literal ↔
      (∀ char ∈ text, isBracket char = false) ∧ String.ofList text = literal := by
  rw [readLiteral, ← @firstMatch?_eq_none_iff position]
  split <;> simp [*]

theorem readName_eq_ok_iff {text : List Char} {name : String} :
    readName position text = .ok name ↔
      text ≠ [] ∧ (∀ char ∈ text, isSeparator char = false) ∧ String.ofList text = name := by
  rw [readName, ← @firstMatch?_eq_none_iff position]
  split
  · simp_all
  · split <;> simp_all

theorem isBracket_of_isSeparator {char : Char} (notSeparator : isSeparator char = false) :
    isBracket char = false := by
  simp only [isSeparator, Bool.or_eq_false_iff] at notSeparator
  exact notSeparator.1.1.1.1

/-- A text that names something: it is not empty, and nothing in it separates. -/
def IsName (name : String) : Prop :=
  name ≠ "" ∧ ∀ char ∈ name.toList, isSeparator char = false

instance (name : String) : Decidable (IsName name) :=
  decidable_of_iff (name ≠ "" ∧ (name.toList.all fun char => !isSeparator char) = true)
    (by simp [IsName])

theorem readName_of_isName {name : String} (named : IsName name) (position : Nat) :
    readName position name.toList = .ok name :=
  readName_eq_ok_iff.mpr ⟨by simpa using named.1, named.2, String.ofList_toList⟩

theorem isName_of_readName {text : List Char} {name : String}
    (read : readName position text = .ok name) : IsName name := by
  obtain ⟨written, plain, rfl⟩ := readName_eq_ok_iff.mp read
  exact ⟨by simpa using written, by rwa [String.toList_ofList]⟩

theorem Connective.isName_of_ofWord? {word : String} {joining : Connective}
    (named : Connective.ofWord? word = some joining) : IsName word := by
  unfold Connective.ofWord? at named
  split at named
  all_goals first | decide | cases named

theorem Operator.isName_of_ofWord? {word : String} {operator : Operator}
    (named : Operator.ofWord? word = some operator) : IsName word := by
  unfold Operator.ofWord? at named
  split at named
  · decide
  · decide
  · decide
  · obtain ⟨joining, found, -⟩ := Option.map_eq_some_iff.mp named
    exact Connective.isName_of_ofWord? found

theorem Connective.isName_word (joining : Connective) : IsName joining.word :=
  isName_of_ofWord? joining.ofWord?_word

theorem Operator.isName_word (operator : Operator) : IsName operator.word :=
  isName_of_ofWord? operator.ofWord?_word

theorem readLiteral_anywhere (text : List Char) : ReadsAnywhere readLiteral text := by
  intro position other literal read
  rw [readLiteral_eq_ok_iff] at read ⊢
  exact read

theorem readName_anywhere (text : List Char) : ReadsAnywhere readName text := by
  intro position other name read
  rw [readName_eq_ok_iff] at read ⊢
  exact read

theorem untilClosed_anywhere {innermost : Char} {outer text : List Char}
    {other : Nat} {pair : List Char × List Char}
    (closed : untilClosed innermost outer position text = .ok pair) :
    untilClosed innermost outer other text = .ok pair := by
  induction text generalizing innermost outer position other pair with
  | nil => simp [untilClosed] at closed
  | cons char rest hypothesis =>
      -- Both texts go on in the same way behind a character that does not end them.
      have goesOn : ∀ {innermost : Char} {outer : List Char},
          (untilClosed innermost outer (position + 1) rest).map (consFirst char) = .ok pair →
          (untilClosed innermost outer (other + 1) rest).map (consFirst char) = .ok pair := by
        intro innermost outer closed
        rw [map_eq_ok_iff] at closed ⊢
        rcases closed with ⟨found, closed, equal⟩
        exact ⟨found, hypothesis closed, equal⟩
      unfold untilClosed at closed ⊢
      split at closed <;> rename_i opens
      · rw [if_pos opens]
        exact goesOn closed
      · rw [if_neg opens]
        split at closed <;> rename_i closes
        · rw [if_pos closes]
          split at closed <;> rename_i matched
          · cases closed
          · rw [if_neg matched]
            cases outer with
            | nil => exact closed
            | cons next outer => exact goesOn closed
        · rw [if_neg closes]
          exact goesOn closed

theorem enclosed_anywhere (opener : Char) (text : List Char) :
    ReadsAnywhere (enclosed opener) text := by
  intro position other inner read
  simp only [enclosed, bind_eq_ok_iff] at read ⊢
  rcases read with ⟨⟨before, after⟩, closed, whole⟩
  refine ⟨(before, after), untilClosed_anywhere closed, ?_⟩
  cases after with
  | nil => exact whole
  | cons char rest => cases whole

theorem cutCommas_anywhere {part : Part} {depth : Nat} {fresh : Bool} {text : List Char}
    {other : Nat} {first : List Char} {later : List Slice}
    (cut : cutCommas part depth fresh position text = .ok (first, later)) :
    ∃ others, cutCommas part depth fresh other text = .ok (first, others) ∧
      Slice.SameTexts later others := by
  induction text generalizing depth fresh position other first later with
  | nil =>
      unfold cutCommas at cut ⊢
      split at cut <;> rename_i ends
      · cases cut
      · cases cut
        rw [if_neg ends]
        exact ⟨[], rfl, .nil⟩
  | cons char rest hypothesis =>
      -- Both texts go on in the same way behind a character that separates nothing.
      have goesOn : ∀ {depth : Nat} {fresh : Bool},
          (cutCommas part depth fresh (position + 1) rest).map (consFirst char) =
            .ok (first, later) →
          ∃ others, (cutCommas part depth fresh (other + 1) rest).map (consFirst char) =
            .ok (first, others) ∧ Slice.SameTexts later others := by
        intro depth fresh cut
        rw [map_eq_ok_iff] at cut
        rcases cut with ⟨⟨restFirst, restLater⟩, cutRest, equal⟩
        cases equal
        rcases hypothesis cutRest with ⟨others, cutOther, same⟩
        exact ⟨others, by rw [cutOther]; rfl, same⟩
      unfold cutCommas at cut ⊢
      split at cut <;> rename_i opens
      · rw [if_pos opens]
        exact goesOn cut
      · rw [if_neg opens]
        split at cut <;> rename_i closes
        · rw [if_pos closes]
          cases depth with
          | zero => cases cut
          | succ depth => exact goesOn cut
        · rw [if_neg closes]
          split at cut <;> rename_i comma
          · rw [if_pos comma]
            split at cut <;> rename_i blank
            · cases cut
            · rw [if_neg blank]
              rw [map_eq_ok_iff] at cut
              rcases cut with ⟨⟨restFirst, restLater⟩, cutRest, equal⟩
              cases equal
              rcases hypothesis cutRest with ⟨others, cutOther, same⟩
              exact ⟨⟨other + 1, restFirst⟩ :: others, by rw [cutOther]; rfl, .cons rfl same⟩
          · rw [if_neg comma]
            exact goesOn cut

theorem arguments_anywhere {part : Part} {text : List Char} {other : Nat}
    {slices : List Slice} (cut : arguments part position text = .ok slices) :
    ∃ others, arguments part other text = .ok others ∧ Slice.SameTexts slices others := by
  rcases map_eq_ok_iff.mp cut with ⟨⟨first, later⟩, cutText, rfl⟩
  rcases cutCommas_anywhere cutText with ⟨others, cutOther, same⟩
  exact ⟨⟨other, first⟩ :: others, by rw [arguments, cutOther]; rfl, .cons rfl same⟩

/-- A traversal has the same results on other items that give the same one by one. -/
theorem mapM_of_pairs {σ α : Type} {related : σ → σ → Prop} {read : σ → Except QueryError α}
    {items others : List σ} {results : List α} (pairs : List.Forall₂ related items others)
    (each : ∀ item ∈ items, ∀ other result, related item other → read item = .ok result →
      read other = .ok result)
    (all : items.mapM read = .ok results) : others.mapM read = .ok results := by
  induction pairs generalizing results with
  | nil => exact all
  | cons first _ hypothesis =>
      rw [List.forall_mem_cons] at each
      simp only [List.mapM_cons, bind_eq_ok_iff, pure_eq_ok_iff] at all ⊢
      rcases all with ⟨result, readFirst, rest, readRest, rfl⟩
      exact ⟨result, each.1 _ result first readFirst, rest, hypothesis each.2 readRest, rfl⟩

/-- What is read slice by slice does not depend on where the slices stand. -/
theorem mapM_anywhere {α : Type} {read : Nat → List Char → Except QueryError α}
    {slices others : List Slice} {results : List α}
    (anywhere : ∀ slice ∈ slices, ReadsAnywhere read slice.text)
    (same : Slice.SameTexts slices others)
    (all : (slices.mapM fun slice => read slice.position slice.text) = .ok results) :
    (others.mapM fun slice => read slice.position slice.text) = .ok results := by
  apply mapM_of_pairs same _ all
  intro slice member other result equal found
  exact equal ▸ anywhere slice member found

theorem readItems_anywhere (text : List Char) : ReadsAnywhere readItems text := by
  intro position other items read
  rw [readItems] at read ⊢
  split at read <;> rename_i written
  · cases read
  · rw [if_neg written]
    rw [bind_eq_ok_iff] at read ⊢
    rcases read with ⟨slices, cut, all⟩
    rcases arguments_anywhere cut with ⟨others, cut, same⟩
    exact ⟨others, cut, mapM_anywhere (fun slice _ => readLiteral_anywhere slice.text) same all⟩

theorem Call.read_none_anywhere {κ : Type} {keyword? : String → Option κ} {part : Part}
    {text : List Char} {other : Nat} (found : Call.read keyword? part position text = .ok none) :
    Call.read keyword? part other text = .ok none := by
  simp only [Call.read] at found ⊢
  split at found
  · rfl
  · split at found
    · cases found
    · rw [bind_eq_ok_iff] at found
      rcases found with ⟨inner, _, found⟩
      split at found <;> cases found

/-- A text is a call of one keyword on one inner text, wherever it stands. -/
theorem Call.read_some_anywhere {κ : Type} {keyword? : String → Option κ} {part : Part}
    {text : List Char} {other : Nat} {call : Call κ}
    (found : Call.read keyword? part position text = .ok (some call)) :
    ∃ inside,
      Call.read keyword? part other text = .ok (some ⟨call.keyword, inside, call.inner⟩) := by
  simp only [Call.read] at found ⊢
  split at found
  · cases found
  · split at found
    · cases found
    · rw [bind_eq_ok_iff] at found
      rcases found with ⟨inner, closed, found⟩
      split at found
      · cases found
      · rename_i written
        cases found
        refine ⟨other + (text.takeWhile (· != '(')).length + 1, ?_⟩
        rw [enclosed_anywhere _ _ closed]
        simp only [bind, Except.bind, if_neg written]
        rfl

theorem Operator.readInner_anywhere (operator : Operator) {inner : List Char}
    {other : Nat} {expression : Expression}
    (shorter : ∀ text : List Char, text.length ≤ inner.length → ReadsAnywhere readValue text)
    (read : operator.readInner position inner = .ok expression) :
    operator.readInner other inner = .ok expression := by
  cases operator with
  | like | notLike =>
      rcases map_eq_ok_iff.mp read with ⟨pattern, found, rfl⟩
      exact map_eq_ok_iff.mpr ⟨pattern, readLiteral_anywhere inner found, rfl⟩
  | oneOf =>
      rcases map_eq_ok_iff.mp read with ⟨items, found, rfl⟩
      exact map_eq_ok_iff.mpr ⟨items, readItems_anywhere inner found, rfl⟩
  | connective joining =>
      cases joining with
      | not =>
          rcases map_eq_ok_iff.mp read with ⟨operand, found, rfl⟩
          exact map_eq_ok_iff.mpr ⟨operand, shorter inner (Nat.le_refl _) found, rfl⟩
      | and | or =>
          simp only [Operator.readInner, bind_eq_ok_iff, map_eq_ok_iff,
            readValues_eq_mapM] at read ⊢
          rcases read with ⟨slices, cut, operands, all, rfl⟩
          rcases arguments_anywhere cut with ⟨others, cut', same⟩
          have total := totalLength_arguments cut
          refine ⟨others, cut', operands, mapM_anywhere ?_ same all, rfl⟩
          intro slice member
          have short := Slice.length_lt_totalLength member
          exact shorter slice.text (by omega)

theorem readValue_anywhere (text : List Char) : ReadsAnywhere readValue text := by
  intro position other expression read
  by_cases list : ∃ rest, text = '[' :: rest
  · rcases list with ⟨rest, rfl⟩
    simp only [readValue, bind_eq_ok_iff, pure_eq_ok_iff] at read ⊢
    rcases read with ⟨inner, closed, items, readAll, rfl⟩
    exact ⟨inner, enclosed_anywhere _ _ closed, items, readItems_anywhere inner readAll, rfl⟩
  · have notList : ∀ rest, text = '[' :: rest → False := fun rest equal => list ⟨rest, equal⟩
    rw [readValue_eq notList, bind_eq_ok_iff] at read ⊢
    rcases read with ⟨found, called, read⟩
    cases found with
    | none =>
        rw [map_eq_ok_iff] at read
        rcases read with ⟨raw, read, rfl⟩
        exact ⟨none, Call.read_none_anywhere called,
          map_eq_ok_iff.mpr ⟨raw, readLiteral_anywhere text read, rfl⟩⟩
    | some call =>
        have inside := Call.length_read called
        rcases Call.read_some_anywhere called with ⟨place, called⟩
        refine ⟨_, called, call.keyword.readInner_anywhere ?_ read⟩
        intro inner short
        exact readValue_anywhere inner
termination_by text.length

/-- Segments of the same keys and values, wherever they stand. -/
def Segment.SameTexts (segments others : List Segment) : Prop :=
  List.Forall₂ (fun segment other => segment.key = other.key ∧ segment.value = other.value)
    segments others

theorem Segment.sameTexts_consSegment {segment other : Segment} {later others : List Segment}
    (equal : segment.key = other.key ∧ segment.value = other.value)
    (same : SameTexts later others) :
    SameTexts (consSegment (segment, later)) (consSegment (other, others)) := by
  have blank : segment.isBlank = other.isBlank := by
    rw [Segment.isBlank, Segment.isBlank, equal.1, equal.2]
  rw [consSegment, consSegment, blank]
  split
  · exact same
  · exact .cons equal same

theorem Segment.cut_anywhere {inValue : Bool} {depth : Nat} {text : List Char} {other : Nat}
    {segment : Segment} {later : List Segment}
    (found : cut inValue depth position text = .ok (segment, later)) :
    ∃ place others,
      cut inValue depth other text = .ok (⟨place, segment.key, segment.value⟩, others) ∧
        SameTexts later others := by
  induction text generalizing inValue depth position other segment later with
  | nil =>
      unfold cut at found ⊢
      split at found <;> rename_i closed
      · cases found
        rw [if_pos closed]
        exact ⟨other, [], rfl, .nil⟩
      · cases found
  | cons char rest hypothesis =>
      -- Both texts go on in the same way behind a character of the segment.
      have goesOn : ∀ {depth : Nat},
          (cut inValue depth (position + 1) rest).map (consChar inValue position char) =
            .ok (segment, later) →
          ∃ place others,
            (cut inValue depth (other + 1) rest).map (consChar inValue other char) =
              .ok (⟨place, segment.key, segment.value⟩, others) ∧ SameTexts later others := by
        intro depth found
        rw [map_eq_ok_iff] at found
        rcases found with ⟨⟨next, nextLater⟩, foundRest, equal⟩
        rcases hypothesis foundRest with ⟨place, others, foundOther, same⟩
        rw [consChar] at equal
        split at equal <;> cases equal
        all_goals
          rename_i passed
          exact ⟨other, others, by rw [foundOther]; simp [Except.map, consChar, passed], same⟩
      unfold cut at found ⊢
      split at found <;> rename_i opens
      · rw [if_pos opens]
        exact goesOn found
      · rw [if_neg opens]
        split at found <;> rename_i closes
        · rw [if_pos closes]
          cases depth with
          | zero => cases found
          | succ depth => exact goesOn found
        · rw [if_neg closes]
          split at found <;> rename_i separator
          · rw [if_pos separator]
            rw [map_eq_ok_iff] at found
            rcases found with ⟨⟨next, nextLater⟩, foundRest, equal⟩
            cases equal
            rcases hypothesis foundRest with ⟨place, others, foundOther, same⟩
            refine ⟨other, consSegment (⟨place, next.key, next.value⟩, others), ?_,
              sameTexts_consSegment ⟨rfl, rfl⟩ same⟩
            rw [foundOther]
            rfl
          · rw [if_neg separator]
            split at found <;> rename_i assigns
            · rw [if_pos assigns]
              rw [map_eq_ok_iff] at found
              rcases found with ⟨⟨next, nextLater⟩, foundRest, equal⟩
              cases equal
              rcases hypothesis foundRest with ⟨place, others, foundOther, same⟩
              exact ⟨other, others, by rw [foundOther]; rfl, same⟩
            · rw [if_neg assigns]
              exact goesOn found

theorem Segment.ofText_anywhere {text : List Char} {other : Nat} {segments : List Segment}
    (found : ofText position text = .ok segments) :
    ∃ others, ofText other text = .ok others ∧ SameTexts segments others := by
  rcases map_eq_ok_iff.mp found with ⟨⟨first, later⟩, foundText, rfl⟩
  rcases cut_anywhere foundText with ⟨place, others, foundOther, same⟩
  exact ⟨consSegment (⟨place, first.key, first.value⟩, others),
    by rw [ofText, foundOther]; rfl, sameTexts_consSegment ⟨rfl, rfl⟩ same⟩

theorem Segment.read_anywhere {segment other : Segment} {row : String × Expression}
    (shorter : ∀ text : List Char, text.length ≤ segment.length → ReadsAnywhere readGroup text)
    (equal : segment.key = other.key ∧ segment.value = other.value)
    (read : segment.read = .ok row) : other.read = .ok row := by
  rcases segment with ⟨position, key, value⟩
  rcases other with ⟨place, key, value⟩
  rcases equal with ⟨rfl, rfl⟩
  cases value with
  | none =>
      simp only [Segment.read] at read ⊢
      split at read
      · rename_i called
        rw [map_eq_ok_iff] at read
        rcases read with ⟨group, readKey, rfl⟩
        rw [if_pos called]
        exact map_eq_ok_iff.mpr ⟨group, shorter key (by simp [Segment.length]) readKey, rfl⟩
      · cases read
  | some value =>
      simp only [Segment.read, bind_eq_ok_iff, pure_eq_ok_iff] at read ⊢
      rcases read with ⟨name, readKey, condition, read, rfl⟩
      exact ⟨name, readName_anywhere key readKey, condition, readValue_anywhere value read, rfl⟩

theorem readCondition_anywhere {text : List Char}
    (shorter : ∀ key : List Char, key.length ≤ text.length → ReadsAnywhere readGroup key) :
    ReadsAnywhere readCondition text := by
  intro position other condition read
  simp only [readCondition_eq, bind_eq_ok_iff, readSegments_eq_mapM] at read ⊢
  rcases read with ⟨segments, cut, rows, all, read⟩
  have total := Segment.totalLength_ofText cut
  rcases Segment.ofText_anywhere cut with ⟨others, cut, same⟩
  refine ⟨others, cut, rows, ?_, ?_⟩
  · apply mapM_of_pairs same _ all
    intro segment member other row equal found
    have short := Segment.length_lt_totalLength member
    apply Segment.read_anywhere _ equal found
    intro key keyShort
    exact shorter key (by omega)
  · split at read
    · cases read
    · rename_i written
      rw [if_neg written]
      exact read

theorem readGroup_anywhere (text : List Char) : ReadsAnywhere readGroup text := by
  intro position other group read
  rw [readGroup_eq, bind_eq_ok_iff] at read ⊢
  rcases read with ⟨found, called, read⟩
  cases found with
  | none => cases read
  | some call =>
      simp only [bind_eq_ok_iff, pure_eq_ok_iff, readConditions_eq_mapM] at read
      rcases read with ⟨slices, cut, conditions, all, rfl⟩
      have inside := Call.length_read called
      have total := totalLength_arguments cut
      rcases Call.read_some_anywhere called with ⟨place, called⟩
      rcases arguments_anywhere cut with ⟨others, cut, same⟩
      refine ⟨_, called, ?_⟩
      simp only [bind_eq_ok_iff, pure_eq_ok_iff, readConditions_eq_mapM]
      refine ⟨others, cut, conditions, mapM_anywhere ?_ same all, rfl⟩
      intro slice member
      have short := Slice.length_lt_totalLength member
      apply readCondition_anywhere
      intro key keyShort
      exact readGroup_anywhere key
termination_by text.length

theorem FunctionCall.read_anywhere (text : List Char) : ReadsAnywhere FunctionCall.read text := by
  intro position other call read
  simp only [FunctionCall.read] at read ⊢
  split at read
  · rw [map_eq_ok_iff] at read
    rcases read with ⟨name, read, rfl⟩
    exact map_eq_ok_iff.mpr ⟨name, readName_anywhere text read, rfl⟩
  · split at read
    · cases read
    · rename_i written
      rw [if_neg written]
      simp only [bind_eq_ok_iff] at read ⊢
      rcases read with ⟨name, readWord, inner, closed, read⟩
      refine ⟨name, readName_anywhere _ readWord, inner, enclosed_anywhere _ _ closed, ?_⟩
      split at read
      · rename_i empty
        rw [if_pos empty]
        exact read
      · rename_i given
        rw [if_neg given]
        simp only [bind_eq_ok_iff, pure_eq_ok_iff] at read ⊢
        rcases read with ⟨slices, cut, names, all, rfl⟩
        rcases arguments_anywhere cut with ⟨others, cut, same⟩
        exact ⟨others, cut, names,
          mapM_anywhere (fun slice _ => readName_anywhere slice.text) same all, rfl⟩

theorem readFields_anywhere (text : List Char) : ReadsAnywhere readFields text := by
  intro position other fields read
  rw [readFields] at read ⊢
  split at read <;> rename_i written
  · cases read
  · rw [if_neg written]
    simp only [bind_eq_ok_iff, pure_eq_ok_iff] at read ⊢
    rcases read with ⟨slices, cut, names, all, rfl⟩
    rcases arguments_anywhere cut with ⟨others, cut, same⟩
    exact ⟨others, cut, names,
      mapM_anywhere (fun slice _ => readName_anywhere slice.text) same all, rfl⟩

theorem readFunctions_anywhere (text : List Char) : ReadsAnywhere readFunctions text := by
  intro position other calls read
  rw [readFunctions] at read ⊢
  split at read <;> rename_i written
  · cases read
  · rw [if_neg written]
    rw [bind_eq_ok_iff] at read ⊢
    rcases read with ⟨slices, cut, all⟩
    rcases arguments_anywhere cut with ⟨others, cut, same⟩
    exact ⟨others, cut,
      mapM_anywhere (fun slice _ => FunctionCall.read_anywhere slice.text) same all⟩

end QueryGate
