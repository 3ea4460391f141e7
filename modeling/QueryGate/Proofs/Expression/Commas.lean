import QueryGate.Proofs.Expression.Brackets

/-!
# Texts between commas

A text is cut at the commas that stand in none of its brackets. Where brackets match, this
undoes joining with commas, and joining with commas undoes it: the pieces are exactly the texts
that are not empty, whose brackets match and whose own commas stand in brackets.
-/

namespace QueryGate

variable {depth : Nat} {text rest : List Char}

/-- Each comma of a text stands in brackets of the text. -/
def CommasInside (text : List Char) : Prop :=
  ∀ before after, text = before ++ ',' :: after →
    before.countP isCloser < before.countP isOpener

/-- Texts with a comma between any two of them. -/
def commas (pieces : List (List Char)) : List Char := [','].intercalate pieces

@[simp] theorem commas_single (piece : List Char) : commas [piece] = piece := by
  simp [commas]

@[simp] theorem commas_cons_cons (piece next : List Char) (rest : List (List Char)) :
    commas (piece :: next :: rest) = piece ++ ',' :: commas (next :: rest) := by
  simp [commas, List.intercalate_cons_cons]

/-- What holds of a comma and of the characters of all pieces holds of every character. -/
theorem forall_mem_commas {holds : Char → Prop} {pieces : List (List Char)} (comma : holds ',')
    (each : ∀ piece ∈ pieces, ∀ char ∈ piece, holds char) : ∀ char ∈ commas pieces, holds char := by
  induction pieces with
  | nil => simp [commas]
  | cons piece rest hypothesis =>
      rw [List.forall_mem_cons] at each
      cases rest with
      | nil =>
          rw [commas_single]
          exact each.1
      | cons next rest =>
          rw [commas_cons_cons, List.forall_mem_append, List.forall_mem_cons]
          exact ⟨each.1, comma, hypothesis each.2⟩

/-- Pieces whose brackets match have a common depth. -/
theorem exists_balanced_all {pieces : List (List Char)}
    (balanced : ∀ piece ∈ pieces, ∃ depth, Balanced depth piece) :
    ∃ depth, ∀ piece ∈ pieces, Balanced depth piece := by
  induction pieces with
  | nil => exact ⟨0, by simp⟩
  | cons piece rest hypothesis =>
      rw [List.forall_mem_cons] at balanced
      obtain ⟨⟨first, balancedFirst⟩, balancedRest⟩ := balanced
      obtain ⟨others, balancedOthers⟩ := hypothesis balancedRest
      refine ⟨max first others, ?_⟩
      rw [List.forall_mem_cons]
      exact ⟨balancedFirst.mono (by omega), fun piece member =>
        (balancedOthers piece member).mono (by omega)⟩

theorem balanced_commas {pieces : List (List Char)}
    (balanced : ∀ piece ∈ pieces, Balanced depth piece) : Balanced depth (commas pieces) := by
  induction pieces with
  | nil => exact .nil depth
  | cons piece rest hypothesis =>
      rw [List.forall_mem_cons] at balanced
      cases rest with
      | nil =>
          rw [commas_single]
          exact balanced.1
      | cons next rest =>
          rw [commas_cons_cons]
          exact balanced.1.append (.plain (by decide) (hypothesis balanced.2))

theorem commas_ne_nil {pieces : List (List Char)} (written : pieces ≠ [])
    (each : ∀ piece ∈ pieces, piece ≠ []) : commas pieces ≠ [] := by
  cases pieces with
  | nil => exact absurd rfl written
  | cons piece rest =>
      have first := each piece List.mem_cons_self
      cases rest with
      | nil => rwa [commas_single]
      | cons next rest => simp

namespace CommasInside

theorem of_not_mem (absent : ',' ∉ text) : CommasInside text := by
  intro before after equal
  rw [equal] at absent
  simp at absent

/-- Text in front that closes as many brackets as it opens makes no difference. -/
theorem of_append (inside : CommasInside (text ++ rest))
    (even : text.countP isOpener = text.countP isCloser) : CommasInside rest := by
  intro before after equal
  have shifted := inside (text ++ before) after (by rw [equal, List.append_assoc])
  rw [List.countP_append, List.countP_append] at shifted
  omega

theorem append (inside : CommasInside text) (even : text.countP isOpener = text.countP isCloser)
    (later : CommasInside rest) : CommasInside (text ++ rest) := by
  intro before after equal
  obtain ⟨more, rfl, equalRest⟩ | ⟨more, equalText, equalRest⟩ := List.append_eq_append_iff.mp equal
  · have counted := later more after equalRest
    rw [List.countP_append, List.countP_append]
    omega
  · cases more with
    | nil =>
        have counted := later [] after equalRest.symm
        simp at counted
    | cons char more =>
        obtain ⟨rfl, -⟩ := List.cons.inj equalRest
        exact inside before more equalText

/-- In brackets any comma may stand. -/
theorem bracketed {opener : Char} (opens : isOpener opener = true) (balanced : Balanced depth text) :
    CommasInside (opener :: text ++ [closerOf opener]) := by
  intro before after equal
  have notComma : ',' ≠ opener ∧ ',' ≠ closerOf opener := by
    constructor
    · intro same
      rw [← same] at opens
      cases opens
    · intro same
      have closes := isCloser_closerOf opener
      rw [← same] at closes
      cases closes
  cases before with
  | nil => exact absurd (List.cons.inj equal).1.symm notComma.1
  | cons char before =>
      obtain ⟨rfl, equalRest⟩ := List.cons.inj equal
      obtain ⟨more, -, equalLast⟩ | ⟨more, equalText, -⟩ := List.append_eq_append_iff.mp equalRest
      · have member : ',' ∈ [closerOf opener] := by
          rw [equalLast]
          simp
        exact absurd (List.mem_singleton.mp member) notComma.2
      · have counted := balanced.countP_le equalText
        simp [opens, closes_of_opens opens]
        omega

/-- In parentheses behind a word any comma may stand. -/
theorem called {word : String} (plain : IsPlain word.toList) (absent : ',' ∉ word.toList)
    (balanced : Balanced depth text) : CommasInside (called word text) := by
  have opens : isOpener '(' = true := rfl
  have even := (Balanced.of_plain 0 plain).countP_eq
  rw [QueryGate.called, List.append_assoc]
  exact (CommasInside.of_not_mem absent).append even (bracketed opens balanced)

theorem not_comma {char : Char} (inside : CommasInside (char :: text)) : char ≠ ',' := by
  intro same
  have counted := inside [] text (by rw [same]; rfl)
  simp at counted

end CommasInside

section Cut

variable {part : Part} {position : Nat}

/-- What a cut does with a character: a closer that closes nothing ends it, and so does a comma
behind nothing; any other comma outside brackets ends a piece, and any other character belongs to
the piece, with `deeper` brackets open behind it. -/
theorem cutCommas_cons_cases (part : Part) (depth : Nat) (fresh : Bool) (position : Nat)
    (char : Char) (rest : List Char) :
    (isCloser char = true ∧ depth = 0 ∧
        cutCommas part depth fresh position (char :: rest) = .error (.unexpected position char)) ∨
      (char = ',' ∧ depth = 0 ∧ fresh = true ∧
        cutCommas part depth fresh position (char :: rest) = .error (.empty position part)) ∨
      (char = ',' ∧ depth = 0 ∧ fresh = false ∧
        cutCommas part depth fresh position (char :: rest) =
          (cutCommas part 0 true (position + 1) rest).map fun (text, later) =>
            ([], ⟨position + 1, text⟩ :: later)) ∨
      ∃ deeper, deeper + [char].countP isCloser = depth + [char].countP isOpener ∧
        (char = ',' → depth ≠ 0) ∧
        cutCommas part depth fresh position (char :: rest) =
          (cutCommas part deeper false (position + 1) rest).map (consFirst char) := by
  by_cases opens : isOpener char = true
  · have notCloser := closes_of_opens opens
    refine .inr (.inr (.inr ⟨depth + 1, by simp [opens, notCloser], ?_, by simp [cutCommas, opens]⟩))
    rintro rfl
    cases opens
  by_cases closes : isCloser char = true
  · cases depth with
    | zero => exact .inl ⟨closes, rfl, by simp [cutCommas, opens, closes]⟩
    | succ depth =>
        exact .inr (.inr (.inr ⟨depth, by simp [opens, closes], by simp,
          by simp [cutCommas, opens, closes]⟩))
  by_cases comma : char = ',' ∧ depth = 0
  · obtain ⟨rfl, rfl⟩ := comma
    cases fresh with
    | true => exact .inr (.inl ⟨rfl, rfl, rfl, by simp [cutCommas, opens, closes]⟩)
    | false => exact .inr (.inr (.inl ⟨rfl, rfl, rfl, by simp [cutCommas, opens, closes]⟩))
  refine .inr (.inr (.inr ⟨depth, by simp [opens, closes], ?_, ?_⟩))
  · exact fun same level => comma ⟨same, level⟩
  · rw [cutCommas.eq_def]
    simp only [opens, closes, comma, if_false, Bool.false_eq_true]

/-- Inside brackets no piece ends in a text whose brackets match. -/
theorem cutCommas_append_inside (balanced : Balanced depth text) (part : Part) (outer : Nat)
    (fresh : Bool) (position : Nat) (rest : List Char) :
    cutCommas part (outer + 1) fresh position (text ++ rest) =
      (cutCommas part (outer + 1) (fresh && text.isEmpty) (position + text.length) rest).map
        (putFirst text) := by
  induction balanced generalizing outer fresh position rest with
  | nil => simp
  | plain plain _ hypothesis =>
      simp only [List.cons_append, cutCommas, not_opener_of_not_bracket plain,
        not_closer_of_not_bracket plain, hypothesis, map_consFirst_putFirst, List.length_cons]
      simp [Nat.add_comm, Nat.add_left_comm]
  | @nest depth opener inner behind opens _ _ insideHypothesis behindHypothesis =>
      simp only [List.cons_append, List.append_assoc, cutCommas, opens, if_true,
        insideHypothesis, isOpener_closerOf, isCloser_closerOf, behindHypothesis,
        map_consFirst_putFirst]
      simp [map_putFirst_putFirst, Nat.add_comm, Nat.add_left_comm]

/-- No piece ends in a text in brackets. -/
theorem cutCommas_bracketed {opener : Char} (opens : isOpener opener = true)
    (balanced : Balanced depth text) (part : Part) (fresh : Bool) (position : Nat)
    (rest : List Char) :
    cutCommas part 0 fresh position (opener :: text ++ closerOf opener :: rest) =
      (cutCommas part 0 false (position + text.length + 2) rest).map
        (putFirst (opener :: text ++ [closerOf opener])) := by
  simp only [List.cons_append, cutCommas, opens, if_true, cutCommas_append_inside balanced,
    isOpener_closerOf, isCloser_closerOf, map_consFirst_putFirst]
  simp [consFirst_eq_putFirst, map_putFirst_putFirst, Nat.add_assoc, Nat.add_comm 1]

/-- Outside brackets no piece ends in a text whose brackets match and whose commas stand in
brackets. -/
theorem cutCommas_append (balanced : Balanced depth text) (inside : CommasInside text)
    (part : Part) (fresh : Bool) (position : Nat) (rest : List Char) :
    cutCommas part 0 fresh position (text ++ rest) =
      (cutCommas part 0 (fresh && text.isEmpty) (position + text.length) rest).map
        (putFirst text) := by
  induction balanced generalizing fresh position rest with
  | nil => simp
  | @plain depth char behind plain _ hypothesis =>
      have even : [char].countP isOpener = [char].countP isCloser := by
        simp [not_opener_of_not_bracket plain, not_closer_of_not_bracket plain]
      have later : CommasInside behind := CommasInside.of_append inside even
      simp only [List.cons_append, cutCommas, not_opener_of_not_bracket plain,
        not_closer_of_not_bracket plain, inside.not_comma, hypothesis later,
        map_consFirst_putFirst, List.length_cons]
      simp [Nat.add_comm, Nat.add_left_comm]
  | @nest depth opener inner behind opens balanced _ _ hypothesis =>
      have later : CommasInside behind := by
        rw [List.append_cons] at inside
        exact inside.of_append (balanced.bracketed opens).countP_eq
      have regrouped : opener :: inner ++ closerOf opener :: behind ++ rest =
          opener :: inner ++ closerOf opener :: (behind ++ rest) := by simp
      rw [regrouped, cutCommas_bracketed opens balanced, hypothesis later, map_putFirst_putFirst]
      simp [Nat.add_assoc, Nat.add_comm, Nat.add_left_comm]

/-- A text that can stand between two commas: it is not empty, its brackets match, and its own
commas stand in brackets. -/
structure IsPiece (text : List Char) : Prop where
  written : text ≠ []
  inside : CommasInside text
  balanced : ∃ depth, Balanced depth text

/-- Pieces with commas between them are cut where these commas are. -/
theorem exists_cutCommas_commas {first : List Char} {others : List (List Char)}
    (pieces : ∀ piece ∈ first :: others, IsPiece piece) (part : Part) (position : Nat) :
    ∃ later, cutCommas part 0 true position (commas (first :: others)) = .ok (first, later) ∧
      later.map Slice.text = others := by
  induction others generalizing first position with
  | nil =>
      have piece := pieces first List.mem_cons_self
      obtain ⟨depth, balanced⟩ := piece.balanced
      have cut := cutCommas_append balanced piece.inside part true position []
      refine ⟨[], ?_, rfl⟩
      rw [List.append_nil] at cut
      rw [commas_single, cut]
      simp [cutCommas, piece.written, Except.map, putFirst]
  | cons next others hypothesis =>
      rw [List.forall_mem_cons] at pieces
      obtain ⟨piece, pieces⟩ := pieces
      obtain ⟨depth, balanced⟩ := piece.balanced
      obtain ⟨later, cut, same⟩ := hypothesis pieces (position + first.length + 1)
      refine ⟨⟨position + first.length + 1, next⟩ :: later, ?_, by rw [List.map_cons, same]⟩
      have notBracket : isOpener ',' = false ∧ isCloser ',' = false := by decide
      rw [commas_cons_cons, cutCommas_append balanced piece.inside]
      simp [cutCommas, notBracket, piece.written, cut, Except.map, putFirst]

/-- Texts with commas between them can be taken apart at these commas. -/
theorem exists_arguments_commas {pieces : List (List Char)} (written : pieces ≠ [])
    (each : ∀ piece ∈ pieces, IsPiece piece) (part : Part) (position : Nat) :
    ∃ slices, arguments part position (commas pieces) = .ok slices ∧
      slices.map Slice.text = pieces := by
  cases pieces with
  | nil => exact absurd rfl written
  | cons first others =>
      obtain ⟨later, cut, same⟩ := exists_cutCommas_commas each part position
      exact ⟨⟨position, first⟩ :: later, by rw [arguments, cut]; rfl, by rw [List.map_cons, same]⟩

/-- Texts with commas between them are read one by one. -/
theorem exists_read_commas {σ α : Type} {read : Nat → List Char → Except QueryError α}
    {sources : List σ} {text : σ → List Char} {image : σ → α} (written : sources ≠ [])
    (pieces : ∀ source ∈ sources, IsPiece (text source))
    (each : ∀ source ∈ sources, ∀ position, read position (text source) = .ok (image source))
    (part : Part) (position : Nat) :
    ∃ slices, arguments part position (commas (sources.map text)) = .ok slices ∧
      (slices.mapM fun slice => read slice.position slice.text) = .ok (sources.map image) := by
  obtain ⟨slices, cut, same⟩ := exists_arguments_commas (by simpa using written)
    (List.forall_mem_map.mpr pieces) part position
  refine ⟨slices, cut, mapM_of_map_eq same ?_⟩
  intro source member slice shown
  rw [shown]
  exact each source member slice.position

/-- There is one way to take a text apart at its commas outside brackets. -/
theorem eq_of_commas_eq {pieces others : List (List Char)} (written : pieces ≠ [])
    (writtenOthers : others ≠ []) (each : ∀ piece ∈ pieces, IsPiece piece)
    (eachOther : ∀ piece ∈ others, IsPiece piece) (same : commas pieces = commas others) :
    pieces = others := by
  obtain ⟨slices, cut, texts⟩ := exists_arguments_commas written each .item 0
  obtain ⟨slicesOther, cutOther, textsOther⟩ :=
    exists_arguments_commas writtenOthers eachOther .item 0
  rw [same, cutOther] at cut
  cases cut
  rw [← texts, textsOther]

/-- The pieces between commas make up the text; each of them can stand there, but the first
may be empty where the text is the rest of a piece. -/
structure CutInto (text : List Char) (fresh : Bool) (first : List Char)
    (others : List (List Char)) : Prop where
  whole : text = commas (first :: others)
  written : fresh = true → first ≠ []
  inside : CommasInside first
  balanced : ∃ depth, Balanced depth first
  pieces : ∀ piece ∈ others, IsPiece piece

theorem commas_append (front first : List Char) (others : List (List Char)) :
    commas ((front ++ first) :: others) = front ++ commas (first :: others) := by
  cases others <;> simp

/-- The pieces of a text and the commas between them make up the text. -/
theorem commas_of_cutCommas {depth : Nat} {fresh : Bool} {first : List Char} {later : List Slice}
    (cut : cutCommas part depth fresh position text = .ok (first, later)) :
    text = commas (first :: later.map Slice.text) := by
  induction text generalizing depth fresh position first later with
  | nil =>
      rw [cutCommas] at cut
      split at cut <;> cases cut
      rfl
  | cons char rest hypothesis =>
      obtain ⟨-, -, fails⟩ | ⟨-, -, -, fails⟩ | ⟨rfl, -, -, cuts⟩ | ⟨_, -, -, cuts⟩ :=
        cutCommas_cons_cases part depth fresh position char rest
      · rw [fails] at cut
        cases cut
      · rw [fails] at cut
        cases cut
      all_goals
        rw [cuts] at cut
        obtain ⟨⟨next, others⟩, cutRest, equal⟩ := map_eq_ok_iff.mp cut
        cases equal
        rw [hypothesis cutRest]
      · rw [List.map_cons, commas_cons_cons]
        rfl
      · -- A character that separates nothing belongs to the first piece.
        exact (commas_append [char] next (others.map Slice.text)).symm

theorem commas_of_arguments {slices : List Slice}
    (cut : arguments part position text = .ok slices) : text = commas (slices.map Slice.text) := by
  obtain ⟨⟨first, later⟩, found, equal⟩ := map_eq_ok_iff.mp cut
  subst equal
  exact commas_of_cutCommas found

/-- A part of a piece in front of the first piece. -/
theorem CutInto.putFirst {fresh : Bool} {front first : List Char} {others : List (List Char)}
    (cut : CutInto text false first others) (written : front ≠ []) (inside : CommasInside front)
    (balanced : Balanced depth front) : CutInto (front ++ text) fresh (front ++ first) others where
  whole := by rw [commas_append, ← cut.whole]
  written := by simp [written]
  inside := inside.append balanced.countP_eq cut.inside
  balanced := by
    obtain ⟨more, later⟩ := cut.balanced
    exact ⟨max depth more, (balanced.mono (by omega)).append (later.mono (by omega))⟩
  pieces := cut.pieces

/-- The pieces of a text whose brackets match, and the commas between them, make up the text. -/
theorem cutInto_of_cutCommas (balanced : Balanced depth text) {fresh : Bool} {first : List Char}
    {later : List Slice} (cut : cutCommas part 0 fresh position text = .ok (first, later)) :
    CutInto text fresh first (later.map Slice.text) := by
  induction balanced generalizing fresh position first later with
  | nil =>
      rw [cutCommas] at cut
      split at cut <;> rename_i stays
      · cases cut
      · cases cut
        exact ⟨rfl, fun given => absurd given stays, .of_not_mem (by simp), ⟨0, .nil 0⟩, by simp⟩
  | @plain depth char behind plain _ hypothesis =>
      simp only [cutCommas, not_opener_of_not_bracket plain, not_closer_of_not_bracket plain,
        Bool.false_eq_true, if_false, and_true] at cut
      split at cut
      · rename_i comma
        subst comma
        split at cut
        · cases cut
        · rename_i stays
          obtain ⟨⟨next, others⟩, cutRest, equal⟩ := map_eq_ok_iff.mp cut
          cases equal
          have rest := hypothesis cutRest
          refine ⟨?_, fun given => absurd given stays, .of_not_mem (by simp), ⟨0, .nil 0⟩, ?_⟩
          · rw [List.map_cons, commas_cons_cons, rest.whole]
            rfl
          · rw [List.map_cons, List.forall_mem_cons]
            exact ⟨⟨rest.written rfl, rest.inside, rest.balanced⟩, rest.pieces⟩
      · rename_i notComma
        obtain ⟨⟨next, others⟩, cutRest, equal⟩ := map_eq_ok_iff.mp cut
        cases equal
        have inside : CommasInside [char] := .of_not_mem (by simpa using Ne.symm notComma)
        exact (hypothesis cutRest).putFirst (List.cons_ne_nil char []) inside
          (.plain plain (.nil 0))
  | @nest depth opener inner behind opens balanced _ _ hypothesis =>
      rw [cutCommas_bracketed opens balanced] at cut
      obtain ⟨⟨next, others⟩, cutRest, equal⟩ := map_eq_ok_iff.mp cut
      cases equal
      have whole : CutInto _ fresh _ _ := (hypothesis cutRest).putFirst (by simp)
        (.bracketed opens balanced) (balanced.bracketed opens)
      simpa using whole

theorem ne_nil_of_arguments {slices : List Slice} (cut : arguments part position text = .ok slices) :
    slices ≠ [] := by
  obtain ⟨pair, found, equal⟩ := map_eq_ok_iff.mp cut
  rw [← equal]
  exact List.cons_ne_nil _ _

theorem pieces_of_arguments (balanced : Balanced depth text) {slices : List Slice}
    (cut : arguments part position text = .ok slices) :
    text = commas (slices.map Slice.text) ∧ ∀ slice ∈ slices, IsPiece slice.text := by
  obtain ⟨⟨first, later⟩, found, equal⟩ := map_eq_ok_iff.mp cut
  subst equal
  have into := cutInto_of_cutCommas balanced found
  refine ⟨into.whole, ?_⟩
  rw [List.forall_mem_cons]
  refine ⟨⟨into.written rfl, into.inside, into.balanced⟩, ?_⟩
  intro slice member
  exact into.pieces slice.text (List.mem_map_of_mem member)

end Cut

end QueryGate
