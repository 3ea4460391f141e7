import QueryGate.Proofs.Expression.Commas
import QueryGate.Proofs.Expression.Depths

/-!
# Cutting at commas undoes joining with commas

Which texts can be cut at their commas outside brackets, into what, and what is wrong with the
others, without the cutter's loop. The brackets of a text need not match for that: it is enough
that no front of it closes more brackets than it opens, and the last piece may leave brackets open.
-/

namespace QueryGate

/-- The texts between the commas that stand in no brackets. -/
def betweenCommas (text : List Char) : List (List Char) :=
  ((depths isOpener isCloser 0 text).splitOn (',', 0)).map (List.map Prod.fst)

/-- Behind the text no bracket is open. -/
def NoneOpen (text : List Char) : Prop := text.countP isCloser = text.countP isOpener

/-- Behind the front a piece begins: at the beginning, or behind a comma outside brackets. -/
def BeginsPiece (front : List Char) : Prop :=
  front = [] ∨ ∃ before, front = before ++ [','] ∧ NoneOpen before

/-- A text that can stand behind the last comma: it is not empty, no front of it closes more
brackets than it opens, and its own commas stand in brackets. -/
structure IsLast (text : List Char) : Prop where
  written : text ≠ []
  covers : Covers isOpener isCloser 0 text
  inside : CommasInside text

/-- Texts that can be joined with commas. Only the last may leave brackets open. -/
inductive Joinable : List (List Char) → Prop where
  | last {text : List Char} : IsLast text → Joinable [text]
  | next {text : List Char} {rest : List (List Char)} :
      IsLast text → NoneOpen text → Joinable rest → Joinable (text :: rest)

/-- What is wrong behind a front: a closer closes nothing there, or a piece ends there, at a comma
or with the text, in which nothing is written. -/
inductive Offends (part : Part) (front : List Char) : List Char → Fault → Prop where
  | closer {char : Char} {rest : List Char} :
      isCloser char = true → NoneOpen front → Offends part front (char :: rest) (.unexpected char)
  | comma {rest : List Char} : BeginsPiece front → Offends part front (',' :: rest) (.empty part)
  | last : BeginsPiece front → Offends part front [] (.empty part)

/-- Nothing is wrong behind a front that ends before this one. -/
def ClearUpTo (part : Part) (front rest : List Char) : Prop :=
  ∀ before after fault, front ++ rest = before ++ after → before.length < front.length →
    ¬Offends part before after fault

/-- The error is the first thing that is wrong with a text that stands at `position`. -/
def IsFirstOffence (part : Part) (position : Nat) (text : List Char) (error : QueryError) : Prop :=
  ∃ front rest, text = front ++ rest ∧ error.position = position + front.length ∧
    Offends part front rest error.fault ∧ ClearUpTo part front rest

namespace Slice

/-- Texts as slices that stand one behind the other, the first one at `position`, with a separator
between any two of them. -/
def ofTexts (position : Nat) : List (List Char) → List Slice
  | [] => []
  | text :: rest => ⟨position, text⟩ :: ofTexts (position + text.length + 1) rest

@[simp] theorem map_text_ofTexts (position : Nat) (texts : List (List Char)) :
    (ofTexts position texts).map Slice.text = texts := by
  induction texts generalizing position with
  | nil => rfl
  | cons text rest hypothesis => rw [ofTexts, List.map_cons, hypothesis]

/-- Each slice stands behind the earlier ones and their separators. -/
theorem position_of_ofTexts {position : Nat} {texts : List (List Char)} {earlier later : List Slice}
    {slice : Slice} (split : ofTexts position texts = earlier ++ slice :: later) :
    slice.position = position + totalLength earlier := by
  induction earlier generalizing position texts with
  | nil =>
      cases texts with
      | nil => cases split
      | cons text rest =>
          obtain ⟨rfl, -⟩ := List.cons.inj split
          rfl
  | cons first earlier hypothesis =>
      cases texts with
      | nil => cases split
      | cons text rest =>
          obtain ⟨rfl, splitRest⟩ := List.cons.inj split
          rw [hypothesis splitRest, totalLength_cons]
          simp only [Nat.add_assoc]

end Slice

variable {part : Part} {depth deeper position : Nat} {fresh : Bool} {text rest front : List Char}
  {char : Char} {error : QueryError}

/-! ### Texts that can be cut -/

/-- A comma leaves as many brackets open as are open in front of it. -/
theorem comma_counted : depth + [','].countP isCloser = depth + [','].countP isOpener := rfl

/-- A text is cut exactly if its brackets cover it and nothing is missing in its pieces, and then
into these pieces. -/
theorem cutCommas_eq_ok_iff {piece : List (Char × Int)} {others : List (List (Char × Int))}
    {found : List Char × List Slice}
    (split : (depths isOpener isCloser depth text).splitOn (',', 0) = piece :: others) :
    cutCommas part depth fresh position text = .ok found ↔
      Covers isOpener isCloser depth text ∧ (fresh = true → piece ≠ []) ∧
        (∀ other ∈ others, other ≠ []) ∧
        found = (piece.map Prod.fst,
          Slice.ofTexts (position + piece.length + 1) (others.map (List.map Prod.fst))) := by
  induction text generalizing depth fresh position piece others found with
  | nil =>
      obtain ⟨rfl, rfl⟩ : [] = piece ∧ [] = others := List.cons.inj split
      cases fresh with
      | true => simp [cutCommas]
      | false => simp [cutCommas, Slice.ofTexts, eq_comm]
  | cons char rest hypothesis =>
      obtain ⟨closes, rfl, fails⟩ | ⟨rfl, rfl, rfl, fails⟩ | ⟨rfl, rfl, rfl, cuts⟩ |
          ⟨deeper, counted, inside, cuts⟩ :=
        cutCommas_cons_cases part depth fresh position char rest
      · -- The closer itself is a front that closes more than it opens.
        have uncovered : ¬Covers isOpener isCloser 0 (char :: rest) := by
          intro covers
          have less := covers [char] (List.prefix_append [char] rest)
          simp [closes, isOpener_of_isCloser closes] at less
        simp [fails, uncovered]
      · rw [depths_cons_of_counted comma_counted, List.splitOn_cons_eq_if_modifyHead] at split
        have blank : [] = piece := (List.cons.inj split).1
        simp [fails, ← blank]
      · rw [depths_cons_of_counted comma_counted, List.splitOn_cons_eq_if_modifyHead] at split
        obtain ⟨rfl, rfl⟩ := List.cons.inj split
        obtain ⟨next, later, splitRest⟩ := List.exists_cons_of_ne_nil
          (List.splitOn_ne_nil (',', 0) (depths isOpener isCloser (0 : Nat) rest))
        simp only [cuts, map_eq_ok_iff, hypothesis splitRest, Covers.cons_iff comma_counted,
          splitRest]
        constructor
        · rintro ⟨_, ⟨covers, written, each, rfl⟩, rfl⟩
          refine ⟨covers, by simp, List.forall_mem_cons.mpr ⟨written trivial, each⟩, ?_⟩
          simp [Slice.ofTexts]
        · rintro ⟨covers, -, each, rfl⟩
          obtain ⟨written, each⟩ := List.forall_mem_cons.mp each
          refine ⟨_, ⟨covers, fun _ => written, each, rfl⟩, ?_⟩
          simp [Slice.ofTexts]
      · have notComma : ((char, (depth : Int)) == (',', 0)) = false := by
          rw [beq_eq_false_iff_ne, ne_eq, Prod.mk.injEq]
          rintro ⟨same, level⟩
          exact inside same (by omega)
        rw [depths_cons_of_counted counted, List.splitOn_cons_eq_if_modifyHead, notComma] at split
        obtain ⟨next, later, splitRest⟩ := List.exists_cons_of_ne_nil
          (List.splitOn_ne_nil (',', 0) (depths isOpener isCloser deeper rest))
        rw [splitRest] at split
        obtain ⟨rfl, rfl⟩ := List.cons.inj split
        have place : position + 1 + next.length + 1 =
            position + ((char, (depth : Int)) :: next).length + 1 := by
          rw [List.length_cons]
          omega
        simp only [cuts, map_eq_ok_iff, hypothesis splitRest, Covers.cons_iff counted, place]
        constructor
        · rintro ⟨_, ⟨covers, -, each, rfl⟩, rfl⟩
          exact ⟨covers, fun _ => List.cons_ne_nil _ _, each, rfl⟩
        · rintro ⟨covers, -, each, rfl⟩
          exact ⟨_, ⟨covers, by simp, each, rfl⟩, rfl⟩

theorem arguments_eq_ok_iff {slices : List Slice} :
    arguments part position text = .ok slices ↔
      Covers isOpener isCloser 0 text ∧ (∀ piece ∈ betweenCommas text, piece ≠ []) ∧
        slices = Slice.ofTexts position (betweenCommas text) := by
  obtain ⟨first, others, split⟩ := List.exists_cons_of_ne_nil
    (List.splitOn_ne_nil (',', 0) (depths isOpener isCloser (0 : Nat) text))
  have pieces : betweenCommas text = first.map Prod.fst :: others.map (List.map Prod.fst) :=
    congrArg (List.map (List.map Prod.fst)) split
  simp only [arguments, map_eq_ok_iff, cutCommas_eq_ok_iff split, pieces]
  constructor
  · rintro ⟨_, ⟨covers, written, each, rfl⟩, rfl⟩
    refine ⟨covers, ?_, by simp [Slice.ofTexts]⟩
    simpa using ⟨written trivial, each⟩
  · rintro ⟨covers, each, rfl⟩
    rw [List.forall_mem_cons, List.forall_mem_map] at each
    refine ⟨_, ⟨covers, fun _ => by simpa using each.1, ?_, rfl⟩, by simp [Slice.ofTexts]⟩
    simpa using each.2

/-! ### Texts that can be joined -/

namespace CommasInside

/-- One more character keeps the commas inside, if it is none outside brackets. -/
theorem push (inside : CommasInside front) (covers : Covers isOpener isCloser 0 front)
    (opened : char = ',' → ¬NoneOpen front) : CommasInside (front ++ [char]) := by
  intro before after split
  obtain rfl | ⟨later, last, rfl⟩ := List.eq_nil_or_concat after
  · obtain ⟨rfl, same⟩ := List.append_inj' split rfl
    have less := covers front List.prefix_rfl
    have uneven := opened (List.cons.inj same).1
    rw [NoneOpen] at uneven
    omega
  · rw [List.concat_eq_append, ← List.cons_append, ← List.append_assoc] at split
    exact inside before later (List.append_inj' split rfl).1

end CommasInside

/-- A count of the brackets that are open behind a front is right behind one more character. -/
theorem counted_push (counted : depth + front.countP isCloser = front.countP isOpener)
    (step : deeper + [char].countP isCloser = depth + [char].countP isOpener) :
    deeper + (front ++ [char]).countP isCloser = (front ++ [char]).countP isOpener := by
  rw [List.countP_append, List.countP_append]
  omega

/-- What a cut is in the middle of, with the pieces that it finds, can be joined. -/
theorem joinable_of_cutCommas {first : List Char} {later : List Slice}
    (covers : Covers isOpener isCloser 0 front) (inside : CommasInside front)
    (counted : depth + front.countP isCloser = front.countP isOpener)
    (begun : fresh = false → front ≠ [])
    (cut : cutCommas part depth fresh position text = .ok (first, later)) :
    Joinable ((front ++ first) :: later.map Slice.text) := by
  induction text generalizing depth fresh position front first later with
  | nil =>
      rw [cutCommas] at cut
      cases fresh with
      | true => cases cut
      | false =>
          cases cut
          rw [List.append_nil]
          exact .last ⟨begun rfl, covers, inside⟩
  | cons char rest hypothesis =>
      obtain ⟨-, -, fails⟩ | ⟨-, -, -, fails⟩ | ⟨rfl, rfl, rfl, cuts⟩ |
          ⟨deeper, counted', opened, cuts⟩ :=
        cutCommas_cons_cases part depth fresh position char rest
      · rw [fails] at cut
        cases cut
      · rw [fails] at cut
        cases cut
      · rw [cuts] at cut
        obtain ⟨⟨next, others⟩, cutRest, equal⟩ := map_eq_ok_iff.mp cut
        cases equal
        rw [List.append_nil]
        have joinable := hypothesis (.nil 0) (.of_not_mem List.not_mem_nil) rfl
          (fun given => absurd given (by decide)) cutRest
        exact .next ⟨begun rfl, covers, inside⟩ (by rw [NoneOpen]; omega) joinable
      · rw [cuts] at cut
        obtain ⟨⟨next, others⟩, cutRest, equal⟩ := map_eq_ok_iff.mp cut
        cases equal
        have pushed := counted_push counted counted'
        have insideNext : CommasInside (front ++ [char]) :=
          inside.push covers fun same even => opened same (by rw [NoneOpen] at even; omega)
        have joinable := hypothesis (covers.concat (by omega)) insideNext pushed
          (fun _ => by simp) cutRest
        rw [List.append_assoc] at joinable
        exact joinable

theorem joinable_of_arguments {slices : List Slice}
    (cut : arguments part position text = .ok slices) : Joinable (slices.map Slice.text) := by
  obtain ⟨⟨first, later⟩, found, rfl⟩ := map_eq_ok_iff.mp cut
  exact joinable_of_cutCommas (.nil 0) (.of_not_mem List.not_mem_nil) rfl
    (fun given => absurd given (by decide)) found

/-- A comma outside brackets has its depth in the text that it stands in. -/
theorem not_mem_depths_of_commasInside (inside : CommasInside text) :
    (',', 0) ∉ depths isOpener isCloser 0 text := by
  intro member
  obtain ⟨place, inText, same⟩ := List.mem_mapIdx.mp member
  obtain ⟨comma, level⟩ := Prod.mk.inj same
  have split : text = text.take place ++ ',' :: text.drop (place + 1) := by
    rw [← comma, List.getElem_cons_drop, List.take_append_drop]
  have less := inside _ _ split
  omega

theorem betweenCommas_single (inside : CommasInside text) : betweenCommas text = [text] := by
  rw [betweenCommas, List.splitOn_eq_singleton (not_mem_depths_of_commasInside inside)]
  simp

theorem betweenCommas_append_comma (inside : CommasInside text) (even : NoneOpen text)
    (rest : List Char) : betweenCommas (text ++ ',' :: rest) = text :: betweenCommas rest := by
  have level : (0 : Int) + text.countP isOpener - text.countP isCloser = 0 := by
    rw [NoneOpen] at even
    omega
  have comma : (0 : Int) + [','].countP isOpener - [','].countP isCloser = 0 := rfl
  rw [betweenCommas, depths_append, level, depths_cons, comma,
    List.splitOn_append_cons_self_of_not_mem (not_mem_depths_of_commasInside inside)]
  simp [betweenCommas]

theorem commas_cons_of_ne_nil {pieces : List (List Char)} (written : pieces ≠ [])
    (piece : List Char) : commas (piece :: pieces) = piece ++ ',' :: commas pieces := by
  obtain ⟨next, rest, rfl⟩ := List.exists_cons_of_ne_nil written
  exact commas_cons_cons piece next rest

namespace Joinable

variable {texts : List (List Char)}

theorem ne_nil (joinable : Joinable texts) : texts ≠ [] := by
  cases joinable <;> exact List.cons_ne_nil _ _

theorem isLast (joinable : Joinable texts) : ∀ text ∈ texts, IsLast text := by
  induction joinable with
  | last isLast => simpa using isLast
  | next isLast _ _ hypothesis => exact List.forall_mem_cons.mpr ⟨isLast, hypothesis⟩

theorem betweenCommas_commas (joinable : Joinable texts) : betweenCommas (commas texts) = texts := by
  induction joinable with
  | last isLast => rw [commas_single, betweenCommas_single isLast.inside]
  | next isLast even joinable hypothesis =>
      rw [commas_cons_of_ne_nil joinable.ne_nil, betweenCommas_append_comma isLast.inside even,
        hypothesis]

theorem covers_commas (joinable : Joinable texts) : Covers isOpener isCloser 0 (commas texts) := by
  induction joinable with
  | last isLast =>
      rw [commas_single]
      exact isLast.covers
  | next isLast even joinable hypothesis =>
      rw [commas_cons_of_ne_nil joinable.ne_nil]
      exact isLast.covers.append even ((Covers.cons_iff comma_counted).mpr hypothesis)

/-- Joined texts are cut apart again. -/
theorem exists_arguments (joinable : Joinable texts) (part : Part) (position : Nat) :
    ∃ slices, arguments part position (commas texts) = .ok slices ∧
      slices.map Slice.text = texts := by
  refine ⟨Slice.ofTexts position texts, ?_, Slice.map_text_ofTexts position texts⟩
  rw [arguments_eq_ok_iff, joinable.betweenCommas_commas]
  exact ⟨joinable.covers_commas, fun text member => (joinable.isLast text member).written, rfl⟩

end Joinable

/-! ### Texts that cannot be cut -/

theorem BeginsPiece.noneOpen (begins : BeginsPiece front) : NoneOpen front := by
  obtain rfl | ⟨before, rfl, even⟩ := begins
  · rfl
  · have plain : [','].countP isCloser = 0 ∧ [','].countP isOpener = 0 := ⟨rfl, rfl⟩
    rw [NoneOpen, List.countP_append, List.countP_append, plain.1, plain.2, even]

theorem beginsPiece_append_iff (char : Char) :
    BeginsPiece (front ++ [char]) ↔ char = ',' ∧ NoneOpen front := by
  constructor
  · rintro (empty | ⟨before, same, even⟩)
    · simp at empty
    · obtain ⟨rfl, last⟩ := List.append_inj' same rfl
      exact ⟨(List.cons.inj last).1, even⟩
  · rintro ⟨rfl, even⟩
    exact .inr ⟨front, rfl, even⟩

/-- At one place only one thing is wrong. -/
theorem Offends.unique {fault other : Fault} (offends : Offends part front rest fault)
    (again : Offends part front rest other) : fault = other := by
  cases offends with
  | closer closes =>
      cases again with
      | closer => rfl
      | comma => cases closes
  | comma =>
      cases again with
      | closer closes => cases closes
      | comma => rfl
  | last =>
      cases again with
      | last => rfl

theorem IsFirstOffence.unique {other : QueryError} (first : IsFirstOffence part position text error)
    (again : IsFirstOffence part position text other) : error = other := by
  obtain ⟨front, rest, rfl, place, offends, clear⟩ := first
  obtain ⟨frontAgain, restAgain, split, placeAgain, offendsAgain, clearAgain⟩ := again
  have length : front.length = frontAgain.length := by
    apply Nat.le_antisymm
    · exact Nat.le_of_not_lt fun shorter => clear _ _ _ split shorter offendsAgain
    · exact Nat.le_of_not_lt fun shorter => clearAgain _ _ _ split.symm shorter offends
  obtain ⟨rfl, rfl⟩ := List.append_inj split length
  rcases error with ⟨standing, fault⟩
  rcases other with ⟨standingOther, faultOther⟩
  cases offends.unique offendsAgain
  cases place.trans placeAgain.symm
  rfl

theorem ClearUpTo.nil (part : Part) (rest : List Char) : ClearUpTo part [] rest :=
  fun _ _ _ _ shorter => absurd shorter (Nat.not_lt_zero _)

theorem ClearUpTo.push (clear : ClearUpTo part front (char :: rest))
    (here : ∀ fault, ¬Offends part front (char :: rest) fault) :
    ClearUpTo part (front ++ [char]) rest := by
  intro before after fault split shorter
  have split : front ++ char :: rest = before ++ after := by rw [← split, List.append_cons]
  obtain less | same := Nat.lt_succ_iff_lt_or_eq.mp (by simpa using shorter)
  · exact clear before after fault split less
  · obtain ⟨rfl, rfl⟩ := List.append_inj split same.symm
    exact here fault

/-- A result says what is wrong first with a text, and a success that nothing is. -/
def Reports {α : Type} (part : Part) (position : Nat) (text : List Char) :
    Except QueryError α → Prop
  | .error error => IsFirstOffence part position text error
  | .ok _ => ∀ before after fault, text = before ++ after → ¬Offends part before after fault

theorem Reports.map {α β : Type} {result : Except QueryError α}
    (reports : Reports part position text result) (image : α → β) :
    Reports part position text (result.map image) := by
  cases result <;> exact reports

/-- Nothing is wrong with a text that is read up to its end, if no piece ends there empty. -/
theorem reports_ok {α : Type} (clear : ClearUpTo part front []) (begun : ¬BeginsPiece front)
    (value : α) : Reports part position (front ++ []) (.ok value) := by
  intro before after fault split offends
  have reached : ¬before.length < front.length :=
    fun shorter => clear before after fault split shorter offends
  have length := congrArg List.length split
  simp only [List.length_append, List.length_nil] at length
  obtain rfl : after = [] := List.length_eq_zero_iff.mp (by omega)
  rw [List.append_nil, List.append_nil] at split
  subst split
  cases offends with
  | last begins => exact begun begins

/-- A cut reports what is wrong first, if nothing is in the text in front of it. -/
theorem reports_cutCommas (clear : ClearUpTo part front rest)
    (counted : depth + front.countP isCloser = front.countP isOpener)
    (begins : fresh = true ↔ BeginsPiece front) :
    Reports part position (front ++ rest)
      (cutCommas part depth fresh (position + front.length) rest) := by
  induction rest generalizing depth fresh front with
  | nil =>
      rw [cutCommas]
      cases fresh with
      | true => exact ⟨front, [], rfl, rfl, .last (begins.mp rfl), clear⟩
      | false => exact reports_ok clear (fun begun => absurd (begins.mpr begun) (by decide)) _
  | cons char rest hypothesis =>
      -- Where nothing is wrong, the cut goes on behind the character.
      have goesOn : ∀ {deeper : Nat} {next : Bool},
          (∀ fault, ¬Offends part front (char :: rest) fault) →
          deeper + [char].countP isCloser = depth + [char].countP isOpener →
          (next = true ↔ BeginsPiece (front ++ [char])) →
          Reports part position (front ++ char :: rest)
            (cutCommas part deeper next (position + front.length + 1) rest) := by
        intro deeper next here counted' begins'
        have reports := hypothesis (clear.push here) (counted_push counted counted') begins'
        rw [List.length_append, List.length_singleton, ← Nat.add_assoc, List.append_assoc] at reports
        exact reports
      obtain ⟨closes, rfl, fails⟩ | ⟨rfl, rfl, rfl, fails⟩ | ⟨rfl, rfl, rfl, cuts⟩ |
          ⟨deeper, counted', inside, cuts⟩ :=
        cutCommas_cons_cases part depth fresh (position + front.length) char rest
      · rw [fails]
        exact ⟨front, _, rfl, rfl, .closer closes (by rw [NoneOpen]; omega), clear⟩
      · rw [fails]
        exact ⟨front, _, rfl, rfl, .comma (begins.mp rfl), clear⟩
      · have here : ∀ fault, ¬Offends part front (',' :: rest) fault := by
          rintro _ (⟨closes, -⟩ | ⟨begun⟩)
          · cases closes
          · cases begins.mpr begun
        have even : NoneOpen front := by rw [NoneOpen]; omega
        rw [cuts]
        exact (goesOn here rfl (by simp [beginsPiece_append_iff, even])).map _
      · -- A character of the piece is wrong only where no bracket is open.
        have opened : char = ',' → ¬NoneOpen front := by
          intro same even
          rw [NoneOpen] at even
          exact inside same (by omega)
        have here : ∀ fault, ¬Offends part front (char :: rest) fault := by
          rintro _ (⟨closes, even⟩ | ⟨begun⟩)
          · rw [NoneOpen] at even
            simp [closes, isOpener_of_isCloser closes] at counted'
            omega
          · exact opened rfl begun.noneOpen
        have goesOnIn : false = true ↔ BeginsPiece (front ++ [char]) := by
          rw [beginsPiece_append_iff]
          constructor
          · intro given
            cases given
          · rintro ⟨same, even⟩
            exact absurd even (opened same)
        rw [cuts]
        exact (goesOn here counted' goesOnIn).map _

theorem reports_arguments (part : Part) (position : Nat) (text : List Char) :
    Reports part position text (arguments part position text) :=
  (reports_cutCommas (.nil part text) rfl ⟨fun _ => .inl rfl, fun _ => rfl⟩).map _

theorem arguments_eq_error_iff :
    arguments part position text = .error error ↔ IsFirstOffence part position text error := by
  have reports := reports_arguments part position text
  constructor
  · intro failed
    rwa [failed] at reports
  · intro first
    cases result : arguments part position text with
    | ok slices =>
        rw [result] at reports
        obtain ⟨front, rest, split, -, offends, -⟩ := first
        exact absurd offends (reports front rest error.fault split)
    | error other =>
        rw [result] at reports
        rw [reports.unique first]

/-! ### Both ways -/

/-- A piece stands in joined texts behind the earlier ones and their commas. -/
theorem exists_commas_split (earlier : List Slice) (slice : Slice) (later : List Slice) :
    ∃ before after, commas ((earlier ++ slice :: later).map Slice.text) =
      before ++ slice.text ++ after ∧ before.length = Slice.totalLength earlier := by
  induction earlier with
  | nil =>
      cases later with
      | nil => exact ⟨[], [], by simp, rfl⟩
      | cons next later => exact ⟨[], ',' :: commas ((next :: later).map Slice.text), by simp, rfl⟩
  | cons first earlier hypothesis =>
      obtain ⟨before, after, split, length⟩ := hypothesis
      refine ⟨first.text ++ ',' :: before, after, ?_, ?_⟩
      · rw [List.cons_append, List.map_cons, commas_cons_of_ne_nil (by simp), split]
        simp
      · rw [List.length_append, List.length_cons, length, Slice.totalLength_cons, Nat.add_assoc,
          Nat.add_comm 1]

/-- Cutting at commas undoes joining with commas. A text can be cut if and only if no front of it
closes more brackets than it opens and something is written between any two of its commas outside
brackets. The pieces are then the texts between these commas: joined they are the text, no comma
of a piece stands outside its brackets, and each stands in the text where its slice says. Joined
texts are cut into the same texts if and only if they can be joined. A text that cannot be cut is
refused for the first thing that is wrong with it. -/
theorem arguments_eq_betweenCommas (part : Part) (position : Nat) (text : List Char) :
    ((∃ slices, arguments part position text = .ok slices) ↔
        (∀ front, front <+: text → front.countP isCloser ≤ front.countP isOpener) ∧
          ∀ piece ∈ betweenCommas text, piece ≠ []) ∧
      (∀ slices, arguments part position text = .ok slices →
        slices.map Slice.text = betweenCommas text ∧ commas (slices.map Slice.text) = text ∧
          (∀ slice ∈ slices, CommasInside slice.text) ∧
          ∀ earlier slice later, slices = earlier ++ slice :: later →
            ∃ before after, text = before ++ slice.text ++ after ∧
              before.length = Slice.totalLength earlier ∧
              slice.position = position + before.length) ∧
      (∀ texts, (∃ slices, arguments part position (commas texts) = .ok slices ∧
          slices.map Slice.text = texts) ↔ Joinable texts) ∧
      ∀ error, arguments part position text = .error error ↔
        IsFirstOffence part position text error := by
  refine ⟨?_, ?_, ?_, fun error => arguments_eq_error_iff⟩
  · simp only [arguments_eq_ok_iff, Covers, Nat.zero_add]
    exact ⟨fun ⟨_, covers, written, _⟩ => ⟨covers, written⟩,
      fun ⟨covers, written⟩ => ⟨_, covers, written, rfl⟩⟩
  · intro slices cut
    have whole := commas_of_arguments cut
    have each := (joinable_of_arguments cut).isLast
    obtain ⟨-, -, same⟩ := arguments_eq_ok_iff.mp cut
    refine ⟨by rw [same, Slice.map_text_ofTexts], whole.symm, ?_, ?_⟩
    · exact fun slice member => (each slice.text (List.mem_map_of_mem member)).inside
    · rintro earlier slice later rfl
      obtain ⟨before, after, split, length⟩ := exists_commas_split earlier slice later
      refine ⟨before, after, whole.trans split, length, ?_⟩
      rw [length, Slice.position_of_ofTexts same.symm]
  · intro texts
    constructor
    · rintro ⟨slices, cut, rfl⟩
      exact joinable_of_arguments cut
    · exact fun joinable => joinable.exists_arguments part position

/-- Brackets of two kinds that overlap, and one that stays open, do not keep a text from being cut.
Behind a comma a second one is refused, and the closer behind that is not looked at. -/
theorem arguments_eq_betweenCommas_overlapping :
    arguments .item 5 "a(b,[c),d]e,(f".toList =
        .ok [⟨5, "a(b,[c),d]e".toList⟩, ⟨17, "(f".toList⟩] ∧
      betweenCommas "a(b,[c),d]e,(f".toList = ["a(b,[c),d]e".toList, "(f".toList] ∧
      Joinable ["a(b,[c),d]e".toList, "(f".toList] ∧
      IsFirstOffence .item 5 "a,,b)".toList (.empty 7 .item) := by
  have cut : arguments .item 5 "a(b,[c),d]e,(f".toList =
      .ok [⟨5, "a(b,[c),d]e".toList⟩, ⟨17, "(f".toList⟩] := by decide
  have failed : arguments .item 5 "a,,b)".toList = .error (.empty 7 .item) := by decide
  obtain ⟨-, pieces, joins, -⟩ := arguments_eq_betweenCommas .item 5 "a(b,[c),d]e,(f".toList
  obtain ⟨-, -, -, refused⟩ := arguments_eq_betweenCommas .item 5 "a,,b)".toList
  exact ⟨cut, (pieces _ cut).1.symm, (joins _).mp ⟨_, cut, rfl⟩, (refused _).mp failed⟩

end QueryGate
