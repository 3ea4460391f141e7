import QueryGate.Proofs.Expression.Depths
import QueryGate.Proofs.Expression.Segment

/-!
# The pieces of a level

Which texts can be cut, and into what, without the cutter's loop: a text can be cut if its
parentheses match. Its segments are then its pieces between the `&` outside parentheses, less
the empty ones, and each stands in the text where it says.
-/

namespace QueryGate

namespace Segment

/-- No front of the text closes more parentheses than it opens, if `depth` are open before it. -/
def Covered (depth : Nat) (text : List Char) : Prop :=
  ∀ front, front <+: text → front.count ')' ≤ depth + front.count '('

/-- The text closes its parentheses and the `depth` ones that are open before it, and no other. -/
structure ParensMatch (depth : Nat) (text : List Char) : Prop where
  covered : Covered depth text
  closed : text.count ')' = depth + text.count '('

/-- Each character with how many parentheses are open before it; `depth` are before the first. -/
def marked (depth : Int) (text : List Char) : List (Char × Int) :=
  text.mapIdx fun place char =>
    (char, depth + (text.take place).count '(' - (text.take place).count ')')

/-- The text between the `&` that stand in no parentheses. -/
def pieces (text : List Char) : List (List (Char × Int)) := (marked 0 text).splitOn ('&', 0)

/-- A piece that stands at `position`: a key, and a value behind the first `=` that stands in no
parentheses. -/
def ofPiece (position : Nat) (piece : List (Char × Int)) : Segment where
  position := position
  key := (piece.takeWhile (· ≠ ('=', 0))).map Prod.fst
  value :=
    match piece.dropWhile (· ≠ ('=', 0)) with
    | [] => none
    | _ :: value => some (value.map Prod.fst)

/-- The pieces that are not empty, the first of all at `position` and each next one behind a
separator. -/
def ofPieces (position : Nat) : List (List (Char × Int)) → List Segment
  | [] => []
  | piece :: rest =>
      if piece = [] then ofPieces (position + piece.length + 1) rest
      else ofPiece position piece :: ofPieces (position + piece.length + 1) rest

variable {inValue : Bool} {depth deeper position : Nat} {text front rest : List Char} {char : Char}
  {segment : Segment} {later : List Segment}

theorem marked_cons (depth : Int) (char : Char) (rest : List Char) :
    marked depth (char :: rest) =
      (char, depth) :: marked (depth + [char].count '(' - [char].count ')') rest :=
  depths_cons depth char rest

@[simp] theorem map_fst_marked (depth : Int) (text : List Char) :
    (marked depth text).map Prod.fst = text :=
  map_fst_depths depth text

/-- The pieces with their separators are all of the text. -/
theorem joined_pieces (text : List Char) :
    joined ((pieces text).map (List.map Prod.fst)) = text := by
  have whole : [('&', (0 : Int))].intercalate (pieces text) = marked 0 text :=
    List.intercalate_splitOn _
  calc joined ((pieces text).map (List.map Prod.fst))
      = ([('&', (0 : Int))].intercalate (pieces text)).map Prod.fst := by
        rw [map_intercalate]
        rfl
    _ = text := by rw [whole, map_fst_marked]

theorem isBlank_ofPiece (position : Nat) (piece : List (Char × Int)) :
    (ofPiece position piece).isBlank = piece.isEmpty := by
  cases piece with
  | nil => rfl
  | cons first piece =>
      by_cases assigns : first = ('=', 0) <;> simp [ofPiece, isBlank, assigns]

/-- The segment in front of the others is dropped where its piece is empty. -/
theorem consSegment_ofPiece (position : Nat) (piece : List (Char × Int))
    (rest : List (List (Char × Int))) :
    consSegment (ofPiece position piece, ofPieces (position + piece.length + 1) rest) =
      ofPieces position (piece :: rest) := by
  simp [consSegment, isBlank_ofPiece, ofPieces]

/-- What is left of a piece: all of it, or a value if its `=` has been passed. -/
def ofRest (inValue : Bool) (position : Nat) (piece : List (Char × Int)) : Segment :=
  if inValue then ⟨position, [], some (piece.map Prod.fst)⟩ else ofPiece position piece

theorem consChar_ofRest (mark : Int) (piece : List (Char × Int))
    (keeps : char = '=' → mark = 0 → inValue = true) :
    (consChar inValue position char (ofRest inValue (position + 1) piece, later)) =
      (ofRest inValue position ((char, mark) :: piece), later) := by
  cases inValue with
  | true => rfl
  | false =>
      have notAssign : (char, mark) ≠ ('=', 0) := by
        rw [ne_eq, Prod.mk.injEq]
        rintro ⟨rfl, rfl⟩
        exact absurd (keeps rfl rfl) (by decide)
      simp [consChar, ofRest, ofPiece, notAssign]

/-- A cut text is cut into its pieces, of which the first is the rest of the segment being read. -/
theorem exists_pieces_of_cut (found : cut inValue depth position text = .ok (segment, later)) :
    ∃ piece others, (marked depth text).splitOn ('&', 0) = piece :: others ∧
      segment = ofRest inValue position piece ∧
      later = ofPieces (position + piece.length + 1) others := by
  -- The depth that a cut counts is the mark of the character it has come to.
  induction text generalizing inValue depth position segment later with
  | nil =>
      rw [cut] at found
      split at found
      · cases found
        refine ⟨[], [], rfl, ?_, rfl⟩
        cases inValue <;> rfl
      · cases found
  | cons char rest hypothesis =>
      obtain ⟨-, -, fails⟩ | ⟨rfl, rfl, cuts⟩ | ⟨rfl, rfl, rfl, cuts⟩ |
          ⟨deeper, counted, inside, keeps, cuts⟩ := cut_cons_cases inValue depth position char rest
      · rw [fails] at found
        cases found
      · rw [cuts] at found
        obtain ⟨⟨next, others⟩, cutRest, equal⟩ := map_eq_ok_iff.mp found
        cases equal
        obtain ⟨piece, pieces, split, rfl, rfl⟩ := hypothesis cutRest
        refine ⟨[], piece :: pieces, ?_, ?_, consSegment_ofPiece _ _ _⟩
        · simpa [marked_cons, List.splitOn_cons_eq_if_modifyHead] using split
        · cases inValue <;> rfl
      · rw [cuts] at found
        obtain ⟨⟨next, others⟩, cutRest, equal⟩ := map_eq_ok_iff.mp found
        cases equal
        obtain ⟨piece, pieces, split, rfl, rfl⟩ := hypothesis cutRest
        refine ⟨('=', 0) :: piece, pieces, ?_, ?_, ?_⟩
        · have split : (marked 0 rest).splitOn ('&', 0) = piece :: pieces := split
          simp [marked_cons, List.splitOn_cons_eq_if_modifyHead, split]
        · simp [ofRest, ofPiece]
        · rw [List.length_cons, Nat.add_right_comm position, Nat.add_assoc position]
      · rw [cuts] at found
        obtain ⟨⟨next, others⟩, cutRest, equal⟩ := map_eq_ok_iff.mp found
        obtain ⟨piece, pieces, split, rfl, rfl⟩ := hypothesis cutRest
        have keepsMark : char = '=' → (depth : Int) = 0 → inValue = true := by
          intro same level
          exact keeps same (by omega)
        rw [consChar_ofRest depth piece keepsMark] at equal
        cases equal
        have mark : (depth : Int) + [char].count '(' - [char].count ')' = deeper := by omega
        have notSeparator : (char, (depth : Int)) ≠ ('&', 0) := by
          rw [ne_eq, Prod.mk.injEq]
          rintro ⟨same, level⟩
          exact inside same (by omega)
        refine ⟨(char, (depth : Int)) :: piece, pieces, ?_, rfl, ?_⟩
        · simp [marked_cons, mark, List.splitOn_cons_eq_if_modifyHead, split, notSeparator]
        · rw [List.length_cons, Nat.add_right_comm position, Nat.add_assoc position]

theorem Covered.nil (depth : Nat) : Covered depth [] := Covers.nil depth

/-- Behind the character `deeper` parentheses are open. -/
theorem Covered.cons_iff (counted : deeper + [char].count ')' = depth + [char].count '(') :
    Covered depth (char :: rest) ↔ Covered deeper rest :=
  Covers.cons_iff counted

theorem ParensMatch.cons_iff (counted : deeper + [char].count ')' = depth + [char].count '(') :
    ParensMatch depth (char :: rest) ↔ ParensMatch deeper rest := by
  have closed : (char :: rest).count ')' = depth + (char :: rest).count '(' ↔
      rest.count ')' = deeper + rest.count '(' := by
    rw [count_cons_eq ')' char rest, count_cons_eq '(' char rest]
    omega
  constructor
  · intro parens
    exact ⟨(Covered.cons_iff counted).mp parens.covered, closed.mp parens.closed⟩
  · intro parens
    exact ⟨(Covered.cons_iff counted).mpr parens.covered, closed.mpr parens.closed⟩

theorem ParensMatch.nil : ParensMatch 0 [] where
  covered := .nil 0
  closed := rfl

theorem parensMatch_of_cut {next : Segment × List Segment}
    (found : cut inValue depth position text = .ok next) : ParensMatch depth text := by
  induction text generalizing inValue depth position next with
  | nil =>
      rw [cut] at found
      split at found
      · rename_i closed
        exact closed ▸ .nil
      · cases found
  | cons char rest hypothesis =>
      obtain ⟨-, -, fails⟩ | ⟨rfl, rfl, cuts⟩ | ⟨rfl, rfl, rfl, cuts⟩ |
          ⟨deeper, counted, -, -, cuts⟩ := cut_cons_cases inValue depth position char rest
      · rw [fails] at found
        cases found
      all_goals
        rw [cuts] at found
        obtain ⟨next, cutRest, -⟩ := map_eq_ok_iff.mp found
        have matched := hypothesis cutRest
      · exact (ParensMatch.cons_iff (by simp)).mpr matched
      · exact (ParensMatch.cons_iff (by simp)).mpr matched
      · exact (ParensMatch.cons_iff counted).mpr matched

/-- A `)` behind a text whose parentheses match closes nothing. -/
theorem ParensMatch.not_covered (matched : ParensMatch depth front)
    (begins : front ++ [')'] <+: text) : ¬Covered depth text := by
  intro covered
  have less := covered _ begins
  have closed := matched.closed
  have closer : [')'].count ')' = 1 := rfl
  have notOpener : [')'].count '(' = 0 := rfl
  rw [List.count_append, List.count_append] at less
  omega

/-- Why a text cannot be cut: its first `)` that closes nothing, or else a parenthesis that is
open at its end. -/
inductive Unmatched (depth position : Nat) (text : List Char) : QueryError → Prop where
  | closer {front : List Char} :
      front ++ [')'] <+: text → ParensMatch depth front →
      Unmatched depth position text (.unexpected (position + front.length) ')')
  | opener :
      Covered depth text → text.count ')' < depth + text.count '(' →
      Unmatched depth position text (.unclosed (position + text.length) ')')

namespace Unmatched

variable {error other : QueryError}

theorem cons (unmatched : Unmatched deeper (position + 1) rest error)
    (counted : deeper + [char].count ')' = depth + [char].count '(') :
    Unmatched depth position (char :: rest) error := by
  cases unmatched with
  | @closer front begins matched =>
      have place : position + 1 + front.length = position + (char :: front).length := by
        rw [List.length_cons]
        omega
      rw [place]
      exact .closer (List.cons_prefix_cons.mpr ⟨rfl, begins⟩)
        ((ParensMatch.cons_iff counted).mpr matched)
  | opener covered less =>
      have place : position + 1 + rest.length = position + (char :: rest).length := by
        rw [List.length_cons]
        omega
      rw [place]
      refine .opener ((Covered.cons_iff counted).mpr covered) ?_
      rw [count_cons_eq ')' char rest, count_cons_eq '(' char rest]
      omega

/-- A text whose parentheses match gives no such reason. -/
theorem not_parensMatch (unmatched : Unmatched depth position text error) :
    ¬ParensMatch depth text := by
  intro matched
  cases unmatched with
  | closer begins matchedFront => exact matchedFront.not_covered begins matched.covered
  | opener _ less => exact absurd matched.closed (by omega)

/-- No text gives two reasons: of two `)` that close nothing only the first has parentheses in
front of it that match. -/
theorem unique (unmatched : Unmatched depth position text error)
    (again : Unmatched depth position text other) : error = other := by
  have same : ∀ {front late : List Char}, ParensMatch depth front → ParensMatch depth late →
      front ++ [')'] <+: late ++ [')'] → front = late := by
    intro front late matched matchedLate begins
    obtain equal | shorter := List.prefix_concat_iff.mp begins
    · exact (List.append_inj' equal rfl).1
    · exact absurd matchedLate.covered (matched.not_covered shorter)
  cases unmatched with
  | closer begins matched =>
      cases again with
      | closer beginsAgain matchedAgain =>
          obtain shorter | longer := List.prefix_or_prefix_of_prefix begins beginsAgain
          · rw [same matched matchedAgain shorter]
          · rw [same matchedAgain matched longer]
      | opener covered => exact absurd covered (matched.not_covered begins)
  | opener covered =>
      cases again with
      | closer beginsAgain matchedAgain =>
          exact absurd covered (matchedAgain.not_covered beginsAgain)
      | opener => rfl

end Unmatched

theorem unmatched_of_cut {error : QueryError}
    (failed : cut inValue depth position text = .error error) :
    Unmatched depth position text error := by
  induction text generalizing inValue depth position with
  | nil =>
      rw [cut] at failed
      split at failed
      · cases failed
      · rename_i opened
        cases failed
        exact .opener (.nil depth) (by simpa [Nat.pos_iff_ne_zero] using opened)
  | cons char rest hypothesis =>
      obtain ⟨rfl, rfl, fails⟩ | ⟨rfl, rfl, cuts⟩ | ⟨rfl, rfl, rfl, cuts⟩ |
          ⟨deeper, counted, -, -, cuts⟩ := cut_cons_cases inValue depth position char rest
      · rw [fails] at failed
        cases failed
        have begins : [] ++ [')'] <+: ')' :: rest := List.prefix_append [')'] rest
        exact .closer begins .nil
      all_goals
        rw [cuts] at failed
        have unmatched := hypothesis (map_eq_error_iff.mp failed)
      · exact unmatched.cons (by simp)
      · exact unmatched.cons (by simp)
      · exact unmatched.cons counted

/-- Nothing is cut off a value whose parentheses match, if each `&` stands in them. -/
theorem cut_value (parens : ParensMatch depth text)
    (inside : ∀ before after, text = before ++ '&' :: after →
      before.count ')' < depth + before.count '(') (position : Nat) :
    cut true depth position text = .ok (⟨position, [], some text⟩, []) := by
  induction text generalizing depth position with
  | nil =>
      have none : depth = 0 := by simpa using parens.closed.symm
      simp [cut, none, start]
  | cons char rest hypothesis =>
      obtain ⟨rfl, rfl, -⟩ | ⟨rfl, rfl, -⟩ | ⟨-, -, isKey, -⟩ | ⟨deeper, counted, -, -, cuts⟩ :=
        cut_cons_cases true depth position char rest
      · have begins : [] ++ [')'] <+: ')' :: rest := List.prefix_append [')'] rest
        exact absurd parens.covered (ParensMatch.nil.not_covered begins)
      · have less := inside [] rest rfl
        simp at less
      · exact absurd isKey (by decide)
      · have insideRest : ∀ before after, rest = before ++ '&' :: after →
            before.count ')' < deeper + before.count '(' := by
          intro before after equal
          have less := inside (char :: before) after (by rw [equal]; rfl)
          rw [count_cons_eq ')', count_cons_eq '('] at less
          omega
        rw [cuts, hypothesis ((ParensMatch.cons_iff counted).mp parens) insideRest]
        rfl

/-- The parentheses of the key match, and so do those of the value. Before what is left of a segment
`depth` are open, in its value if its `=` has been passed and else in its key. -/
structure PartsMatch (inValue : Bool) (depth : Nat) (segment : Segment) : Prop where
  key : ParensMatch (if inValue then 0 else depth) segment.key
  value : ∀ value, segment.value = some value → ParensMatch (if inValue then depth else 0) value

namespace PartsMatch

theorem start (inValue : Bool) (position : Nat) :
    PartsMatch inValue 0 (Segment.start inValue position) where
  key := by cases inValue <;> exact .nil
  value := by
    rintro value same
    cases inValue <;> cases same
    exact .nil

/-- A character of the segment: `deeper` parentheses are open behind it. -/
theorem consChar (parts : PartsMatch inValue deeper segment) (position : Nat)
    (later : List Segment) (counted : deeper + [char].count ')' = depth + [char].count '(') :
    PartsMatch inValue depth (Segment.consChar inValue position char (segment, later)).1 := by
  obtain ⟨key, value⟩ := parts
  cases inValue with
  | true =>
      refine ⟨.nil, ?_⟩
      intro whole same
      obtain ⟨rest, found, rfl⟩ := Option.map_eq_some_iff.mp same
      exact (ParensMatch.cons_iff counted).mpr (value rest found)
  | false => exact ⟨(ParensMatch.cons_iff counted).mpr key, value⟩

end PartsMatch

/-- A text is cut where none of its parentheses is open, at a `=` as well as at a `&`. -/
theorem partsMatch_of_cut (found : cut inValue depth position text = .ok (segment, later)) :
    PartsMatch inValue depth segment ∧ ∀ other ∈ later, PartsMatch false 0 other := by
  induction text generalizing inValue depth position segment later with
  | nil =>
      rw [cut] at found
      split at found
      · rename_i closed
        cases found
        exact ⟨closed ▸ .start inValue position, by simp⟩
      · cases found
  | cons char rest hypothesis =>
      obtain ⟨-, -, fails⟩ | ⟨rfl, rfl, cuts⟩ | ⟨rfl, rfl, rfl, cuts⟩ |
          ⟨deeper, counted, -, -, cuts⟩ := cut_cons_cases inValue depth position char rest
      · rw [fails] at found
        cases found
      all_goals
        rw [cuts] at found
        obtain ⟨⟨next, others⟩, cutRest, equal⟩ := map_eq_ok_iff.mp found
        obtain ⟨first, each⟩ := hypothesis cutRest
      · cases equal
        exact ⟨.start inValue position, forall_mem_consSegment first each⟩
      · cases equal
        exact ⟨⟨.nil, first.value⟩, each⟩
      · have kept : (consChar inValue position char (next, others)).2 = others := by
          cases inValue <;> rfl
        have parts := first.consChar position others counted
        rw [equal] at kept parts
        cases kept
        exact ⟨parts, each⟩

theorem partsMatch_of_ofText {segments : List Segment}
    (found : ofText position text = .ok segments) :
    ∀ segment ∈ segments, PartsMatch false 0 segment := by
  obtain ⟨⟨first, later⟩, cutText, rfl⟩ := map_eq_ok_iff.mp found
  obtain ⟨parts, each⟩ := partsMatch_of_cut cutText
  exact forall_mem_consSegment parts each

theorem exists_ofText_of_parensMatch (parens : ParensMatch 0 text) (position : Nat) :
    ∃ segments, ofText position text = .ok segments := by
  cases result : ofText position text with
  | ok segments => exact ⟨segments, rfl⟩
  | error error =>
      exact absurd parens (unmatched_of_cut (map_eq_error_iff.mp result)).not_parensMatch

/-- A key is no longer than the text that it was cut from. -/
theorem length_key_of_ofText {segments : List Segment}
    (cut : ofText position text = .ok segments) (member : segment ∈ segments) :
    segment.key.length ≤ text.length := by
  have total := totalLength_ofText cut
  have shorter := length_lt_totalLength member
  rw [length] at shorter
  omega

/-- The part stands at `place`, in a text that stands at `position`. -/
def Stands (position : Nat) (text : List Char) (place : Nat) (part : List Char) : Prop :=
  ∃ before after, text = before ++ part ++ after ∧ place = position + before.length

theorem StandsIn.stands_key (stands : segment.StandsIn position text) :
    Stands position text segment.position segment.key := by
  obtain ⟨before, after, rfl, place, -⟩ := stands.split
  rcases segment with ⟨standing, key, value⟩
  cases value with
  | none => exact ⟨before, after, rfl, place⟩
  | some value => exact ⟨before, '=' :: value ++ after, by simp [entryText, parts], place⟩

theorem StandsIn.stands_value {value : List Char} (stands : segment.StandsIn position text)
    (found : segment.value = some value) :
    Stands position text (segment.position + segment.key.length + 1) value := by
  obtain ⟨before, after, rfl, place, -⟩ := stands.split
  rcases segment with ⟨standing, key, value?⟩
  cases found
  have place : standing = position + before.length := place
  refine ⟨before ++ key ++ ['='], after, by simp [entryText, parts], ?_⟩
  simp only [List.length_append, List.length_singleton]
  omega

/-- A level can be cut if and only if its parentheses match. The cut loses and invents nothing:
the segments are the pieces that are not empty, in order, and with their separators the pieces
are all of the text; a key and a value stand where the segment says. A level that cannot be cut
is refused at its first `)` that closes nothing, and at its end if there is none. -/
theorem ofText_eq_pieces (position : Nat) (text : List Char) :
    ((∃ segments, ofText position text = .ok segments) ↔ ParensMatch 0 text) ∧
      joined ((pieces text).map (List.map Prod.fst)) = text ∧
      (∀ segments, ofText position text = .ok segments →
        segments = ofPieces position (pieces text) ∧
          ∀ segment ∈ segments, Stands position text segment.position segment.key ∧
            ∀ value, segment.value = some value →
              segment.valuePosition? = some (segment.position + segment.key.length + 1) ∧
                Stands position text (segment.position + segment.key.length + 1) value) ∧
      ∀ error, ofText position text = .error error ↔ Unmatched 0 position text error := by
  have matched : ∀ segments, ofText position text = .ok segments → ParensMatch 0 text := by
    intro segments found
    obtain ⟨next, cutText, -⟩ := map_eq_ok_iff.mp found
    exact parensMatch_of_cut cutText
  have refused : ∀ error, ofText position text = .error error → Unmatched 0 position text error :=
    fun error failed => unmatched_of_cut (map_eq_error_iff.mp failed)
  refine ⟨⟨fun ⟨segments, found⟩ => matched segments found, ?_⟩, joined_pieces text, ?_,
    fun error => ⟨refused error, ?_⟩⟩
  · intro parens
    cases result : ofText position text with
    | ok segments => exact ⟨segments, rfl⟩
    | error error => exact absurd parens (refused error result).not_parensMatch
  · intro segments found
    have stands := standsIn_of_ofText found
    obtain ⟨⟨first, later⟩, cutText, rfl⟩ := map_eq_ok_iff.mp found
    obtain ⟨piece, others, split, rfl, rfl⟩ := exists_pieces_of_cut cutText
    have split : pieces text = piece :: others := split
    refine ⟨by rw [split]; exact consSegment_ofPiece position piece others, ?_⟩
    intro segment member
    refine ⟨(stands segment member).stands_key, ?_⟩
    intro value same
    exact ⟨by rw [valuePosition?, same]; rfl, (stands segment member).stands_value same⟩
  · intro unmatched
    cases result : ofText position text with
    | ok segments => exact absurd (matched segments result) unmatched.not_parensMatch
    | error other => rw [(refused other result).unique unmatched]

example :
    ofText 3 "&a=1&&(b=2&c)d=e=".toList =
      .ok [⟨4, ['a'], some ['1']⟩, ⟨9, "(b=2&c)d".toList, some "e=".toList⟩] := by
  decide

end Segment

namespace Balanced

variable {depth : Nat} {text : List Char} (balanced : Balanced depth text)
include balanced

/-- As many parentheses are closed as are opened in a text whose brackets match, and never more. -/
theorem parensMatch : Segment.ParensMatch 0 text where
  covered := by
    rintro front ⟨back, rfl⟩
    obtain ⟨closers, open?, -⟩ := exists_unclosed?_of_append (balanced.unclosed? [])
    have counted := count_of_unclosed? open?
    rw [List.count_nil] at counted
    omega
  closed := by
    simpa using count_of_unclosed? (balanced.unclosed? [])

/-- A text whose brackets match can be cut. -/
theorem exists_ofText (position : Nat) : ∃ segments, Segment.ofText position text = .ok segments :=
  Segment.exists_ofText_of_parensMatch balanced.parensMatch position

end Balanced

end QueryGate
