import QueryGate.Proofs.Expression.Phrase
import QueryGate.Proofs.Expression.Pieces
import QueryGate.Query.Function

/-!
# Where the readers find faults

An error of a reader points into the text that was read: at the character that cannot stand
there, or at the place where a part is missing. A bracket that is not closed is reported behind
the text, as far as the text was cut off; in a text whose brackets match, that is in front of a
`&` which stands in a list.
-/

namespace QueryGate

variable {position : Nat} {text rest front back inner : List Char} {error : QueryError}

/-- What a fault that a reader finds says of the text in front of its place and from there on. -/
def Fault.Fits (before after : List Char) : Fault → Prop
  | unexpected found => ∃ rest, after = found :: rest
  | empty _ => True
  | unclosed expected =>
      expected = ']' ∧ LeavesOpen before expected ∧ ∃ rest, after = '&' :: rest
  | repeatedInclude _ | tooDeep _ => False

namespace QueryError

/-- The error points into a text that stands at a position. -/
def PointsInto (position : Nat) (text : List Char) (error : QueryError) : Prop :=
  ∃ before after, text = before ++ after ∧ error.position = position + before.length ∧
    error.fault.Fits before after

/-- The error is that a text that stands at a position ends before its brackets are closed. -/
def EndsIn (position : Nat) (text : List Char) (error : QueryError) : Prop :=
  ∃ expected, error = .unclosed (position + text.length) expected ∧ LeavesOpen text expected

namespace PointsInto

theorem unexpected {found : Char} {before after : List Char}
    (split : text = before ++ found :: after) :
    PointsInto position text (.unexpected (position + before.length) found) :=
  ⟨before, found :: after, split, rfl, after, rfl⟩

theorem empty {before after : List Char} (split : text = before ++ after) (part : Part) :
    PointsInto position text (.empty (position + before.length) part) :=
  ⟨before, after, split, rfl, trivial⟩

/-- It points into each text around, if no closer is out of place up to there. -/
theorem within {place : Nat} {closers : List Char} (points : error.PointsInto place text)
    (stands : place = position + front.length) (open? : unclosed? [] front = some closers)
    (back : List Char) : error.PointsInto position (front ++ text ++ back) := by
  obtain ⟨before, after, rfl, at?, fits⟩ := points
  refine ⟨front ++ before, after ++ back, by simp, ?_, ?_⟩
  · rw [at?, stands, List.length_append]
    omega
  · rcases error with ⟨_, fault⟩
    cases fault with
    | unexpected found =>
        obtain ⟨rest, rfl⟩ := fits
        exact ⟨rest ++ back, rfl⟩
    | empty part => trivial
    | unclosed expected =>
        obtain ⟨list, ⟨outer, openBefore⟩, rest, rfl⟩ := fits
        refine ⟨list, ⟨outer ++ closers, ?_⟩, rest ++ back, rfl⟩
        rw [unclosed?_append, open?]
        exact unclosed?_outer openBefore closers
    | repeatedInclude | tooDeep => exact fits.elim

end PointsInto

/-- A text whose brackets match does not end before they are closed. -/
theorem EndsIn.not_balanced {depth : Nat} (ends : error.EndsIn position text) :
    ¬Balanced depth text := by
  intro balanced
  obtain ⟨expected, -, outer, open?⟩ := ends
  rw [balanced.unclosed?] at open?
  cases open?

end QueryError

open QueryError

/-! ### Literals and names -/

theorem exists_of_firstMatch? {test : Char → Bool} {place : Nat} {found : Char}
    (matched : firstMatch? test position text = some (place, found)) :
    ∃ before after, text = before ++ found :: after ∧ place = position + before.length := by
  induction text generalizing position with
  | nil => cases matched
  | cons char rest hypothesis =>
      rw [firstMatch?] at matched
      split at matched
      · cases matched
        exact ⟨[], rest, rfl, rfl⟩
      · obtain ⟨before, after, rfl, rfl⟩ := hypothesis matched
        exact ⟨char :: before, after, rfl, by rw [List.length_cons]; omega⟩

theorem pointsInto_of_readLiteral (failed : readLiteral position text = .error error) :
    error.PointsInto position text := by
  rw [readLiteral] at failed
  split at failed
  · rename_i matched
    cases failed
    obtain ⟨before, after, split, rfl⟩ := exists_of_firstMatch? matched
    exact .unexpected split
  · cases failed

theorem pointsInto_of_readName (failed : readName position text = .error error) :
    error.PointsInto position text := by
  rw [readName] at failed
  split at failed
  · cases failed
    exact .empty (List.nil_append text).symm .name
  · split at failed
    · rename_i matched
      cases failed
      obtain ⟨before, after, split, rfl⟩ := exists_of_firstMatch? matched
      exact .unexpected split
    · cases failed

/-! ### Brackets -/

/-- A closer is not found where another one stands in its place, or where the text ends; then
the outermost bracket is still open. -/
theorem fault_of_untilClosed {innermost : Char} {outer : List Char}
    (failed : untilClosed innermost outer position text = .error error) :
    (∃ before found after, text = before ++ found :: after ∧
        error = .unexpected (position + before.length) found) ∨
      ∃ expected others, error = .unclosed (position + text.length) expected ∧
        unclosed? (innermost :: outer) text = some (expected :: others) ∧
        (expected :: others).getLast? = (innermost :: outer).getLast? := by
  induction text generalizing innermost outer position with
  | nil =>
      cases failed
      exact .inr ⟨innermost, outer, rfl, rfl, rfl⟩
  | cons char rest hypothesis =>
      have goesOn : ∀ {next : Char} {others : List Char},
          afterBracket? (innermost :: outer) char = some (next :: others) →
          (next :: others).getLast? = (innermost :: outer).getLast? →
          (untilClosed next others (position + 1) rest).map (consFirst char) = .error error →
          (∃ before found after, char :: rest = before ++ found :: after ∧
              error = .unexpected (position + before.length) found) ∨
            ∃ expected others, error = .unclosed (position + (char :: rest).length) expected ∧
              unclosed? (innermost :: outer) (char :: rest) = some (expected :: others) ∧
              (expected :: others).getLast? = (innermost :: outer).getLast? := by
        intro next others after last failed
        obtain ⟨before, found, behind, rfl, rfl⟩ | ⟨expected, pending, rfl, open?, lastPending⟩ :=
          hypothesis (map_eq_error_iff.mp failed)
        · exact .inl ⟨char :: before, found, behind, rfl, by simp [Nat.add_assoc, Nat.add_comm 1]⟩
        · refine .inr ⟨expected, pending, by simp [Nat.add_assoc, Nat.add_comm 1], ?_,
            lastPending.trans last⟩
          rw [unclosed?_cons, after, Option.bind_some, open?]
      unfold untilClosed at failed
      split at failed
      · rename_i opens
        exact goesOn (afterBracket?_of_opener opens _) (List.getLast?_cons_cons) failed
      · rename_i opens
        split at failed
        · rename_i closes
          split at failed
          · cases failed
            exact .inl ⟨[], char, rest, rfl, rfl⟩
          · rename_i matched
            have same : char = innermost := by simpa using matched
            subst same
            cases outer with
            | nil => cases failed
            | cons next outer =>
                exact goesOn (by simp [afterBracket?, opens, closes])
                  List.getLast?_cons_cons.symm failed
        · rename_i closes
          exact goesOn (by simp [afterBracket?, opens, closes]) rfl failed

theorem fault_of_enclosed {opener : Char}
    (failed : enclosed opener position text = .error error) :
    (∃ before found after, text = before ++ found :: after ∧
        error = .unexpected (position + before.length) found) ∨
      ∃ expected others, error = .unclosed (position + text.length) expected ∧
        unclosed? [closerOf opener] text = some (expected :: others) ∧
        (expected :: others).getLast? = some (closerOf opener) := by
  rw [enclosed, bind_eq_error_iff] at failed
  obtain failed | ⟨⟨before, after⟩, closed, failed⟩ := failed
  · exact fault_of_untilClosed failed
  · obtain ⟨last, split, -⟩ := closes_of_untilClosed closed
    cases after with
    | nil => cases failed
    | cons char after =>
        cases failed
        exact .inl ⟨before ++ [last], char, after, by simp [split],
          by simp [QueryError.unexpected, Nat.add_assoc]⟩

/-! ### Pieces between commas -/

/-- A piece can end in front of this text: at a comma, or because nothing is left. -/
def EndsPiece (behind : List Char) : Prop := behind = [] ∨ ∃ rest, behind = ',' :: rest

theorem fault_of_cutCommas {part : Part} {depth : Nat} {fresh : Bool}
    (failed : cutCommas part depth fresh position text = .error error) :
    ∃ before after, text = before ++ after ∧
      (error = .empty (position + before.length) part ∧ EndsPiece after ∨
        ∃ found rest, after = found :: rest ∧
          error = .unexpected (position + before.length) found) := by
  induction text generalizing depth fresh position with
  | nil =>
      rw [cutCommas] at failed
      split at failed
      · cases failed
        exact ⟨[], [], rfl, .inl ⟨rfl, .inl rfl⟩⟩
      · cases failed
  | cons char rest hypothesis =>
      have goesOn : ∀ {depth : Nat} {fresh : Bool},
          cutCommas part depth fresh (position + 1) rest = .error error →
          ∃ before after, char :: rest = before ++ after ∧
            (error = .empty (position + before.length) part ∧ EndsPiece after ∨
              ∃ found rest, after = found :: rest ∧
                error = .unexpected (position + before.length) found) := by
        intro depth fresh failed
        obtain ⟨before, after, rfl, found⟩ := hypothesis failed
        refine ⟨char :: before, after, rfl, ?_⟩
        rwa [List.length_cons, Nat.add_comm before.length, ← Nat.add_assoc]
      obtain ⟨-, -, fails⟩ | ⟨rfl, -, -, fails⟩ | ⟨-, -, -, cuts⟩ | ⟨_, -, -, cuts⟩ :=
        cutCommas_cons_cases part depth fresh position char rest
      · rw [fails] at failed
        cases failed
        exact ⟨[], char :: rest, rfl, .inr ⟨char, rest, rfl, rfl⟩⟩
      · rw [fails] at failed
        cases failed
        exact ⟨[], ',' :: rest, rfl, .inl ⟨rfl, .inr ⟨rest, rfl⟩⟩⟩
      all_goals
        rw [cuts] at failed
        exact goesOn (map_eq_error_iff.mp failed)

theorem pointsInto_of_arguments {part : Part}
    (failed : arguments part position text = .error error) : error.PointsInto position text := by
  obtain ⟨before, after, split, ⟨rfl, -⟩ | ⟨found, rest, rfl, rfl⟩⟩ :=
    fault_of_cutCommas (map_eq_error_iff.mp failed)
  · exact .empty split part
  · exact .unexpected split

/-- A slice stands in a text where it says, up to a comma or to the end. -/
def Slice.StandsIn (position : Nat) (text : List Char) (slice : Slice) : Prop :=
  ∃ before after, text = before ++ slice.text ++ after ∧
    slice.position = position + before.length ∧ EndsPiece after

theorem Slice.StandsIn.cons {slice : Slice} (stands : slice.StandsIn (position + 1) text)
    (char : Char) : slice.StandsIn position (char :: text) := by
  obtain ⟨before, after, rfl, same, ends⟩ := stands
  refine ⟨char :: before, after, rfl, ?_, ends⟩
  rw [same, List.length_cons, Nat.add_assoc, Nat.add_comm 1]

theorem standsIn_of_cutCommas {part : Part} {depth : Nat} {fresh : Bool} {first : List Char}
    {later : List Slice} (cut : cutCommas part depth fresh position text = .ok (first, later)) :
    (∃ behind, text = first ++ behind ∧ EndsPiece behind) ∧
      ∀ slice ∈ later, slice.StandsIn position text := by
  induction text generalizing depth fresh position first later with
  | nil =>
      rw [cutCommas] at cut
      split at cut
      · cases cut
      · cases cut
        exact ⟨⟨[], rfl, .inl rfl⟩, by simp⟩
  | cons char rest hypothesis =>
      have shifted : ∀ {slices : List Slice},
          (∀ slice ∈ slices, slice.StandsIn (position + 1) rest) →
          ∀ slice ∈ slices, slice.StandsIn position (char :: rest) := by
        exact fun stand slice member => (stand slice member).cons char
      obtain ⟨-, -, fails⟩ | ⟨-, -, -, fails⟩ | ⟨rfl, -, -, cuts⟩ | ⟨_, -, -, cuts⟩ :=
        cutCommas_cons_cases part depth fresh position char rest
      · rw [fails] at cut
        cases cut
      · rw [fails] at cut
        cases cut
      all_goals
        rw [cuts] at cut
        obtain ⟨⟨next, others⟩, cutRest, equal⟩ := map_eq_ok_iff.mp cut
        cases equal
        obtain ⟨⟨behind, rfl, ends⟩, stand⟩ := hypothesis cutRest
      · refine ⟨⟨_, rfl, .inr ⟨_, rfl⟩⟩, ?_⟩
        rw [List.forall_mem_cons]
        exact ⟨⟨[','], behind, rfl, rfl, ends⟩, shifted stand⟩
      · exact ⟨⟨behind, rfl, ends⟩, shifted stand⟩

theorem standsIn_of_arguments {part : Part} {slices : List Slice}
    (cut : arguments part position text = .ok slices) :
    ∀ slice ∈ slices, slice.StandsIn position text := by
  obtain ⟨⟨first, later⟩, cutText, rfl⟩ := map_eq_ok_iff.mp cut
  obtain ⟨⟨behind, rfl, ends⟩, stand⟩ := standsIn_of_cutCommas cutText
  rw [List.forall_mem_cons]
  exact ⟨⟨[], behind, rfl, rfl, ends⟩, stand⟩

/-- What is wrong with a piece is wrong with the text that it was cut from. -/
theorem pointsInto_of_pieces {α : Type} {read : Nat → List Char → Except QueryError α} {part : Part}
    {depth : Nat} {slices : List Slice} (balanced : Balanced depth text)
    (cut : arguments part position text = .ok slices)
    (each : ∀ slice ∈ slices, IsPiece slice.text →
      read slice.position slice.text = .error error → error.PointsInto slice.position slice.text)
    (failed : (slices.mapM fun slice => read slice.position slice.text) = .error error) :
    error.PointsInto position text := by
  obtain ⟨slice, member, failed⟩ := exists_of_mapM_eq_error failed
  obtain ⟨-, pieces⟩ := pieces_of_arguments balanced cut
  obtain ⟨before, after, rfl, place, -⟩ := standsIn_of_arguments cut slice member
  have open? := balanced.unclosed? []
  rw [List.append_assoc] at open?
  obtain ⟨closers, openBefore, -⟩ := exists_unclosed?_of_append open?
  exact (each slice member (pieces slice member) failed).within place openBefore after

theorem pointsInto_of_readItems {depth : Nat} (balanced : Balanced depth text)
    (failed : readItems position text = .error error) : error.PointsInto position text := by
  rw [readItems] at failed
  split at failed
  · cases failed
    exact .empty (List.nil_append text).symm .itemList
  · rw [bind_eq_error_iff] at failed
    obtain failed | ⟨slices, cut, failed⟩ := failed
    · exact pointsInto_of_arguments failed
    · exact pointsInto_of_pieces balanced cut (fun _ _ _ => pointsInto_of_readLiteral) failed

/-! ### Calls -/

section Word

variable {word : List Char} (plain : IsPlain word)
include plain

/-- A parenthesis behind a word is closed as the last character, or something else closes there,
or the text ends before it is closed. -/
theorem fault_of_parenthesis
    (failed : enclosed '(' (position + word.length + 1) rest = .error error) :
    error.PointsInto position (word ++ '(' :: rest) ∨
      (error.EndsIn position (word ++ '(' :: rest) ∧
        (word ++ '(' :: rest).count ')' ≠ (word ++ '(' :: rest).count '(') := by
  obtain ⟨before, found, after, rfl, rfl⟩ | ⟨expected, others, rfl, open?, last⟩ :=
    fault_of_enclosed failed
  · left
    have place : position + word.length + 1 + before.length =
        position + (word ++ '(' :: before).length := by
      rw [List.length_append, List.length_cons]
      omega
    rw [place]
    exact .unexpected (List.append_assoc word ('(' :: before) (found :: after)).symm
  · right
    have openText : unclosed? [] (word ++ '(' :: rest) = some (expected :: others) := by
      rw [unclosed?_append, plain.unclosed?, Option.bind_some, unclosed?_cons,
        afterBracket?_of_opener rfl, Option.bind_some, open?]
    refine ⟨⟨expected, ?_, others, openText⟩, ?_⟩
    · rw [List.length_append, List.length_cons]
      congr 1
      omega
    · have counted := count_of_unclosed? openText
      have member : ')' ∈ expected :: others := List.mem_of_getLast? last
      have some := List.count_pos_iff.mpr member
      rw [List.count_nil] at counted
      omega

/-- What is wrong in the parentheses behind a word is wrong with the whole. -/
theorem pointsInto_of_parenthesis (points : error.PointsInto (position + word.length + 1) inner) :
    error.PointsInto position (word ++ '(' :: inner ++ [')']) := by
  have openFront : unclosed? [] (word ++ ['(']) = some [')'] := by
    rw [unclosed?_append, plain.unclosed?]
    rfl
  have stands : position + word.length + 1 = position + (word ++ ['(']).length := by
    rw [List.length_append, List.length_singleton, Nat.add_assoc]
  simpa using points.within stands openFront [')']

end Word

section Call

variable {κ : Type} {keyword? : String → Option κ} {part : Part}

/-- A text that is not read as a call is wrong somewhere, or it ends before a parenthesis is
closed. -/
theorem fault_of_readCall
    (plain : ∀ {word keyword}, keyword? word = some keyword → IsPlain word.toList)
    (failed : Call.read keyword? part position text = .error error) :
    error.PointsInto position text ∨
      (error.EndsIn position text ∧ text.count ')' ≠ text.count '(') := by
  simp only [Call.read] at failed
  split at failed
  · cases failed
  · rename_i opener rest dropped
    have whole := eq_of_dropWhile_paren dropped
    generalize text.takeWhile (· != '(') = word at whole failed
    subst whole
    split at failed
    · cases failed
      exact .inl (.unexpected rfl)
    · rename_i keyword named
      have plainWord : IsPlain word := by simpa using plain named
      rw [bind_eq_error_iff] at failed
      obtain failed | ⟨inner, closed, failed⟩ := failed
      · exact fault_of_parenthesis plainWord failed
      · split at failed
        · cases failed
          obtain ⟨rfl, -⟩ := balanced_of_enclosed closed
          left
          rw [← List.cons_append, ← List.append_assoc]
          exact pointsInto_of_parenthesis plainWord (.empty (List.nil_append inner).symm part)
        · cases failed

theorem Call.position_of_read {call : Call κ}
    (found : Call.read keyword? part position text = .ok (some call)) :
    call.position = position + (text.takeWhile (· != '(')).length + 1 := by
  simp only [Call.read] at found
  split at found
  · cases found
  · split at found
    · cases found
    · rw [bind_eq_ok_iff] at found
      obtain ⟨inner, -, found⟩ := found
      split at found
      · cases found
      · cases found
        rfl

/-- What is wrong with the inner text of a call is wrong with the call. -/
theorem pointsInto_of_call {call : Call κ}
    (plain : ∀ {word keyword}, keyword? word = some keyword → IsPlain word.toList)
    (found : Call.read keyword? part position text = .ok (some call))
    (points : error.PointsInto call.position call.inner) : error.PointsInto position text := by
  have place := Call.position_of_read found
  obtain ⟨word, rfl, named, -, -⟩ := Call.called_of_read found
  have plainWord := plain named
  rw [called, List.append_assoc, List.takeWhile_append_of_pos (ne_paren_of_isPlain plainWord)]
    at place
  have start : call.position = position + word.toList.length + 1 := by simpa using place
  rw [start] at points
  exact pointsInto_of_parenthesis plainWord points

end Call

/-! ### Values -/

/-- In the brackets of a call, every fault of a value is one of the text between them. -/
theorem pointsInto_of_readInner {operator : Operator} {inside depth : Nat}
    (balanced : Balanced depth inner)
    (shorter : ∀ {position text}, text.length ≤ inner.length →
      readValue position text = .error error →
      error.PointsInto position text ∨ error.EndsIn position text)
    (failed : operator.readInner inside inner = .error error) : error.PointsInto inside inner := by
  have whole : ∀ {position : Nat} {text : List Char} {depth : Nat}, text.length ≤ inner.length →
      Balanced depth text → readValue position text = .error error →
      error.PointsInto position text := fun short balanced failed =>
    (shorter short failed).resolve_right fun ends => ends.not_balanced balanced
  -- The operands of a connective are pieces, whose brackets match.
  have operands : ∀ {slices : List Slice},
      arguments .operatorArgument inside inner = .ok slices →
      readValues slices = .error error → error.PointsInto inside inner := by
    intro slices cut failed
    rw [readValues_eq_mapM] at failed
    refine pointsInto_of_pieces balanced cut ?_ failed
    intro slice member piece failed
    obtain ⟨more, balancedPiece⟩ := piece.balanced
    have short := Slice.length_lt_totalLength member
    have total := totalLength_arguments cut
    exact whole (by omega) balancedPiece failed
  cases operator with
  | like | notLike => exact pointsInto_of_readLiteral (map_eq_error_iff.mp failed)
  | oneOf => exact pointsInto_of_readItems balanced (map_eq_error_iff.mp failed)
  | connective joining =>
      cases joining with
      | not => exact whole (Nat.le_refl _) balanced (map_eq_error_iff.mp failed)
      | and | or =>
          simp only [Operator.readInner, bind_eq_error_iff, map_eq_error_iff] at failed
          obtain failed | ⟨slices, cut, failed⟩ := failed
          · exact pointsInto_of_arguments failed
          · exact operands cut failed

theorem fault_of_readValue {position : Nat} {text : List Char}
    (failed : readValue position text = .error error) :
    error.PointsInto position text ∨ error.EndsIn position text := by
  by_cases list : ∃ rest, text = '[' :: rest
  · obtain ⟨rest, rfl⟩ := list
    simp only [readValue, bind_eq_error_iff] at failed
    obtain failed | ⟨inner, closed, failed⟩ := failed
    · obtain ⟨before, found, after, rfl, rfl⟩ | ⟨expected, others, rfl, open?, -⟩ :=
        fault_of_enclosed failed
      · left
        have place : position + 1 + before.length = position + ('[' :: before).length := by
          rw [List.length_cons]
          omega
        rw [place]
        exact .unexpected List.cons_append.symm
      · right
        refine ⟨expected, ?_, others, open?⟩
        rw [List.length_cons, Nat.add_comm rest.length, ← Nat.add_assoc]
    · obtain ⟨rfl, depth, balanced⟩ := balanced_of_enclosed closed
      obtain failed | ⟨items, -, failed⟩ := failed
      · left
        have open? : unclosed? [] ['['] = some [']'] := rfl
        have points : error.PointsInto position (['['] ++ inner ++ [closerOf '[']) :=
          (pointsInto_of_readItems balanced failed).within rfl open? _
        simpa using points
      · cases failed
  · rw [readValue_eq (fun rest same => list ⟨rest, same⟩), bind_eq_error_iff] at failed
    obtain failed | ⟨call?, found, failed⟩ := failed
    · exact (fault_of_readCall Operator.isPlain_of_ofWord? failed).imp_right And.left
    · cases call? with
      | none => exact .inl (pointsInto_of_readLiteral (map_eq_error_iff.mp failed))
      | some call =>
          have inside := Call.length_read found
          obtain ⟨word, -, -, -, depth, balanced⟩ := Call.called_of_read found
          refine .inl (pointsInto_of_call Operator.isPlain_of_ofWord? found ?_)
          refine pointsInto_of_readInner balanced ?_ failed
          intro position inner short failed
          exact fault_of_readValue failed
termination_by text.length

/-! ### Groups -/

/-- A list that is cut apart ends in front of a `&`: of its brackets only square ones are open. -/
theorem pointsInto_of_value {place depth : Nat} {key value behind : List Char}
    (balanced : Balanced depth (key ++ value ++ behind)) (even : value.count ')' = value.count '(')
    (ends : behind = [] ∨ ∃ rest, behind = '&' :: rest) (at? : place = position + key.length)
    (failed : readValue place value = .error error) :
    error.PointsInto position (key ++ value ++ behind) := by
  have open? := balanced.unclosed? []
  rw [List.append_assoc] at open?
  obtain ⟨closers, openKey, openValue⟩ := exists_unclosed?_of_append open?
  obtain points | ⟨expected, rfl, outer, openInside⟩ := fault_of_readValue failed
  · exact points.within at? openKey behind
  · have openBefore : unclosed? [] (key ++ value) = some (expected :: (outer ++ closers)) := by
      rw [unclosed?_append, openKey, Option.bind_some]
      exact unclosed?_outer openInside closers
    obtain rfl | ⟨rest, rfl⟩ := ends
    · -- Nothing follows that could close the bracket.
      rw [List.append_nil] at balanced
      rw [balanced.unclosed?] at openBefore
      cases openBefore
    · have counted := count_of_unclosed? openInside
      rw [List.count_nil] at counted
      have closes := isCloser_of_unclosed? (by simp) openInside expected List.mem_cons_self
      have list : expected = ']' := by
        rw [isCloser, Bool.or_eq_true, beq_iff_eq, beq_iff_eq] at closes
        obtain rfl | same := closes
        · rw [List.count_cons_self] at counted
          omega
        · exact same
      refine ⟨key ++ value, '&' :: rest, rfl, ?_, list, ⟨_, openBefore⟩, rest, rfl⟩
      rw [at?, List.length_append]
      exact Nat.add_assoc _ _ _

theorem isPlain_of_readName {name : String} (read : readName position text = .ok name) :
    IsPlain text := by
  intro char member
  exact isBracket_of_isSeparator ((readName_eq_ok_iff.mp read).2.1 char member)

theorem pointsInto_of_readSegment {depth : Nat} {segment : Segment} (balanced : Balanced depth text)
    (stands : segment.StandsIn position text)
    (shorter : ∀ {place key}, key.length ≤ text.length → readGroup place key = .error error →
      error.PointsInto place key ∨ (error.EndsIn place key ∧ key.count ')' ≠ key.count '('))
    (failed : segment.read = .error error) : error.PointsInto position text := by
  obtain ⟨⟨before, after, rfl, place, ends⟩, even⟩ := stands
  rcases segment with ⟨start, key, value?⟩
  have open? := balanced.unclosed? []
  rw [List.append_assoc] at open?
  obtain ⟨closers, openBefore, -⟩ := exists_unclosed?_of_append open?
  cases value? with
  | some value =>
      simp only [Segment.parts, entryText] at balanced even place ⊢
      simp only [Segment.read, bind_eq_error_iff] at failed
      obtain failed | ⟨name, readKey, failed⟩ := failed
      · have points :=
          (pointsInto_of_readName failed).within place openBefore ('=' :: value ++ after)
        simpa using points
      · obtain failed | ⟨condition, -, failed⟩ := failed
        · have plain := isPlain_of_readName readKey
          have evenKey := count_of_unclosed? (plain.unclosed? [])
          have evenValue : value.count ')' = value.count '(' := by
            simp at even evenKey
            omega
          have regrouped : before ++ (key ++ '=' :: value) ++ after =
              (before ++ (key ++ ['='])) ++ value ++ after := by simp
          rw [regrouped] at balanced ⊢
          refine pointsInto_of_value balanced evenValue ends ?_ failed
          rw [place]
          simp [Nat.add_assoc]
        · cases failed
  | none =>
      simp only [Segment.parts, entryText] at balanced even place ⊢
      rw [Segment.read] at failed
      split at failed
      · have short : key.length ≤ (before ++ key ++ after).length := by
          rw [List.length_append, List.length_append]
          omega
        obtain points | ⟨-, uneven⟩ := shorter short (map_eq_error_iff.mp failed)
        · exact points.within place openBefore after
        · exact absurd even uneven
      · cases failed
        have points : PointsInto start key (.empty (start + key.length) .groupValue) :=
          .empty (List.append_nil key).symm .groupValue
        exact points.within place openBefore after

theorem pointsInto_of_readCondition {depth : Nat} (balanced : Balanced depth text)
    (shorter : ∀ {place key}, key.length ≤ text.length → readGroup place key = .error error →
      error.PointsInto place key ∨ (error.EndsIn place key ∧ key.count ')' ≠ key.count '('))
    (failed : readCondition position text = .error error) : error.PointsInto position text := by
  simp only [readCondition_eq, bind_eq_error_iff, readSegments_eq_mapM] at failed
  obtain failed | ⟨segments, cut, failed⟩ := failed
  · obtain ⟨segments, cut⟩ := balanced.exists_ofText position
    rw [cut] at failed
    cases failed
  · obtain failed | ⟨rows, -, failed⟩ := failed
    · obtain ⟨segment, member, failed⟩ := exists_of_mapM_eq_error failed
      exact pointsInto_of_readSegment balanced (Segment.standsIn_of_ofText cut segment member)
        shorter failed
    · split at failed
      · cases failed
        exact .empty (List.nil_append text).symm .group
      · cases failed

theorem fault_of_readGroup {position : Nat} {text : List Char}
    (failed : readGroup position text = .error error) :
    error.PointsInto position text ∨
      (error.EndsIn position text ∧ text.count ')' ≠ text.count '(') := by
  rw [readGroup_eq, bind_eq_error_iff] at failed
  obtain failed | ⟨call?, found, failed⟩ := failed
  · exact fault_of_readCall Connective.isPlain_of_ofWord? failed
  · cases call? with
    | none =>
        cases failed
        exact .inl (.empty (List.append_nil text).symm .group)
    | some call =>
        have inside := Call.length_read found
        obtain ⟨word, -, -, -, depth, balanced⟩ := Call.called_of_read found
        refine .inl (pointsInto_of_call Connective.isPlain_of_ofWord? found ?_)
        simp only [bind_eq_error_iff, readConditions_eq_mapM] at failed
        obtain failed | ⟨slices, cut, failed⟩ := failed
        · exact pointsInto_of_arguments failed
        · obtain failed | ⟨conditions, -, failed⟩ := failed
          · have total := totalLength_arguments cut
            refine pointsInto_of_pieces balanced cut ?_ failed
            intro slice member piece failed
            obtain ⟨more, balancedPiece⟩ := piece.balanced
            have short := Slice.length_lt_totalLength member
            refine pointsInto_of_readCondition balancedPiece ?_ failed
            intro place key keyShort failed
            exact fault_of_readGroup failed
          · cases failed
termination_by text.length

/-! ### Texts whose brackets match -/

section Balanced

variable {depth : Nat} (balanced : Balanced depth text)
include balanced

theorem pointsInto_of_readValue (failed : readValue position text = .error error) :
    error.PointsInto position text :=
  (fault_of_readValue failed).resolve_right fun ends => ends.not_balanced balanced

theorem pointsInto_of_readGroup (failed : readGroup position text = .error error) :
    error.PointsInto position text :=
  (fault_of_readGroup failed).resolve_right fun ends => ends.1.not_balanced balanced

theorem pointsInto_of_readFields (failed : readFields position text = .error error) :
    error.PointsInto position text := by
  rw [readFields] at failed
  split at failed
  · cases failed
    exact .empty (List.nil_append text).symm .fieldList
  · simp only [bind_eq_error_iff] at failed
    obtain failed | ⟨slices, cut, failed⟩ := failed
    · exact pointsInto_of_arguments failed
    · obtain failed | ⟨names, -, failed⟩ := failed
      · exact pointsInto_of_pieces balanced cut (fun _ _ _ => pointsInto_of_readName) failed
      · cases failed

theorem pointsInto_of_readFunctionCall (failed : FunctionCall.read position text = .error error) :
    error.PointsInto position text := by
  simp only [FunctionCall.read] at failed
  split at failed
  · exact pointsInto_of_readName (map_eq_error_iff.mp failed)
  · rename_i opener rest dropped
    have whole := eq_of_dropWhile_paren dropped
    generalize text.takeWhile (· != '(') = word at whole failed
    subst whole
    split at failed
    · cases failed
      exact .empty (List.nil_append _).symm .functionName
    · simp only [bind_eq_error_iff] at failed
      obtain failed | ⟨name, readWord, failed⟩ := failed
      · have points : error.PointsInto position ([] ++ word ++ '(' :: rest) :=
          (pointsInto_of_readName failed).within rfl (unclosed?_nil []) _
        simpa using points
      · have plainWord := isPlain_of_readName readWord
        obtain failed | ⟨inner, closed, failed⟩ := failed
        · exact (fault_of_parenthesis plainWord failed).resolve_right fun ends =>
            ends.1.not_balanced balanced
        · obtain ⟨rfl, more, balancedInner⟩ := balanced_of_enclosed closed
          split at failed
          · cases failed
          · have regrouped : word ++ '(' :: (inner ++ [closerOf '(']) =
                word ++ '(' :: inner ++ [')'] := by simp [closerOf]
            rw [regrouped]
            refine pointsInto_of_parenthesis plainWord ?_
            simp only [bind_eq_error_iff] at failed
            obtain failed | ⟨slices, cut, failed⟩ := failed
            · exact pointsInto_of_arguments failed
            · obtain failed | ⟨names, -, failed⟩ := failed
              · exact pointsInto_of_pieces balancedInner cut
                  (fun _ _ _ => pointsInto_of_readName) failed
              · cases failed

theorem pointsInto_of_readFunctions (failed : readFunctions position text = .error error) :
    error.PointsInto position text := by
  rw [readFunctions] at failed
  split at failed
  · cases failed
    exact .empty (List.nil_append text).symm .functionList
  · rw [bind_eq_error_iff] at failed
    obtain failed | ⟨slices, cut, failed⟩ := failed
    · exact pointsInto_of_arguments failed
    · refine pointsInto_of_pieces balanced cut ?_ failed
      intro slice member piece failed
      obtain ⟨more, balancedPiece⟩ := piece.balanced
      exact pointsInto_of_readFunctionCall balancedPiece failed

end Balanced

end QueryGate
