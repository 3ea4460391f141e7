import QueryGate.Proofs.Expression.Fault

/-!
# Where parts are missing

A part that is missing is reported at the character that ends it, or at the end of the text when
nothing does. A reader sees its own text alone, and the character may stand behind that: what the
readers report is stated of a text and of all that is behind it.
-/

namespace QueryGate

variable {position : Nat} {text rest front back behind inner : List Char} {error : QueryError}

/-- The characters at which a part is reported as missing: those that can end it. A list of fields
or of functions is never reported there. -/
def Part.enders : Part → List Char
  | parameterName | name => ['=']
  | parameterValue | clause _ => ['&', ')']
  | relationName => ['(', ')', '.', ',', '&']
  | fieldName | functionCall => [',', '&', ')']
  | functionName => ['(']
  | functionArgument | operatorArgument => [',', ')']
  | itemList => [']']
  | item => [',', ']', ')']
  | group | groupValue => [',', '&', ')']
  | fieldList | functionList => []

/-- The part is ended by the next character, or by the end of the text. -/
def Part.EndsAt (part : Part) (behind : List Char) : Prop :=
  part.enders ≠ [] ∧ ∀ char ∈ behind.head?, char ∈ part.enders

theorem Part.endsAt_cons {part : Part} {char : Char} (ends : char ∈ part.enders)
    (rest : List Char) : part.EndsAt (char :: rest) :=
  ⟨List.ne_nil_of_mem ends, by simpa using ends⟩

namespace QueryError

/-- If the error is that a part is missing, then in the text or directly behind it, where the part
is ended. The text stands at a position, and something behind it. -/
def MissesIn (position : Nat) (text behind : List Char) (error : QueryError) : Prop :=
  ∀ place part, error = .empty place part → ∃ before after, text = before ++ after ∧
    place = position + before.length ∧ part.EndsAt (after ++ behind)

namespace MissesIn

theorem unexpected (place : Nat) (found : Char) :
    (QueryError.unexpected place found).MissesIn position text behind := by
  rintro _ _ ⟨⟩

theorem unclosed (place : Nat) (expected : Char) :
    (QueryError.unclosed place expected).MissesIn position text behind := by
  rintro _ _ ⟨⟩

theorem empty {before after : List Char} {part : Part} (split : text = before ++ after)
    (ends : part.EndsAt (after ++ behind)) :
    (QueryError.empty (position + before.length) part).MissesIn position text behind := by
  intro place other same
  cases same
  exact ⟨before, after, split, rfl, ends⟩

/-- What is missing in a text is missing in each text around. -/
theorem within {place : Nat} (misses : error.MissesIn place text (back ++ behind))
    (stands : place = position + front.length) :
    error.MissesIn position (front ++ text ++ back) behind := by
  intro missing part same
  obtain ⟨before, after, rfl, at?, ends⟩ := misses missing part same
  refine ⟨front ++ before, after ++ back, by simp, ?_, ?_⟩
  · rw [at?, stands, List.length_append, Nat.add_assoc]
  · rwa [List.append_assoc]

end MissesIn

end QueryError

open QueryError

/-! ### Literals, names and brackets -/

theorem missesIn_of_readLiteral (failed : readLiteral position text = .error error) :
    error.MissesIn position text behind := by
  rw [readLiteral] at failed
  split at failed
  · cases failed
    exact .unexpected _ _
  · cases failed

/-- A name is missing only where nothing is written. -/
theorem missesIn_of_readName (ends : text = [] → Part.name.EndsAt behind)
    (failed : readName position text = .error error) : error.MissesIn position text behind := by
  rw [readName] at failed
  split at failed
  · rename_i blank
    obtain rfl := List.isEmpty_iff.mp blank
    cases failed
    exact .empty (List.nil_append []).symm (ends rfl)
  · split at failed
    · cases failed
      exact .unexpected _ _
    · cases failed

theorem missesIn_of_enclosed {opener : Char} {place : Nat}
    (failed : enclosed opener place rest = .error error) : error.MissesIn position text behind := by
  obtain ⟨before, found, after, -, rfl⟩ | ⟨expected, others, rfl, -⟩ := fault_of_enclosed failed
  · exact .unexpected _ _
  · exact .unclosed _ _

/-! ### Pieces between commas -/

section Pieces

variable {part : Part}

/-- An empty piece is ended by a comma, or by what is behind the pieces. -/
theorem missesIn_of_arguments (comma : ',' ∈ part.enders) (ends : part.EndsAt behind)
    (failed : arguments part position text = .error error) :
    error.MissesIn position text behind := by
  obtain ⟨before, after, split, ⟨rfl, rfl | ⟨rest, rfl⟩⟩ | ⟨found, rest, -, rfl⟩⟩ :=
    fault_of_cutCommas (map_eq_error_iff.mp failed)
  · exact .empty split ends
  · exact .empty split (Part.endsAt_cons comma _)
  · exact .unexpected _ _

/-- What is missing in a piece is missing in the text that it was cut from. -/
theorem missesIn_of_pieces {α : Type} {read : Nat → List Char → Except QueryError α} {depth : Nat}
    {slices : List Slice} (balanced : Balanced depth text)
    (cut : arguments part position text = .ok slices)
    (each : ∀ slice ∈ slices, IsPiece slice.text → ∀ after, EndsPiece after →
      read slice.position slice.text = .error error →
      error.MissesIn slice.position slice.text (after ++ behind))
    (failed : (slices.mapM fun slice => read slice.position slice.text) = .error error) :
    error.MissesIn position text behind := by
  obtain ⟨slice, member, failed⟩ := exists_of_mapM_eq_error failed
  obtain ⟨-, pieces⟩ := pieces_of_arguments balanced cut
  obtain ⟨before, after, rfl, place, ends⟩ := standsIn_of_arguments cut slice member
  exact (each slice member (pieces slice member) after ends failed).within place

end Pieces

theorem missesIn_of_readItems {depth : Nat} (balanced : Balanced depth text)
    (blank : text = [] → Part.itemList.EndsAt behind) (ends : Part.item.EndsAt behind)
    (failed : readItems position text = .error error) : error.MissesIn position text behind := by
  rw [readItems] at failed
  split at failed
  · rename_i empty
    obtain rfl := List.isEmpty_iff.mp empty
    cases failed
    exact .empty (List.nil_append []).symm (blank rfl)
  · rw [bind_eq_error_iff] at failed
    obtain failed | ⟨slices, cut, failed⟩ := failed
    · exact missesIn_of_arguments (by decide) ends failed
    · exact missesIn_of_pieces balanced cut (fun _ _ _ _ _ => missesIn_of_readLiteral) failed

/-! ### Calls -/

/-- What is missing in the parentheses behind a word is missing in the whole. -/
theorem missesIn_of_parenthesis {word : List Char}
    (misses : error.MissesIn (position + word.length + 1) inner (')' :: behind)) :
    error.MissesIn position (word ++ '(' :: inner ++ [')']) behind := by
  have stands : position + word.length + 1 = position + (word ++ ['(']).length := by
    rw [List.length_append, List.length_singleton, Nat.add_assoc]
  have whole : error.MissesIn position ((word ++ ['(']) ++ inner ++ [')']) behind :=
    misses.within stands
  simpa using whole

section Call

variable {κ : Type} {keyword? : String → Option κ} {part : Part}

theorem missesIn_of_readCall (closes : ')' ∈ part.enders)
    (failed : Call.read keyword? part position text = .error error) :
    error.MissesIn position text behind := by
  simp only [Call.read] at failed
  split at failed
  · cases failed
  · rename_i opener rest dropped
    have whole := eq_of_dropWhile_paren dropped
    generalize text.takeWhile (· != '(') = word at whole failed
    split at failed
    · cases failed
      exact .unexpected _ _
    · rw [bind_eq_error_iff] at failed
      obtain failed | ⟨inner, closed, failed⟩ := failed
      · exact missesIn_of_enclosed failed
      · split at failed
        · rename_i blank
          obtain rfl := List.isEmpty_iff.mp blank
          cases failed
          obtain ⟨rfl, -⟩ := balanced_of_enclosed closed
          subst whole
          have inside : (QueryError.empty (position + word.length + 1) part).MissesIn
              (position + word.length + 1) [] (')' :: behind) :=
            .empty (List.nil_append []).symm (Part.endsAt_cons closes _)
          simpa [closerOf] using missesIn_of_parenthesis inside
        · cases failed

theorem missesIn_of_call {call : Call κ}
    (plain : ∀ {word keyword}, keyword? word = some keyword → IsPlain word.toList)
    (found : Call.read keyword? part position text = .ok (some call))
    (misses : error.MissesIn call.position call.inner (')' :: behind)) :
    error.MissesIn position text behind := by
  have place := Call.position_of_read found
  obtain ⟨word, rfl, named, -, -⟩ := Call.called_of_read found
  rw [called, List.append_assoc, List.takeWhile_append_of_pos (ne_paren_of_isPlain (plain named))]
    at place
  have start : call.position = position + word.toList.length + 1 := by simpa using place
  rw [start] at misses
  exact missesIn_of_parenthesis misses

/-- A text with a parenthesis is not taken for one without a call. -/
theorem not_mem_of_readCall_none (found : Call.read keyword? part position text = .ok none) :
    '(' ∉ text := by
  simp only [Call.read] at found
  split at found
  · rename_i dropped
    intro member
    simpa using List.dropWhile_eq_nil_iff.mp dropped '(' member
  · split at found
    · cases found
    · rw [bind_eq_ok_iff] at found
      obtain ⟨inner, -, found⟩ := found
      split at found <;> cases found

end Call

/-! ### Values -/

theorem missesIn_of_readInner {operator : Operator} {inside depth : Nat}
    (balanced : Balanced depth inner) (written : inner ≠ [])
    (shorter : ∀ {position text behind}, text.length ≤ inner.length →
      readValue position text = .error error → error.MissesIn position text behind)
    (failed : operator.readInner inside inner = .error error) :
    error.MissesIn inside inner (')' :: behind) := by
  have operands : ∀ {slices : List Slice},
      arguments .operatorArgument inside inner = .ok slices →
      readValues slices = .error error → error.MissesIn inside inner (')' :: behind) := by
    intro slices cut failed
    rw [readValues_eq_mapM] at failed
    refine missesIn_of_pieces balanced cut ?_ failed
    intro slice member piece after ends failed
    have short := Slice.length_lt_totalLength member
    have total := totalLength_arguments cut
    exact shorter (by omega) failed
  have closes : ∀ {part : Part}, ')' ∈ part.enders → part.EndsAt (')' :: behind) :=
    fun ends => Part.endsAt_cons ends behind
  cases operator with
  | like | notLike => exact missesIn_of_readLiteral (map_eq_error_iff.mp failed)
  | oneOf =>
      refine missesIn_of_readItems balanced ?_ (closes (by decide)) (map_eq_error_iff.mp failed)
      exact fun empty => absurd empty written
  | connective joining =>
      cases joining with
      | not => exact shorter (Nat.le_refl _) (map_eq_error_iff.mp failed)
      | and | or =>
          simp only [Operator.readInner, bind_eq_error_iff, map_eq_error_iff] at failed
          obtain failed | ⟨slices, cut, failed⟩ := failed
          · exact missesIn_of_arguments (by decide) (closes (by decide)) failed
          · exact operands cut failed

/-- Whatever is missing in a value is missing in its brackets. -/
theorem missesIn_of_readValue {position : Nat} {text behind : List Char}
    (failed : readValue position text = .error error) : error.MissesIn position text behind := by
  by_cases list : ∃ rest, text = '[' :: rest
  · obtain ⟨rest, rfl⟩ := list
    simp only [readValue, bind_eq_error_iff] at failed
    obtain failed | ⟨inner, closed, failed⟩ := failed
    · exact missesIn_of_enclosed failed
    · obtain ⟨rfl, depth, balanced⟩ := balanced_of_enclosed closed
      obtain failed | ⟨items, -, failed⟩ := failed
      · have closes : ∀ {part : Part}, ']' ∈ part.enders → part.EndsAt (']' :: behind) :=
          fun ends => Part.endsAt_cons ends behind
        have inside : error.MissesIn (position + 1) inner ([']'] ++ behind) :=
          missesIn_of_readItems balanced (fun _ => closes (by decide)) (closes (by decide)) failed
        have whole : error.MissesIn position (['['] ++ inner ++ [']']) behind := inside.within rfl
        simpa [closerOf] using whole
      · cases failed
  · rw [readValue_eq (fun rest same => list ⟨rest, same⟩), bind_eq_error_iff] at failed
    obtain failed | ⟨call?, found, failed⟩ := failed
    · exact missesIn_of_readCall (by decide) failed
    · cases call? with
      | none => exact missesIn_of_readLiteral (map_eq_error_iff.mp failed)
      | some call =>
          have inside := Call.length_read found
          obtain ⟨word, -, -, written, depth, balanced⟩ := Call.called_of_read found
          refine missesIn_of_call Operator.isPlain_of_ofWord? found ?_
          refine missesIn_of_readInner balanced written ?_ failed
          intro position inner behind short failed
          exact missesIn_of_readValue failed
termination_by text.length

/-! ### Groups -/

theorem missesIn_of_readSegment {segment : Segment} (stands : segment.StandsIn position text)
    (ends : Part.groupValue.EndsAt behind)
    (shorter : ∀ {place key behind}, key.length ≤ text.length → '(' ∈ key →
      readGroup place key = .error error → error.MissesIn place key behind)
    (failed : segment.read = .error error) : error.MissesIn position text behind := by
  obtain ⟨⟨before, after, rfl, place, separated⟩, -⟩ := stands
  rcases segment with ⟨start, key, value?⟩
  cases value? with
  | some value =>
      simp only [Segment.parts, entryText] at place ⊢
      simp only [Segment.read, bind_eq_error_iff] at failed
      have regrouped : before ++ (key ++ '=' :: value) ++ after =
          (before ++ (key ++ ['='])) ++ value ++ after := by simp
      obtain failed | ⟨name, readKey, failed | ⟨condition, -, failed⟩⟩ := failed
      · have whole : error.MissesIn position (before ++ key ++ ('=' :: value ++ after)) behind :=
          (missesIn_of_readName (fun _ => Part.endsAt_cons (by decide) _) failed).within place
        simpa using whole
      · rw [regrouped]
        refine (missesIn_of_readValue failed).within ?_
        rw [place]
        simp [Nat.add_assoc]
      · cases failed
  | none =>
      simp only [Segment.parts, entryText] at place ⊢
      rw [Segment.read] at failed
      split at failed
      · rename_i called
        have short : key.length ≤ (before ++ key ++ after).length := by
          rw [List.length_append, List.length_append]
          omega
        exact (shorter short (by simpa using called) (map_eq_error_iff.mp failed)).within place
      · cases failed
        have last : Part.groupValue.EndsAt ([] ++ (after ++ behind)) := by
          obtain rfl | ⟨rest, rfl⟩ := separated
          · exact ends
          · exact Part.endsAt_cons (by decide) _
        have inside : (QueryError.empty (start + key.length) .groupValue).MissesIn start key
            (after ++ behind) := .empty (List.append_nil key).symm last
        exact inside.within place

/-- A level without a condition begins with a separator. -/
theorem exists_separator_of_blank (written : text ≠ [])
    (cut : Segment.ofText position text = .ok []) : ∃ rest, text = '&' :: rest := by
  obtain ⟨⟨first, later⟩, cutText, blank⟩ := map_eq_ok_iff.mp cut
  rw [Segment.consSegment] at blank
  split at blank
  · rename_i empty
    obtain ⟨front, cuts⟩ := Segment.exists_cutsAt_of_cut cutText
    rcases first with ⟨place, key, value⟩
    obtain ⟨noKey, noValue⟩ : key = [] ∧ value = none := by simpa [Segment.isBlank] using empty
    have same : [] = front := by
      simpa [Segment.textOf, Segment.parts, entryText, noKey, noValue] using cuts.textOf_eq
    subst same
    obtain ⟨rfl, -⟩ | ⟨rest, next, split, -⟩ := cuts.ends
    · exact absurd rfl written
    · exact ⟨rest, split⟩
  · cases blank

theorem missesIn_of_readCondition {depth : Nat} (balanced : Balanced depth text)
    (written : text ≠ []) (ends : Part.groupValue.EndsAt behind)
    (shorter : ∀ {place key behind}, key.length ≤ text.length → '(' ∈ key →
      readGroup place key = .error error → error.MissesIn place key behind)
    (failed : readCondition position text = .error error) :
    error.MissesIn position text behind := by
  simp only [readCondition_eq, bind_eq_error_iff, readSegments_eq_mapM] at failed
  obtain failed | ⟨segments, cut, failed | ⟨rows, all, failed⟩⟩ := failed
  · obtain ⟨segments, cut⟩ := balanced.exists_ofText position
    rw [cut] at failed
    cases failed
  · obtain ⟨segment, member, failed⟩ := exists_of_mapM_eq_error failed
    have stands := Segment.standsIn_of_ofText cut segment member
    exact missesIn_of_readSegment stands ends shorter failed
  · split at failed
    · rename_i blank
      have none : segments = [] := by
        have length := length_mapM all
        rw [List.isEmpty_iff.mp blank] at length
        exact List.length_eq_zero_iff.mp length.symm
      subst none
      obtain ⟨rest, rfl⟩ := exists_separator_of_blank written cut
      cases failed
      exact .empty (List.nil_append _).symm (Part.endsAt_cons (by decide) _)
    · cases failed

/-- Whatever is missing in a group is missing in its parentheses. -/
theorem missesIn_of_readGroup {position : Nat} {text behind : List Char} (opens : '(' ∈ text)
    (failed : readGroup position text = .error error) : error.MissesIn position text behind := by
  rw [readGroup_eq, bind_eq_error_iff] at failed
  obtain failed | ⟨call?, found, failed⟩ := failed
  · exact missesIn_of_readCall (by decide) failed
  · cases call? with
    | none => exact absurd opens (not_mem_of_readCall_none found)
    | some call =>
        have inside := Call.length_read found
        obtain ⟨word, -, -, -, depth, balanced⟩ := Call.called_of_read found
        refine missesIn_of_call Connective.isPlain_of_ofWord? found ?_
        simp only [bind_eq_error_iff, readConditions_eq_mapM] at failed
        obtain failed | ⟨slices, cut, failed | ⟨conditions, -, failed⟩⟩ := failed
        · exact missesIn_of_arguments (by decide) (Part.endsAt_cons (by decide) _) failed
        · have total := totalLength_arguments cut
          refine missesIn_of_pieces balanced cut ?_ failed
          intro slice member piece after ends failed
          have short := Slice.length_lt_totalLength member
          have last : Part.groupValue.EndsAt (after ++ ')' :: behind) := by
            obtain rfl | ⟨rest, rfl⟩ := ends <;> exact Part.endsAt_cons (by decide) _
          obtain ⟨more, balancedPiece⟩ := piece.balanced
          refine missesIn_of_readCondition balancedPiece piece.written last ?_ failed
          intro place key behind keyShort keyOpens failed
          exact missesIn_of_readGroup keyOpens failed
        · cases failed
termination_by text.length

/-! ### Lists of fields and of functions -/

section Lists

variable {depth : Nat} (balanced : Balanced depth text)

theorem missesIn_of_readFunctionCall (written : text ≠ [])
    (failed : FunctionCall.read position text = .error error) :
    error.MissesIn position text behind := by
  simp only [FunctionCall.read] at failed
  split at failed
  · refine missesIn_of_readName ?_ (map_eq_error_iff.mp failed)
    exact fun empty => absurd empty written
  · rename_i opener rest dropped
    have whole := eq_of_dropWhile_paren dropped
    generalize text.takeWhile (· != '(') = word at whole failed
    subst whole
    split at failed
    · rename_i blank
      obtain rfl := List.isEmpty_iff.mp blank
      cases failed
      exact .empty (List.nil_append _).symm (Part.endsAt_cons (by decide) _)
    · rename_i named
      simp only [bind_eq_error_iff] at failed
      obtain failed | ⟨name, readWord, failed | ⟨inner, closed, failed⟩⟩ := failed
      · have inside : error.MissesIn position ([] ++ word ++ '(' :: rest) behind :=
          (missesIn_of_readName (fun empty => absurd empty (by simpa using named)) failed).within
            rfl
        simpa using inside
      · exact missesIn_of_enclosed failed
      · obtain ⟨rfl, more, balancedInner⟩ := balanced_of_enclosed closed
        split at failed
        · cases failed
        · have regrouped : word ++ '(' :: (inner ++ [closerOf '(']) =
              word ++ '(' :: inner ++ [')'] := by simp [closerOf]
          rw [regrouped]
          refine missesIn_of_parenthesis ?_
          simp only [bind_eq_error_iff] at failed
          obtain failed | ⟨slices, cut, failed | ⟨names, -, failed⟩⟩ := failed
          · exact missesIn_of_arguments (by decide) (Part.endsAt_cons (by decide) _) failed
          · refine missesIn_of_pieces balancedInner cut ?_ failed
            intro slice member piece after ends
            exact missesIn_of_readName fun empty => absurd empty piece.written
          · cases failed

include balanced

theorem missesIn_of_readFields (written : text ≠ []) (ends : Part.fieldName.EndsAt behind)
    (failed : readFields position text = .error error) : error.MissesIn position text behind := by
  rw [readFields, List.isEmpty_eq_false_iff.mpr written] at failed
  simp only [Bool.false_eq_true, if_false, bind_eq_error_iff] at failed
  obtain failed | ⟨slices, cut, failed | ⟨names, -, failed⟩⟩ := failed
  · exact missesIn_of_arguments (by decide) ends failed
  · refine missesIn_of_pieces balanced cut ?_ failed
    intro slice member piece after ends
    exact missesIn_of_readName fun empty => absurd empty piece.written
  · cases failed

theorem missesIn_of_readFunctions (written : text ≠ []) (ends : Part.functionCall.EndsAt behind)
    (failed : readFunctions position text = .error error) :
    error.MissesIn position text behind := by
  rw [readFunctions, List.isEmpty_eq_false_iff.mpr written] at failed
  simp only [Bool.false_eq_true, if_false, bind_eq_error_iff] at failed
  obtain failed | ⟨slices, cut, failed⟩ := failed
  · exact missesIn_of_arguments (by decide) ends failed
  · refine missesIn_of_pieces balanced cut ?_ failed
    intro slice member piece after ends
    exact missesIn_of_readFunctionCall piece.written

end Lists

end QueryGate
