import QueryGate.Proofs.Checked.Brackets
import QueryGate.Proofs.Checked.Segment
import QueryGate.Proofs.Expression.Reader
import QueryGate.Query.Function

/-!
# Reading expressions by index

The readers of values, groups and lists find the brackets of a call by index and read slices of
the text. A reader that goes on inside brackets is given as many levels as it may go down, and
breaks off if they do not suffice. A text has fewer levels than characters and one more.
-/

namespace QueryGate

namespace Checked

variable {κ : Type}

/-- Reads the items of a list. -/
def readItems (position : Nat) (chars : List Char) : Checked QueryError (List String) :=
  if chars.isEmpty then throw (.empty position .itemList)
  else do
    let slices ← arguments .item position chars
    slices.mapM fun slice => readLiteral slice.position slice.text

/-- Reads a text as a call. -/
def readCall (keyword? : String → Option κ) (part : Part) (position : Nat) (chars : List Char) :
    Checked QueryError (Option (Call κ)) :=
  match chars.findIdx? (· == '(') with
  | none => return none
  | some opener => do
      let word ← slice chars 0 opener
      match keyword? (String.ofList word) with
      | none => throw (.unexpected (position + opener) '(')
      | some keyword =>
          let inner ← enclosed position chars opener
          if inner.isEmpty then throw (.empty (position + opener + 1) part)
          else return some ⟨keyword, position + opener + 1, inner⟩

/-- Reads what an operator is called with, the value of each operand as given. -/
def readInner (value : Nat → List Char → Checked QueryError Expression) (inside : Nat)
    (inner : List Char) : Operator → Checked QueryError Expression
  | .like => .like <$> readLiteral inside inner
  | .notLike => .notLike <$> readLiteral inside inner
  | .oneOf => .oneOf <$> readItems inside inner
  | .connective .not => .not <$> value inside inner
  | .connective .and => do
      let slices ← arguments .operatorArgument inside inner
      .and <$> slices.mapM fun slice => value slice.position slice.text
  | .connective .or => do
      let slices ← arguments .operatorArgument inside inner
      .or <$> slices.mapM fun slice => value slice.position slice.text

/-- Reads a value that has not more levels. -/
def valueWithin (levels position : Nat) (chars : List Char) : Checked QueryError Expression :=
  match levels with
  | 0 => need none
  | levels + 1 =>
      match chars.head? with
      | some '[' => do
          let inner ← enclosed position chars 0
          .oneOf <$> readItems (position + 1) inner
      | _ => do
          match ← readCall Operator.ofWord? .operatorArgument position chars with
          | none => .literal <$> readLiteral position chars
          | some call => readInner (valueWithin levels) call.position call.inner call.keyword

/-- Reads the value of a parameter. -/
def readValue (position : Nat) (chars : List Char) : Checked QueryError Expression :=
  valueWithin (chars.length + 1) position chars

/-- The expression of a connective over the conditions of its group. -/
def join (conditions : List Expression) : Connective → Checked QueryError Expression
  | .and => return .and conditions
  | .or => return .or conditions
  | .not =>
      if conditions.length = 1 then return .not (← item conditions 0)
      else return .not (.and conditions)

/-- Reads one segment of a query level in a group, a nested group as given. -/
def readSegment (group : Nat → List Char → Checked QueryError (Connective × Expression))
    (segment : Segment) : Checked QueryError (String × Expression) :=
  match segment.value with
  | some value => do
      let name ← readName segment.position segment.key
      let condition ← readValue (segment.position + segment.key.length + 1) value
      return (name, condition)
  | none =>
      if segment.key.contains '(' then
        (fun (joining, condition) => (joining.word, condition)) <$>
          group segment.position segment.key
      else throw (.empty (segment.position + segment.key.length) .groupValue)

/-- Reads one argument of a group, nested groups as given. -/
def readCondition (group : Nat → List Char → Checked QueryError (Connective × Expression))
    (position : Nat) (chars : List Char) : Checked QueryError Expression := do
  let segments ← segments position chars
  let rows ← segments.mapM (readSegment group)
  if rows.isEmpty then throw (.empty position .group) else return .group (Table.ofRows rows)

/-- Reads a group that has not more levels. -/
def groupWithin (levels position : Nat) (chars : List Char) :
    Checked QueryError (Connective × Expression) :=
  match levels with
  | 0 => need none
  | levels + 1 => do
      match ← readCall Connective.ofWord? .group position chars with
      | none => throw (.empty (position + chars.length) .group)
      | some call =>
          let slices ← arguments .group call.position call.inner
          let conditions ← slices.mapM fun slice =>
            readCondition (groupWithin levels) slice.position slice.text
          return (call.keyword, ← join conditions call.keyword)

/-- Reads a group. -/
def readGroup (position : Nat) (chars : List Char) : Checked QueryError (Connective × Expression) :=
  groupWithin (chars.length + 1) position chars

/-- Reads a list of fields. -/
def readFields (position : Nat) (chars : List Char) : Checked QueryError (List String) :=
  if chars.isEmpty then throw (.empty position .fieldList)
  else do
    let slices ← arguments .fieldName position chars
    let names ← slices.mapM fun slice => readName slice.position slice.text
    return names.eraseDups

/-- Reads a call of a function. -/
def readFunction (position : Nat) (chars : List Char) : Checked QueryError FunctionCall :=
  match chars.findIdx? (· == '(') with
  | none => (fun name => ⟨name, []⟩) <$> readName position chars
  | some opener =>
      if opener = 0 then throw (.empty position .functionName)
      else do
        let name ← readName position (← slice chars 0 opener)
        let inner ← enclosed position chars opener
        if inner.isEmpty then return ⟨name, []⟩
        else
          let slices ← arguments .functionArgument (position + opener + 1) inner
          let names ← slices.mapM fun slice => readName slice.position slice.text
          return ⟨name, names⟩

/-- Reads a list of function calls. -/
def readFunctions (position : Nat) (chars : List Char) : Checked QueryError (List FunctionCall) :=
  if chars.isEmpty then throw (.empty position .functionList)
  else do
    let slices ← arguments .functionCall position chars
    slices.mapM fun slice => readFunction slice.position slice.text

/-! ### Calls -/

/-- A text has no parenthesis, or is cut in two at its first one. -/
theorem findIdx?_opener (chars : List Char) :
    (chars.findIdx? (· == '(') = none ∧ chars.dropWhile (· != '(') = []) ∨
      ∃ word rest, chars = word ++ '(' :: rest ∧ chars.findIdx? (· == '(') = some word.length ∧
        chars.takeWhile (· != '(') = word ∧ chars.dropWhile (· != '(') = '(' :: rest := by
  induction chars with
  | nil => exact .inl ⟨rfl, rfl⟩
  | cons char rest hypothesis =>
      by_cases opens : char = '('
      · subst opens
        exact .inr ⟨[], rest, rfl, rfl, rfl, rfl⟩
      · obtain ⟨absent, nothing⟩ | ⟨word, after, whole, place, before, behind⟩ := hypothesis
        · refine .inl ⟨?_, by simpa [opens] using nothing⟩
          rw [List.findIdx?_cons, absent]
          simp [opens]
        · refine .inr ⟨char :: word, after, by rw [whole]; rfl, ?_⟩
          simp [List.findIdx?_cons, opens, place, before, behind]

theorem slice_word (word rest : List Char) :
    (slice (word ++ rest) 0 word.length : Checked QueryError (List Char)) = of (.ok word) := by
  rw [slice_of_le word rest (Nat.zero_le _), List.drop_zero]

theorem readCall_eq_of (keyword? : String → Option κ) (part : Part) (position : Nat)
    (chars : List Char) :
    readCall keyword? part position chars = of (Call.read keyword? part position chars) := by
  rw [readCall, Call.read]
  obtain ⟨absent, nothing⟩ | ⟨word, rest, rfl, place, before, behind⟩ := findIdx?_opener chars
  · simp only [absent, nothing]
    rfl
  · simp only [place, before, behind, slice_word, ok_bind]
    cases keyword? (String.ofList word) with
    | none => rfl
    | some keyword =>
        apply bind_eq_of (enclosed_eq_of rfl position word rest)
        intro inner _
        split <;> rfl

theorem readItems_eq_of (position : Nat) (chars : List Char) :
    readItems position chars = of (QueryGate.readItems position chars) := by
  rw [readItems, QueryGate.readItems]
  split
  · rfl
  · apply bind_eq_of (arguments_eq_of _ _ _)
    intro slices _
    exact mapM_eq_of fun slice _ => readLiteral_eq_of slice.position slice.text

/-! ### Values -/

/-- An argument is not longer than the text that it is one of. -/
theorem length_le_of_arguments {part : Part} {position : Nat} {chars : List Char}
    {slices : List Slice} (cut : QueryGate.arguments part position chars = .ok slices)
    {slice : Slice} (member : slice ∈ slices) : slice.text.length ≤ chars.length := by
  have total := totalLength_arguments cut
  have shorter := Slice.length_lt_totalLength member
  omega

theorem readInner_eq_of {value : Nat → List Char → Checked QueryError Expression} (inside : Nat)
    {inner : List Char} (operator : Operator)
    (shorter : ∀ position chars, chars.length ≤ inner.length →
      value position chars = of (QueryGate.readValue position chars)) :
    readInner value inside inner operator = of (operator.readInner inside inner) := by
  have operands : ∀ make : List Expression → Expression,
      (do
        let slices ← arguments .operatorArgument inside inner
        make <$> slices.mapM fun slice => value slice.position slice.text) =
      of (do
        let slices ← QueryGate.arguments .operatorArgument inside inner
        (readValues slices).map make) := by
    intro make
    apply bind_eq_of (arguments_eq_of _ _ _)
    intro slices cut
    rw [readValues_eq_mapM]
    apply map_eq_of
    exact mapM_eq_of fun slice member => shorter _ _ (length_le_of_arguments cut member)
  match operator with
  | .like => exact map_eq_of (readLiteral_eq_of inside inner) _
  | .notLike => exact map_eq_of (readLiteral_eq_of inside inner) _
  | .oneOf => exact map_eq_of (readItems_eq_of inside inner) _
  | .connective .not => exact map_eq_of (shorter inside inner (Nat.le_refl _)) _
  | .connective .and => exact operands .and
  | .connective .or => exact operands .or

theorem valueWithin_eq_of {levels : Nat} (position : Nat) {chars : List Char}
    (enough : chars.length < levels) :
    valueWithin levels position chars = of (QueryGate.readValue position chars) := by
  induction levels generalizing position chars with
  | zero => omega
  | succ levels hypothesis =>
      rw [valueWithin]
      split
      · rename_i bracket
        obtain ⟨rest, rfl⟩ := List.head?_eq_some_iff.mp bracket
        rw [QueryGate.readValue]
        apply bind_eq_of (enclosed_eq_of rfl position [] rest)
        intro inner _
        exact map_eq_of (readItems_eq_of _ _) _
      · rename_i notBracket
        have notList : ∀ rest, chars = '[' :: rest → False := by
          rintro rest rfl
          exact notBracket rfl
        rw [readValue_eq notList]
        apply bind_eq_of (readCall_eq_of _ _ _ _)
        rintro (_ | call) called
        · exact map_eq_of (readLiteral_eq_of position chars) _
        · apply readInner_eq_of
          intro inside inner short
          have shorter := Call.length_read called
          exact hypothesis inside (by omega)

theorem readValue_eq_of (position : Nat) (chars : List Char) :
    readValue position chars = of (QueryGate.readValue position chars) :=
  valueWithin_eq_of position (Nat.lt_succ_self _)

/-! ### Groups -/

theorem join_eq_of (conditions : List Expression) (joining : Connective) :
    join conditions joining = of (.ok (joining.join conditions)) := by
  cases joining with
  | and => rfl
  | or => rfl
  | not =>
      match conditions with
      | [] => rfl
      | [condition] => rfl
      | first :: second :: rest => simp [join, Connective.join, pure_eq_of]

theorem readSegment_eq_of {group : Nat → List Char → Checked QueryError (Connective × Expression)}
    (segment : Segment)
    (shorter : ∀ position chars, chars.length ≤ segment.length →
      group position chars = of (QueryGate.readGroup position chars)) :
    readSegment group segment = of segment.read := by
  obtain ⟨position, key, _ | value⟩ := segment
  · simp only [readSegment, Segment.read]
    split
    · exact map_eq_of (shorter position key (Nat.le_refl _)) _
    · rfl
  · apply bind_eq_of (readName_eq_of position key)
    intro name _
    apply bind_eq_of (readValue_eq_of _ value)
    intro condition _
    rfl

theorem readCondition_eq_of {group : Nat → List Char → Checked QueryError (Connective × Expression)}
    (position : Nat) {chars : List Char}
    (shorter : ∀ position text, text.length ≤ chars.length →
      group position text = of (QueryGate.readGroup position text)) :
    readCondition group position chars = of (QueryGate.readCondition position chars) := by
  rw [readCondition, readCondition_eq]
  apply bind_eq_of (segments_eq_of position chars)
  intro segments cut
  have total := Segment.totalLength_ofText cut
  rw [readSegments_eq_mapM]
  apply bind_eq_of
  · apply mapM_eq_of
    intro segment member
    have part := Segment.length_lt_totalLength member
    apply readSegment_eq_of
    intro inside text short
    exact shorter inside text (by omega)
  · intro rows _
    split <;> rfl

theorem groupWithin_eq_of {levels : Nat} (position : Nat) {chars : List Char}
    (enough : chars.length < levels) :
    groupWithin levels position chars = of (QueryGate.readGroup position chars) := by
  induction levels generalizing position chars with
  | zero => omega
  | succ levels hypothesis =>
      rw [groupWithin, readGroup_eq]
      apply bind_eq_of (readCall_eq_of _ _ _ _)
      rintro (_ | call) called
      · rfl
      · have shorter := Call.length_read called
        apply bind_eq_of (arguments_eq_of _ _ _)
        intro slices cut
        rw [readConditions_eq_mapM]
        apply bind_eq_of
        · apply mapM_eq_of
          intro slice member
          have part := length_le_of_arguments cut member
          apply readCondition_eq_of
          intro inside text short
          exact hypothesis inside (by omega)
        · intro conditions _
          rw [join_eq_of, ok_bind]
          rfl

theorem readGroup_eq_of (position : Nat) (chars : List Char) :
    readGroup position chars = of (QueryGate.readGroup position chars) :=
  groupWithin_eq_of position (Nat.lt_succ_self _)

/-! ### Fields and functions -/

theorem readFields_eq_of (position : Nat) (chars : List Char) :
    readFields position chars = of (QueryGate.readFields position chars) := by
  rw [readFields, QueryGate.readFields]
  split
  · rfl
  · apply bind_eq_of (arguments_eq_of _ _ _)
    intro slices _
    apply bind_eq_of (mapM_eq_of fun slice _ => readName_eq_of slice.position slice.text)
    intro names _
    rfl

theorem readFunction_eq_of (position : Nat) (chars : List Char) :
    readFunction position chars = of (FunctionCall.read position chars) := by
  rw [readFunction, FunctionCall.read]
  obtain ⟨absent, nothing⟩ | ⟨word, rest, rfl, place, before, behind⟩ := findIdx?_opener chars
  · simp only [absent, nothing]
    exact map_eq_of (readName_eq_of position chars) _
  · simp only [place, before, behind, slice_word, ok_bind, List.length_eq_zero_iff,
      List.isEmpty_iff]
    split
    · rfl
    · apply bind_eq_of (readName_eq_of position word)
      intro name _
      apply bind_eq_of (enclosed_eq_of rfl position word rest)
      intro inner _
      split
      · rfl
      · apply bind_eq_of (arguments_eq_of _ _ _)
        intro slices _
        apply bind_eq_of (mapM_eq_of fun slice _ => readName_eq_of slice.position slice.text)
        intro names _
        rfl

theorem readFunctions_eq_of (position : Nat) (chars : List Char) :
    readFunctions position chars = of (QueryGate.readFunctions position chars) := by
  rw [readFunctions, QueryGate.readFunctions]
  split
  · rfl
  · apply bind_eq_of (arguments_eq_of _ _ _)
    intro slices _
    exact mapM_eq_of fun slice _ => readFunction_eq_of slice.position slice.text

end Checked

end QueryGate
