import QueryGate.Proofs.Result
import QueryGate.Query.Expression.Reader

/-!
# Equations of the readers

The readers carry the proofs that they end. These equations say what they do
without them: lists are read item by item, and a call by its keyword.
-/

namespace QueryGate

/-- Reads what an operator is called with. -/
def Operator.readInner (inside : Nat) (inner : List Char) :
    Operator → Except QueryError Expression
  | .like => (readLiteral inside inner).map .like
  | .notLike => (readLiteral inside inner).map .notLike
  | .oneOf => (readItems inside inner).map .oneOf
  | .connective .not => (readValue inside inner).map .not
  | .connective .and => do
      let slices ← arguments .operatorArgument inside inner
      (readValues slices).map .and
  | .connective .or => do
      let slices ← arguments .operatorArgument inside inner
      (readValues slices).map .or

/-- A text that does not start with a square bracket is a call or a literal. -/
theorem readValue_eq {text : List Char} (notList : ∀ rest, text = '[' :: rest → False)
    (position : Nat) :
    readValue position text =
      (Call.read Operator.ofWord? .operatorArgument position text >>= fun
        | none => (readLiteral position text).map .literal
        | some ⟨operator, inside, inner⟩ => operator.readInner inside inner) := by
  rw [readValue.eq_2 position text notList]
  split <;> rename_i called <;> rw [called]
  case h_7 | h_8 =>
    simp only [bind, Except.bind, Operator.readInner]
    split <;> rename_i cut <;> rw [cut]
  all_goals rfl

theorem readValues_eq_mapM (slices : List Slice) :
    readValues slices = slices.mapM fun slice => readValue slice.position slice.text := by
  induction slices with
  | nil => rw [readValues, List.mapM_nil]; rfl
  | cons slice rest hypothesis => rw [readValues, List.mapM_cons, hypothesis]

theorem readConditions_eq_mapM (slices : List Slice) :
    readConditions slices = slices.mapM fun slice => readCondition slice.position slice.text := by
  induction slices with
  | nil => rw [readConditions, List.mapM_nil]; rfl
  | cons slice rest hypothesis => rw [readConditions, List.mapM_cons, hypothesis]

theorem readGroup_eq (position : Nat) (text : List Char) :
    readGroup position text = do
      match ← Call.read Connective.ofWord? .group position text with
      | none => .error (.empty (position + text.length) .group)
      | some ⟨joining, inside, inner⟩ =>
          let slices ← arguments .group inside inner
          let conditions ← readConditions slices
          return (joining, joining.join conditions) := by
  rw [readGroup]
  split <;> rename_i called <;> rw [called]
  case h_3 =>
    simp only [bind, Except.bind]
    split <;> rename_i cut <;> simp only [cut]
    rename_i slices
    cases readConditions slices <;> rfl
  all_goals rfl

/-- Reads one segment of a query level in a group. -/
def Segment.read : Segment → Except QueryError (String × Expression)
  | ⟨position, key, some value⟩ => do
      let name ← readName position key
      let condition ← readValue (position + key.length + 1) value
      return (name, condition)
  | ⟨position, key, none⟩ =>
      if key.contains '(' then
        (readGroup position key).map fun (joining, condition) => (joining.word, condition)
      else .error (.empty (position + key.length) .groupValue)

theorem readSegments_eq_mapM (segments : List Segment) :
    readSegments segments = segments.mapM Segment.read := by
  induction segments with
  | nil => rw [readSegments, List.mapM_nil]; rfl
  | cons segment rest hypothesis =>
      rcases segment with ⟨position, key, _ | value⟩
      · rw [readSegments, List.mapM_cons, Segment.read, hypothesis]
        split
        · cases readGroup position key <;> rfl
        · rfl
      · rw [readSegments, List.mapM_cons, Segment.read, hypothesis]
        simp only [bind_assoc, pure_bind]

theorem readCondition_eq (position : Nat) (text : List Char) :
    readCondition position text = do
      let segments ← Segment.ofText position text
      let rows ← readSegments segments
      if rows.isEmpty then .error (.empty position .group)
      else return .group (Table.ofRows rows) := by
  rw [readCondition]
  split <;> rename_i cut <;> rw [cut] <;> rfl

end QueryGate
