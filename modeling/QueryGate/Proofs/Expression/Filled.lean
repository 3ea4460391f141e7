import QueryGate.Proofs.Expression.Form
import QueryGate.Proofs.Expression.Phrase

/-!
# Filled expressions

An expression that was read has no gaps: patterns, items and the literals that an operator is
called with are not empty, nor are lists of operands, of items and of fields. No literal has a
bracket in it, and there is no interval, since no text denotes one. A literal that is the whole
value of a field may be empty.
-/

namespace QueryGate

namespace Expression

/-- Nothing is missing inside an expression. -/
inductive Filled : Expression → Prop where
  | literal {text : String} : IsPlain text.toList → Filled (.literal text)
  | like {pattern : String} : pattern ≠ "" → IsPlain pattern.toList → Filled (.like pattern)
  | notLike {pattern : String} : pattern ≠ "" → IsPlain pattern.toList → Filled (.notLike pattern)
  | oneOf {items : List String} :
      items ≠ [] → (∀ item ∈ items, item ≠ "" ∧ IsPlain item.toList) → Filled (.oneOf items)
  | not {operand : Expression} : operand ≠ .literal "" → Filled operand → Filled (.not operand)
  | and {operands : List Expression} :
      operands ≠ [] → (∀ operand ∈ operands, operand ≠ .literal "") →
      (∀ operand ∈ operands, Filled operand) → Filled (.and operands)
  | or {operands : List Expression} :
      operands ≠ [] → (∀ operand ∈ operands, operand ≠ .literal "") →
      (∀ operand ∈ operands, Filled operand) → Filled (.or operands)
  | group {rows : List (String × Expression)} :
      rows ≠ [] → (∀ row ∈ rows, IsName row.1) → (∀ row ∈ rows, Filled row.2) →
      Filled (.group rows)

end Expression

open Expression

/-! ### Values -/

namespace Phrase

/-- Only the empty text denotes the empty literal. -/
theorem expression_ne_empty {phrase : Phrase} (written : phrase.text ≠ []) :
    phrase.expression ≠ .literal "" := by
  intro empty
  cases phrase with
  | literal text =>
      have same : String.ofList text = "" := Expression.literal.inj empty
      exact written (by simpa [Phrase.text] using same)
  | _ => cases empty

theorem filled_items {items : List (List Char)} (each : ∀ item ∈ items, IsItem item) :
    ∀ item ∈ items.map String.ofList, item ≠ "" ∧ IsPlain item.toList := by
  rw [List.forall_mem_map]
  intro item member
  obtain ⟨written, plain, -⟩ := each item member
  rw [String.toList_ofList]
  exact ⟨by simpa using written, plain⟩

theorem Valid.filled {phrase : Phrase} (valid : phrase.Valid) : phrase.expression.Filled := by
  induction valid with
  | literal plain => exact .literal (by rwa [String.toList_ofList])
  | list written each => exact .oneOf (by simpa using written) (filled_items each)
  | oneOf written each => exact .oneOf (by simpa using written) (filled_items each)
  | like written plain => exact .like (by simpa using written) (by rwa [String.toList_ofList])
  | notLike written plain => exact .notLike (by simpa using written) (by rwa [String.toList_ofList])
  | not sign written _ hypothesis => exact .not (expression_ne_empty written) hypothesis
  | and written placed _ hypothesis =>
      rw [expression, expressions_eq_map]
      refine .and (by simpa using written) ?_ (by simpa using hypothesis)
      rw [List.forall_mem_map]
      exact fun operand member => expression_ne_empty (placed operand member).1
  | or sign written placed _ hypothesis =>
      rw [expression, expressions_eq_map]
      refine .or (by simpa using written) ?_ (by simpa using hypothesis)
      rw [List.forall_mem_map]
      exact fun operand member => expression_ne_empty (placed operand member).1

end Phrase

theorem filled_readValue {position : Nat} {text : List Char} {expression : Expression}
    (read : readValue position text = .ok expression) : expression.Filled := by
  obtain ⟨phrase, valid, -, rfl⟩ := exists_phrase_of_readValue read
  exact valid.filled

/-! ### Groups -/

/-- A set of conditions is no literal. -/
theorem ne_literal_of_hasForm_condition {condition : Expression}
    (form : HasForm .condition condition) : condition ≠ .literal "" := by
  cases form with
  | fields => nofun

theorem filled_join (joining : Connective) {conditions : List Expression}
    (written : conditions ≠ []) (sets : ∀ condition ∈ conditions, HasForm .condition condition)
    (each : ∀ condition ∈ conditions, condition.Filled) : (joining.join conditions).Filled := by
  have kinds : ∀ condition ∈ conditions, condition ≠ .literal "" :=
    fun condition member => ne_literal_of_hasForm_condition (sets condition member)
  cases joining with
  | and => exact .and written kinds each
  | or => exact .or written kinds each
  | not =>
      match conditions with
      | [condition] => exact .not (kinds _ List.mem_cons_self) (each _ List.mem_cons_self)
      | first :: second :: rest => exact .not nofun (.and written kinds each)

theorem filled_readSegment {segment : Segment} {row : String × Expression}
    (shorter : ∀ position text joining group, text.length ≤ segment.length →
      readGroup position text = .ok (joining, group) → group.Filled)
    (read : segment.read = .ok row) : IsName row.1 ∧ row.2.Filled := by
  rcases segment with ⟨position, key, _ | value⟩
  · simp only [Segment.read] at read
    split at read
    · obtain ⟨⟨joining, group⟩, readKey, rfl⟩ := map_eq_ok_iff.mp read
      exact ⟨joining.isName_word,
        shorter position key joining group (by simp [Segment.length]) readKey⟩
    · cases read
  · simp only [Segment.read, bind_eq_ok_iff, pure_eq_ok_iff] at read
    obtain ⟨name, readKey, condition, readCondition, rfl⟩ := read
    exact ⟨isName_of_readName readKey, filled_readValue readCondition⟩

theorem filled_readCondition {position : Nat} {text : List Char} {condition : Expression}
    (shorter : ∀ position key joining group, key.length ≤ text.length →
      readGroup position key = .ok (joining, group) → group.Filled)
    (read : readCondition position text = .ok condition) : condition.Filled := by
  rw [readCondition_eq] at read
  simp only [bind_eq_ok_iff, readSegments_eq_mapM] at read
  obtain ⟨segments, cut, rows, readAll, read⟩ := read
  have total := Segment.totalLength_ofText cut
  split at read
  · cases read
  · rename_i written
    cases read
    have each : ∀ row ∈ Table.ofRows rows, IsName row.1 ∧ row.2.Filled := by
      intro row member
      obtain ⟨segment, segmentMember, found⟩ := exists_of_mem_mapM readAll (Table.mem_ofRows member)
      have short := Segment.length_lt_totalLength segmentMember
      apply filled_readSegment _ found
      intro keyPosition key joining group keyShort readKey
      exact shorter keyPosition key joining group (by omega) readKey
    have some : Table.ofRows rows ≠ [] := Table.ofRows_ne_nil (by simpa using written)
    exact .group some (fun row member => (each row member).1) fun row member =>
      (each row member).2

theorem filled_readGroup {position : Nat} {text : List Char} {joining : Connective}
    {group : Expression} (read : readGroup position text = .ok (joining, group)) :
    group.Filled := by
  rw [readGroup_eq, bind_eq_ok_iff] at read
  obtain ⟨found, called, read⟩ := read
  cases found with
  | none => cases read
  | some call =>
      simp only [bind_eq_ok_iff, pure_eq_ok_iff, readConditions_eq_mapM] at read
      obtain ⟨slices, cut, conditions, readAll, equal⟩ := read
      cases equal
      have inside := Call.length_read called
      obtain ⟨written, origin⟩ := arguments_read cut readAll
      apply filled_join _ written
      · intro condition member
        obtain ⟨slice, -, readSlice⟩ := origin condition member
        exact hasForm_readCondition (fun _ _ _ _ _ => hasForm_readGroup) readSlice
      · intro condition member
        obtain ⟨slice, short, readSlice⟩ := origin condition member
        apply filled_readCondition _ readSlice
        intro keyPosition key keyJoining keyGroup keyShort readKey
        exact filled_readGroup readKey
termination_by text.length

end QueryGate
