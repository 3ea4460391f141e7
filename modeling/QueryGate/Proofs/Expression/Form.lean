import QueryGate.Proofs.Expression.Reader

/-!
# The forms of expressions that are read

An expression that was read for a value says nothing about other fields: groups
stand only where a parameter's name does. There the connective of the group and the
word that it stands under agree, and its operands are sets of conditions.
-/

namespace QueryGate

/-- The places of a query that an expression is read for. -/
inductive Form where
  /-- The value of a field. -/
  | value
  /-- A call of a connective where a name is expected. -/
  | group (joining : Connective)
  /-- One operand of such a call. -/
  | condition
  /-- What stands under a name. -/
  | entry (name : String)

namespace Expression

/-- The expressions that can be read for a place. -/
inductive HasForm : Form → Expression → Prop where
  | literal (text : String) : HasForm .value (.literal text)
  | like (pattern : String) : HasForm .value (.like pattern)
  | notLike (pattern : String) : HasForm .value (.notLike pattern)
  | oneOf (items : List String) : HasForm .value (.oneOf items)
  | not {operand : Expression} : HasForm .value operand → HasForm .value (.not operand)
  | and {operands : List Expression} :
      operands ≠ [] → (∀ operand ∈ operands, HasForm .value operand) →
      HasForm .value (.and operands)
  | or {operands : List Expression} :
      operands ≠ [] → (∀ operand ∈ operands, HasForm .value operand) →
      HasForm .value (.or operands)
  | allOf {conditions : List Expression} :
      conditions ≠ [] → (∀ condition ∈ conditions, HasForm .condition condition) →
      HasForm (.group .and) (.and conditions)
  | anyOf {conditions : List Expression} :
      conditions ≠ [] → (∀ condition ∈ conditions, HasForm .condition condition) →
      HasForm (.group .or) (.or conditions)
  | negated {condition : Expression} :
      HasForm .condition condition → HasForm (.group .not) (.not condition)
  | negatedAll {conditions : List Expression} :
      2 ≤ conditions.length → (∀ condition ∈ conditions, HasForm .condition condition) →
      HasForm (.group .not) (.not (.and conditions))
  | fields {rows : List (String × Expression)} :
      rows ≠ [] → (∀ row ∈ rows, HasForm (.entry row.1) row.2) →
      HasForm .condition (.group rows)
  | ofValue {expression : Expression} (name : String) :
      HasForm .value expression → HasForm (.entry name) expression
  | ofGroup {expression : Expression} {joining : Connective} :
      HasForm (.group joining) expression → HasForm (.entry joining.word) expression

end Expression

open Expression

/-- What is read from each of the arguments of a text is not empty, and each of the
arguments is at most as long as the text. -/
theorem arguments_read {part : Part} {position : Nat} {text : List Char} {slices : List Slice}
    {read : Slice → Except QueryError Expression} {results : List Expression}
    (cut : arguments part position text = .ok slices) (all : slices.mapM read = .ok results) :
    results ≠ [] ∧ ∀ result ∈ results, ∃ slice : Slice,
      slice.text.length ≤ text.length ∧ read slice = .ok result := by
  have total := totalLength_arguments cut
  constructor
  · rintro rfl
    have same := length_mapM all
    cases slices with
    | nil => rw [Slice.totalLength_nil] at total; omega
    | cons slice rest => cases same
  · intro result member
    rcases exists_of_mem_mapM all member with ⟨slice, sliceMember, found⟩
    have shorter := Slice.length_lt_totalLength sliceMember
    exact ⟨slice, by omega, found⟩

/-- What an operator is called with is read for a value if shorter texts are. -/
theorem hasForm_readInner {operator : Operator} {inside : Nat} {inner : List Char}
    {expression : Expression}
    (shorter : ∀ position text operand, text.length ≤ inner.length →
      readValue position text = .ok operand → HasForm .value operand)
    (read : operator.readInner inside inner = .ok expression) : HasForm .value expression := by
  cases operator with
  | like =>
      rcases map_eq_ok_iff.mp read with ⟨pattern, _, rfl⟩
      exact .like pattern
  | notLike =>
      rcases map_eq_ok_iff.mp read with ⟨pattern, _, rfl⟩
      exact .notLike pattern
  | oneOf =>
      rcases map_eq_ok_iff.mp read with ⟨items, _, rfl⟩
      exact .oneOf items
  | connective joining =>
      have each : ∀ {part slices operands}, arguments part inside inner = .ok slices →
          readValues slices = .ok operands →
          operands ≠ [] ∧ ∀ operand ∈ operands, HasForm .value operand := by
        intro part slices operands cut readAll
        rw [readValues_eq_mapM] at readAll
        rcases arguments_read cut readAll with ⟨written, origin⟩
        refine ⟨written, ?_⟩
        intro operand member
        rcases origin operand member with ⟨slice, short, found⟩
        exact shorter slice.position slice.text operand short found
      cases joining with
      | not =>
          rcases map_eq_ok_iff.mp read with ⟨operand, readOperand, rfl⟩
          exact .not (shorter inside inner operand (Nat.le_refl _) readOperand)
      | and | or =>
          simp only [Operator.readInner, bind_eq_ok_iff, map_eq_ok_iff] at read
          rcases read with ⟨slices, cut, operands, readAll, rfl⟩
          rcases each cut readAll with ⟨written, operandForms⟩
          constructor
          · exact written
          · exact operandForms

/-- A value is read into an expression without groups. -/
theorem hasForm_readValue {position : Nat} {text : List Char} {expression : Expression}
    (read : readValue position text = .ok expression) : HasForm .value expression := by
  by_cases list : ∃ rest, text = '[' :: rest
  · rcases list with ⟨rest, rfl⟩
    simp only [readValue, bind_eq_ok_iff, pure_eq_ok_iff] at read
    rcases read with ⟨inner, _, items, _, rfl⟩
    exact .oneOf items
  · rw [readValue_eq (fun rest equal => list ⟨rest, equal⟩), bind_eq_ok_iff] at read
    rcases read with ⟨found, called, read⟩
    cases found with
    | none =>
        rcases map_eq_ok_iff.mp read with ⟨raw, _, rfl⟩
        exact .literal raw
    | some call =>
        have inside := Call.length_read called
        apply hasForm_readInner _ read
        intro innerPosition innerText operand short readOperand
        exact hasForm_readValue readOperand
termination_by text.length

/-- The conditions of a group, joined by its connective. -/
theorem hasForm_join (joining : Connective) {conditions : List Expression}
    (written : conditions ≠ []) (each : ∀ condition ∈ conditions, HasForm .condition condition) :
    HasForm (.group joining) (joining.join conditions) := by
  cases joining with
  | and => exact .allOf written each
  | or => exact .anyOf written each
  | not =>
      match conditions with
      | [condition] => exact .negated (each condition List.mem_cons_self)
      | first :: second :: rest => exact .negatedAll (by simp) each

/-- A segment is read for the name that it is read with, if groups in it are. -/
theorem hasForm_readSegment {segment : Segment} {row : String × Expression}
    (shorter : ∀ position text joining group, text.length ≤ segment.length →
      readGroup position text = .ok (joining, group) → HasForm (.group joining) group)
    (read : segment.read = .ok row) : HasForm (.entry row.1) row.2 := by
  rcases segment with ⟨position, key, _ | value⟩
  · simp only [Segment.read] at read
    split at read
    · rcases map_eq_ok_iff.mp read with ⟨⟨joining, group⟩, readKey, rfl⟩
      exact .ofGroup (shorter position key joining group (by simp [Segment.length]) readKey)
    · cases read
  · simp only [Segment.read, bind_eq_ok_iff, pure_eq_ok_iff] at read
    rcases read with ⟨name, _, condition, readCondition, rfl⟩
    exact .ofValue name (hasForm_readValue readCondition)

theorem hasForm_readCondition {position : Nat} {text : List Char} {condition : Expression}
    (shorter : ∀ position key joining group, key.length ≤ text.length →
      readGroup position key = .ok (joining, group) → HasForm (.group joining) group)
    (read : readCondition position text = .ok condition) : HasForm .condition condition := by
  rw [readCondition_eq] at read
  simp only [bind_eq_ok_iff, readSegments_eq_mapM] at read
  rcases read with ⟨segments, cut, rows, readAll, read⟩
  have total := Segment.totalLength_ofText cut
  split at read
  · cases read
  · rename_i written
    cases read
    apply HasForm.fields
    · exact Table.ofRows_ne_nil (by simpa using written)
    · intro row member
      rcases exists_of_mem_mapM readAll (Table.mem_ofRows member) with
        ⟨segment, segmentMember, found⟩
      have short := Segment.length_lt_totalLength segmentMember
      apply hasForm_readSegment _ found
      intro keyPosition key joining group keyShort readKey
      exact shorter keyPosition key joining group (by omega) readKey

/-- A group is read into the form that its connective asks for. -/
theorem hasForm_readGroup {position : Nat} {text : List Char} {joining : Connective}
    {group : Expression} (read : readGroup position text = .ok (joining, group)) :
    HasForm (.group joining) group := by
  rw [readGroup_eq, bind_eq_ok_iff] at read
  rcases read with ⟨found, called, read⟩
  cases found with
  | none => cases read
  | some call =>
      simp only [bind_eq_ok_iff, pure_eq_ok_iff, readConditions_eq_mapM] at read
      rcases read with ⟨slices, cut, conditions, readAll, equal⟩
      cases equal
      have inside := Call.length_read called
      rcases arguments_read cut readAll with ⟨written, origin⟩
      apply hasForm_join _ written
      intro condition member
      rcases origin condition member with ⟨slice, short, readSlice⟩
      apply hasForm_readCondition _ readSlice
      intro keyPosition key keyJoining keyGroup keyShort readKey
      exact hasForm_readGroup readKey
termination_by text.length

end QueryGate
