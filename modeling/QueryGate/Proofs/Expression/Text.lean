import QueryGate.Proofs.Expression.Form
import QueryGate.Proofs.Expression.Level
import QueryGate.Proofs.Expression.Phrase

/-!
# Writing expressions

Every expression that the query language can denote has a text, written with the words of its
operators and connectives. The text is read back as the expression, for the place that the
expression has been written for.
-/

namespace QueryGate

namespace Expression

/-- Whether the expression is a group, which has its connective in place of a field's name. -/
def isGroup : Expression → Bool
  | and (group _ :: _) | or (group _ :: _) | not (group _) | not (and (group _ :: _)) => true
  | _ => false

mutual

/-- What is written for an expression. Conditions that are negated together are the arguments
of one call. -/
def text : Expression → List Char
  | literal text => text.toList
  | and operands => called "and" (commas (texts operands))
  | or operands => called "or" (commas (texts operands))
  | not (and (group fields :: rest)) =>
      called "not" (commas (joined (entryTexts fields) :: texts rest))
  | not operand => called "not" operand.text
  | like pattern => called "like" pattern.toList
  | notLike pattern => called "notLike" pattern.toList
  | oneOf items => called "in" (commas (items.map String.toList))
  | between _ _ => []
  | group fields => joined (entryTexts fields)

/-- What is written for each of several expressions. -/
def texts : List Expression → List (List Char)
  | [] => []
  | operand :: rest => operand.text :: texts rest

/-- What is written for each of several fields or groups. -/
def entryTexts : List (String × Expression) → List (List Char)
  | [] => []
  | (name, condition) :: rest =>
      (if condition.isGroup then condition.text else name.toList ++ '=' :: condition.text) ::
        entryTexts rest

end

/-- A field or a group as an entry of a level. -/
def entry (row : String × Expression) : List Char × Option (List Char) :=
  if row.2.isGroup then (row.2.text, none) else (row.1.toList, some row.2.text)

theorem texts_eq_map (operands : List Expression) : texts operands = operands.map text := by
  induction operands with
  | nil => rfl
  | cons operand rest hypothesis => rw [texts, List.map_cons, hypothesis]

theorem entryTexts_eq_map (rows : List (String × Expression)) :
    entryTexts rows = (rows.map entry).map entryText := by
  induction rows with
  | nil => rfl
  | cons row rest hypothesis =>
      rw [entryTexts, List.map_cons, List.map_cons, hypothesis, entry]
      split <;> rfl

/-- The expressions that can be written for a place with so many brackets open at a time: their
texts name something, and their lists and groups are not empty. -/
inductive Writable : Nat → Form → Expression → Prop where
  | literal {text : String} (depth : Nat) : IsName text → Writable depth .value (.literal text)
  | like {pattern : String} (depth : Nat) :
      IsName pattern → Writable (depth + 1) .value (.like pattern)
  | notLike {pattern : String} (depth : Nat) :
      IsName pattern → Writable (depth + 1) .value (.notLike pattern)
  | oneOf {items : List String} (depth : Nat) :
      items ≠ [] → (∀ item ∈ items, IsName item) → Writable (depth + 1) .value (.oneOf items)
  | not {depth : Nat} {operand : Expression} :
      Writable depth .value operand → Writable (depth + 1) .value (.not operand)
  | and {depth : Nat} {operands : List Expression} :
      operands ≠ [] → (∀ operand ∈ operands, Writable depth .value operand) →
      Writable (depth + 1) .value (.and operands)
  | or {depth : Nat} {operands : List Expression} :
      operands ≠ [] → (∀ operand ∈ operands, Writable depth .value operand) →
      Writable (depth + 1) .value (.or operands)
  | allOf {depth : Nat} {conditions : List Expression} :
      conditions ≠ [] → (∀ condition ∈ conditions, Writable depth .condition condition) →
      Writable (depth + 1) (.group .and) (.and conditions)
  | anyOf {depth : Nat} {conditions : List Expression} :
      conditions ≠ [] → (∀ condition ∈ conditions, Writable depth .condition condition) →
      Writable (depth + 1) (.group .or) (.or conditions)
  | negated {depth : Nat} {condition : Expression} :
      Writable depth .condition condition → Writable (depth + 1) (.group .not) (.not condition)
  | negatedAll {depth : Nat} {conditions : List Expression} :
      2 ≤ conditions.length → (∀ condition ∈ conditions, Writable depth .condition condition) →
      Writable (depth + 1) (.group .not) (.not (.and conditions))
  | fields {depth : Nat} {rows : List (String × Expression)} :
      rows ≠ [] → Table.Sorted rows → (∀ row ∈ rows, Writable depth (.entry row.1) row.2) →
      Writable depth .condition (.group rows)
  | ofValue {depth : Nat} {name : String} {expression : Expression} :
      IsName name → Writable depth .value expression → Writable depth (.entry name) expression
  | ofGroup {depth : Nat} {joining : Connective} {expression : Expression} :
      Writable depth (.group joining) expression →
      Writable depth (.entry joining.word) expression

end Expression

/-! ### Names -/

namespace IsName

variable {name : String} (named : IsName name)
include named

theorem toList_ne_nil : name.toList ≠ [] := by
  simpa using named.1

theorem isPlain : IsPlain name.toList := by
  intro char member
  exact isBracket_of_isSeparator (named.2 char member)

theorem not_mem_comma : ',' ∉ name.toList := by
  intro member
  have separates := named.2 ',' member
  cases separates

theorem unseparated : Unseparated name.toList := by
  intro char member
  have separates := named.2 char member
  simp only [isSeparator, Bool.or_eq_false_iff, beq_eq_false_iff_ne] at separates
  exact ⟨separates.2, separates.1.2⟩

theorem isPiece : IsPiece name.toList :=
  ⟨named.toList_ne_nil, .of_not_mem named.not_mem_comma, named.isPlain.balanced⟩

end IsName

/-! ### Calls -/

section Called

variable {depth : Nat} {word : String} {inner : List Char}

theorem isPiece_called (named : IsName word) (balanced : Balanced depth inner) :
    IsPiece (called word inner) :=
  ⟨by simp [called], .called named.isPlain named.not_mem_comma balanced,
    _, balanced.called named.isPlain⟩

theorem unseparated_called (named : IsName word) (unseparated : Unseparated inner) :
    Unseparated (called word inner) := by
  intro char member
  simp only [called, List.mem_append, List.mem_cons, List.not_mem_nil, or_false] at member
  obtain (inWord | rfl | inInner) | rfl := member
  · exact named.unseparated char inWord
  · decide
  · exact unseparated char inInner
  · decide

theorem unseparated_commas {pieces : List (List Char)}
    (each : ∀ piece ∈ pieces, Unseparated piece) : Unseparated (commas pieces) :=
  forall_mem_commas (by decide) each

theorem balanced_joined {entries : List (List Char)}
    (balanced : ∀ entry ∈ entries, Balanced depth entry) : Balanced depth (joined entries) := by
  induction entries with
  | nil => exact .nil depth
  | cons entry rest hypothesis =>
      rw [List.forall_mem_cons] at balanced
      cases rest with
      | nil =>
          rw [joined_single]
          exact balanced.1
      | cons next rest =>
          rw [joined_cons_cons]
          exact balanced.1.append (.plain (by decide) (hypothesis balanced.2))

/-- A level is a piece if its entries are. -/
theorem isPiece_joined {entries : List (List Char)} (some : entries ≠ [])
    (each : ∀ entry ∈ entries, IsPiece entry) : IsPiece (joined entries) := by
  induction entries with
  | nil => exact absurd rfl some
  | cons entry rest hypothesis =>
      rw [List.forall_mem_cons] at each
      obtain ⟨first, later⟩ := each
      cases rest with
      | nil => rwa [joined_single]
      | cons next rest =>
          have behind := hypothesis (List.cons_ne_nil _ _) later
          obtain ⟨depth, balanced⟩ := first.balanced
          obtain ⟨depthBehind, balancedBehind⟩ := behind.balanced
          have separator : CommasInside ['&'] := .of_not_mem (by decide)
          have insideBehind : CommasInside ('&' :: joined (next :: rest)) :=
            separator.append rfl behind.inside
          rw [joined_cons_cons]
          refine ⟨by simp, first.inside.append balanced.countP_eq insideBehind,
            max depth depthBehind, ?_⟩
          exact (balanced.mono (by omega)).append
            (.plain (by decide) (balancedBehind.mono (by omega)))

end Called

namespace Expression

variable {depth : Nat} {name : String} {expression : Expression}

/-- The text of a call, and how many of its brackets are open at a time. -/
def CallText (depth : Nat) (word : String) (text : List Char) : Prop :=
  ∃ inner less, text = called word inner ∧ inner ≠ [] ∧ depth = less + 1 ∧ Balanced less inner

/-- What the text of a value is good for. -/
structure ValueText (depth : Nat) (expression : Expression) : Prop where
  piece : IsPiece expression.text
  balanced : Balanced depth expression.text
  unseparated : Unseparated expression.text
  read : ∀ position, readValue position expression.text = .ok expression
  shape : (∃ text, IsName text ∧ expression = .literal text) ∨
    ∃ operator : Operator, CallText depth operator.word expression.text

/-- What the text of a group is good for. -/
structure GroupText (depth : Nat) (joining : Connective) (expression : Expression) : Prop where
  call : CallText depth joining.word expression.text
  read : ∀ position, readGroup position expression.text = .ok (joining, expression)

/-- What the text of a condition is good for. -/
structure ConditionText (depth : Nat) (expression : Expression) : Prop where
  piece : IsPiece expression.text
  balanced : Balanced depth expression.text
  read : ∀ position, readCondition position expression.text = .ok expression

/-- What the text of a field or a group is good for. -/
structure EntryText (depth : Nat) (row : String × Expression) : Prop where
  isEntry : IsEntry (entry row)
  piece : IsPiece (entryText (entry row))
  balanced : Balanced depth (entryText (entry row))
  read : ∀ segment : Segment, segment.parts = entry row → segment.read = .ok row

theorem ValueText.of_literal {text : String} (named : IsName text) (depth : Nat) :
    ValueText depth (.literal text) where
  piece := named.isPiece
  balanced := .of_plain depth named.isPlain
  unseparated := named.unseparated
  read := by
    intro position
    have read := (Phrase.Valid.literal named.isPlain).readValue position
    rwa [Phrase.text, Phrase.expression, String.ofList_toList] at read
  shape := .inl ⟨text, named, rfl⟩

/-- A call of an operator is read as what its operator makes of its inner text. -/
theorem ValueText.of_called {operator : Operator} {inner : List Char}
    (same : expression.text = called operator.word inner) (written : inner ≠ [])
    (balanced : Balanced depth inner) (unseparated : Unseparated inner)
    (read : ∀ inside, operator.readInner inside inner = .ok expression) :
    ValueText (depth + 1) expression where
  piece := same ▸ isPiece_called operator.isName_word balanced
  balanced := same ▸ balanced.called operator.isName_word.isPlain
  unseparated := same ▸ unseparated_called operator.isName_word unseparated
  read := by
    intro position
    rw [same]
    exact Phrase.readValue_called (Operator.ofWord?_word operator) operator.isName_word.isPlain
      written balanced read position
  shape := .inr ⟨operator, inner, depth, same, written, rfl, balanced⟩

/-- A call with a pattern, which is taken as it is. -/
theorem ValueText.of_pattern {operator : Operator} {make : String → Expression} {pattern : String}
    (reads : ∀ inside inner, operator.readInner inside inner =
      (readLiteral inside inner).map make)
    (same : (make pattern).text = called operator.word pattern.toList) (named : IsName pattern)
    (depth : Nat) : ValueText (depth + 1) (make pattern) := by
  apply ValueText.of_called same named.toList_ne_nil (.of_plain depth named.isPlain)
    named.unseparated
  intro inside
  rw [reads]
  exact map_eq_ok_iff.mpr ⟨_, readLiteral_of_isPlain named.isPlain inside, by simp⟩

theorem ValueText.of_oneOf {items : List String} (some : items ≠ [])
    (named : ∀ item ∈ items, IsName item) (depth : Nat) :
    ValueText (depth + 1) (.oneOf items) := by
  have pieces : ∀ item ∈ items, IsPiece item.toList := fun item member =>
    (named item member).isPiece
  have written : commas (items.map String.toList) ≠ [] :=
    commas_ne_nil (by simpa using some) (List.forall_mem_map.mpr fun item member =>
      (pieces item member).written)
  have same : (Expression.oneOf items).text =
      called Operator.oneOf.word (commas (items.map String.toList)) := by
    rw [text]
    rfl
  apply ValueText.of_called same written
  · exact balanced_commas (List.forall_mem_map.mpr fun item member =>
      .of_plain depth (named item member).isPlain)
  · exact unseparated_commas (List.forall_mem_map.mpr fun item member =>
      (named item member).unseparated)
  · intro inside
    have reads : ∀ item ∈ items, ∀ position, readLiteral position item.toList = .ok item := by
      intro item member position
      rw [readLiteral_of_isPlain (named item member).isPlain, String.ofList_toList]
    obtain ⟨slices, cut, read⟩ := exists_read_commas some pieces reads .item inside
    rw [List.map_id'] at read
    rw [Operator.readInner, readItems, List.isEmpty_eq_false_iff.mpr written, cut]
    exact map_eq_ok_iff.mpr ⟨items, read, rfl⟩

/-- A call with operands, which are read one by one. -/
theorem ValueText.of_operands {operator : Operator} {make : List Expression → Expression}
    {operands : List Expression}
    (reads : ∀ inside inner, operator.readInner inside inner =
      (arguments .operatorArgument inside inner).bind fun slices => (readValues slices).map make)
    (same : (make operands).text = called operator.word (commas (texts operands)))
    (some : operands ≠ []) (each : ∀ operand ∈ operands, ValueText depth operand) :
    ValueText (depth + 1) (make operands) := by
  rw [texts_eq_map] at same
  apply ValueText.of_called same
  · exact commas_ne_nil (by simpa using some) (List.forall_mem_map.mpr fun operand member =>
      (each operand member).piece.written)
  · exact balanced_commas (List.forall_mem_map.mpr fun operand member =>
      (each operand member).balanced)
  · exact unseparated_commas (List.forall_mem_map.mpr fun operand member =>
      (each operand member).unseparated)
  · intro inside
    obtain ⟨slices, cut, read⟩ := exists_read_commas some
      (fun operand member => (each operand member).piece)
      (fun operand member => (each operand member).read) .operatorArgument inside
    rw [List.map_id', ← readValues_eq_mapM] at read
    rw [reads]
    exact bind_eq_ok_iff.mpr ⟨slices, cut, map_eq_ok_iff.mpr ⟨operands, read, rfl⟩⟩

/-- The conditions of a group are read one by one. -/
theorem GroupText.of_conditions {joining : Connective} {conditions : List Expression}
    (some : conditions ≠ []) (each : ∀ condition ∈ conditions, ConditionText depth condition)
    (same : expression.text = called joining.word (commas (texts conditions)))
    (joins : joining.join conditions = expression) :
    GroupText (depth + 1) joining expression := by
  rw [texts_eq_map] at same
  have written : commas (conditions.map text) ≠ [] :=
    commas_ne_nil (by simpa using some) (List.forall_mem_map.mpr fun condition member =>
      (each condition member).piece.written)
  have balanced : Balanced depth (commas (conditions.map text)) :=
    balanced_commas (List.forall_mem_map.mpr fun condition member =>
      (each condition member).balanced)
  refine ⟨⟨_, depth, same, written, rfl, balanced⟩, ?_⟩
  intro position
  obtain ⟨slices, cut, read⟩ := exists_read_commas some
    (fun condition member => (each condition member).piece)
    (fun condition member => (each condition member).read) .group
    (position + joining.word.toList.length + 1)
  rw [List.map_id'] at read
  have called := Call.read_called (Connective.ofWord?_word joining)
    joining.isName_word.isPlain written balanced .group position
  rw [readGroup_eq, same, called]
  simp only [bind, Except.bind, cut, readConditions_eq_mapM, read]
  rw [joins]
  rfl

theorem ConditionText.of_rows {rows : List (String × Expression)} (some : rows ≠ [])
    (sorted : Table.Sorted rows) (each : ∀ row ∈ rows, EntryText depth row) :
    ConditionText depth (.group rows) := by
  have same : (Expression.group rows).text = joined ((rows.map entry).map entryText) := by
    rw [text, entryTexts_eq_map]
  refine ⟨?_, ?_, ?_⟩
  · rw [same, List.map_map]
    exact isPiece_joined (by simpa using some) (List.forall_mem_map.mpr fun row member =>
      (each row member).piece)
  · rw [same, List.map_map]
    exact balanced_joined (List.forall_mem_map.mpr fun row member => (each row member).balanced)
  · intro position
    obtain ⟨segments, cut, parts⟩ := IsEntry.exists_ofText_joined
      (by simpa using some : rows.map entry ≠ [])
      (List.forall_mem_map.mpr fun row member => (each row member).isEntry) position
    have read := mapM_of_map_eq parts fun row member => (each row member).read
    rw [List.map_id'] at read
    rw [readCondition_eq, same, cut]
    simp only [bind, Except.bind, readSegments_eq_mapM, read]
    have filled : rows.isEmpty = false := by simpa using some
    rw [filled, Table.ofRows_eq_self sorted]
    rfl

/-- A field with its value. -/
theorem EntryText.of_value {name : String} (named : IsName name)
    (notGroup : expression.isGroup = false)
    (value : ValueText depth expression) : EntryText depth (name, expression) := by
  have same : entry (name, expression) = (name.toList, some expression.text) := by
    rw [entry, notGroup]
    rfl
  have assign : CommasInside ['='] := .of_not_mem (by decide)
  have plain := (Balanced.of_plain 0 named.isPlain).countP_eq
  have balanced : Balanced depth (entryText (entry (name, expression))) := by
    rw [same]
    exact (Balanced.of_plain depth named.isPlain).append (.plain (by decide) value.balanced)
  refine ⟨?_, ⟨?_, ?_, depth, balanced⟩, balanced, ?_⟩
  · rw [same]
    exact .value (.of_plain 0 named.isPlain) named.unseparated value.balanced value.unseparated
  · rw [same]
    simp [entryText]
  · rw [same]
    exact (CommasInside.of_not_mem named.not_mem_comma).append plain
      (assign.append rfl value.piece.inside)
  · intro segment parts
    obtain ⟨position, key, found⟩ := segment
    rw [same, Segment.parts, Prod.mk.injEq] at parts
    obtain ⟨rfl, rfl⟩ := parts
    have readKey := readName_of_isName named position
    have readText := value.read (position + name.toList.length + 1)
    rw [Segment.read]
    exact bind_eq_ok_iff.mpr ⟨name, readKey, bind_eq_ok_iff.mpr ⟨expression, readText, rfl⟩⟩

/-- A group, under the word of its connective. -/
theorem EntryText.of_group {joining : Connective} (isGroup : expression.isGroup = true)
    (group : GroupText depth joining expression) : EntryText depth (joining.word, expression) := by
  have same : entry (joining.word, expression) = (expression.text, none) := by
    rw [entry, isGroup]
    rfl
  have named := joining.isName_word
  obtain ⟨inner, less, text, written, rfl, balanced⟩ := group.call
  have whole : Balanced (less + 1) (entryText (entry (joining.word, expression))) := by
    rw [same, text]
    exact balanced.called named.isPlain
  refine ⟨?_, ?_, whole, ?_⟩
  · rw [same, text]
    exact .call named.isPlain named.unseparated balanced
  · rw [same, text]
    exact isPiece_called named balanced
  · intro segment parts
    obtain ⟨position, key, found⟩ := segment
    rw [same, Segment.parts, Prod.mk.injEq] at parts
    obtain ⟨rfl, rfl⟩ := parts
    have opened : expression.text.contains '(' = true := by
      rw [text]
      simp [called]
    simp only [Segment.read, opened, if_true, group.read]
    rfl

/-- What the text of an expression is good for in a place. -/
def Form.Written (depth : Nat) : Form → Expression → Prop
  | .value, expression => ValueText depth expression ∧ expression.isGroup = false ∧
      ∀ fields, expression ≠ .group fields
  | .group joining, expression =>
      GroupText depth joining expression ∧ expression.isGroup = true
  | .condition, expression => ConditionText depth expression ∧ ∃ fields, expression = .group fields
  | .entry name, expression => EntryText depth (name, expression)

theorem text_not {operand : Expression} (notGroup : operand.isGroup = false) :
    (not operand).text = called Connective.not.word operand.text := by
  rw [text]
  · rfl
  · intro fields rest same
    rw [same] at notGroup
    cases notGroup

theorem isGroup_not {operand : Expression} (notGroup : operand.isGroup = false)
    (notFields : ∀ fields, operand ≠ group fields) : (not operand).isGroup = false := by
  rw [isGroup]
  · simp
  · simp
  · intro fields same
    exact notFields fields (Expression.not.inj same)
  · intro fields rest same
    rw [Expression.not.inj same] at notGroup
    cases notGroup

/-- Where no operand is a set of conditions, there is no group. -/
theorem isGroup_of_values {operands : List Expression}
    (values : ∀ operand ∈ operands, ∀ fields, operand ≠ group fields) :
    (and operands).isGroup = false ∧ (or operands).isGroup = false := by
  cases operands with
  | nil => exact ⟨rfl, rfl⟩
  | cons operand rest =>
      have first := values operand List.mem_cons_self
      cases operand with
      | group fields => exact absurd rfl (first fields)
      | _ => exact ⟨rfl, rfl⟩

/-- Where the first operand is a set of conditions, there is a group. -/
theorem isGroup_of_conditions {operands : List Expression} (some : operands ≠ [])
    (conditions : ∀ operand ∈ operands, ∃ fields, operand = group fields) :
    (and operands).isGroup = true ∧ (or operands).isGroup = true := by
  obtain ⟨operand, rest, rfl⟩ := List.exists_cons_of_ne_nil some
  obtain ⟨fields, rfl⟩ := conditions operand List.mem_cons_self
  exact ⟨rfl, rfl⟩

/-- What the text of an expression that can be written for a place is good for. -/
theorem Writable.written {form : Form} (writable : Writable depth form expression) :
    Form.Written depth form expression := by
  induction writable with
  | literal depth named => exact ⟨.of_literal named depth, rfl, by simp⟩
  | @like pattern depth named =>
      have same : (Expression.like pattern).text = called Operator.like.word pattern.toList := by
        rw [text]
        rfl
      exact ⟨.of_pattern (fun _ _ => rfl) same named depth, rfl, by simp⟩
  | @notLike pattern depth named =>
      have same : (Expression.notLike pattern).text =
          called Operator.notLike.word pattern.toList := by
        rw [text]
        rfl
      exact ⟨.of_pattern (fun _ _ => rfl) same named depth, rfl, by simp⟩
  | oneOf depth some named => exact ⟨.of_oneOf some named depth, rfl, by simp⟩
  | @not depth operand _ hypothesis =>
      obtain ⟨value, notGroup, notFields⟩ := hypothesis
      have same : (Expression.not operand).text =
          called (Operator.connective .not).word operand.text := text_not notGroup
      refine ⟨.of_called same value.piece.written value.balanced value.unseparated ?_,
        isGroup_not notGroup notFields, by simp⟩
      intro inside
      exact map_eq_ok_iff.mpr ⟨operand, value.read inside, rfl⟩
  | @and depth operands some _ hypothesis =>
      have values := isGroup_of_values fun operand member => (hypothesis operand member).2.2
      have same : (Expression.and operands).text =
          called (Operator.connective .and).word (commas (texts operands)) := by
        rw [text]
        rfl
      exact ⟨.of_operands (fun _ _ => rfl) same some fun operand member =>
        (hypothesis operand member).1, values.1, by simp⟩
  | @or depth operands some _ hypothesis =>
      have values := isGroup_of_values fun operand member => (hypothesis operand member).2.2
      have same : (Expression.or operands).text =
          called (Operator.connective .or).word (commas (texts operands)) := by
        rw [text]
        rfl
      exact ⟨.of_operands (fun _ _ => rfl) same some fun operand member =>
        (hypothesis operand member).1, values.2, by simp⟩
  | @allOf depth conditions some _ hypothesis =>
      have group := isGroup_of_conditions some fun condition member =>
        (hypothesis condition member).2
      have same : (Expression.and conditions).text =
          called Connective.and.word (commas (texts conditions)) := by
        rw [text]
        rfl
      exact ⟨.of_conditions some (fun condition member => (hypothesis condition member).1) same rfl,
        group.1⟩
  | @anyOf depth conditions some _ hypothesis =>
      have group := isGroup_of_conditions some fun condition member =>
        (hypothesis condition member).2
      have same : (Expression.or conditions).text =
          called Connective.or.word (commas (texts conditions)) := by
        rw [text]
        rfl
      exact ⟨.of_conditions some (fun condition member => (hypothesis condition member).1) same rfl,
        group.2⟩
  | @negated depth condition _ hypothesis =>
      obtain ⟨written, fields, rfl⟩ := hypothesis
      have same : (Expression.not (.group fields)).text =
          called Connective.not.word (commas (texts [.group fields])) := by
        rw [text_not rfl, texts, texts, commas_single]
      refine ⟨.of_conditions (List.cons_ne_nil _ _) ?_ same rfl, rfl⟩
      intro condition member
      rw [List.mem_singleton.mp member]
      exact written
  | @negatedAll depth conditions several _ hypothesis =>
      match conditions, several with
      | first :: second :: rest, _ =>
          obtain ⟨fields, rfl⟩ := (hypothesis first List.mem_cons_self).2
          have same : (Expression.not (.and (.group fields :: second :: rest))).text =
              called Connective.not.word (commas (texts (.group fields :: second :: rest))) := by
            simp only [text, texts]
            rfl
          exact ⟨.of_conditions (List.cons_ne_nil _ _)
            (fun condition member => (hypothesis condition member).1) same rfl, rfl⟩
  | fields some sorted _ hypothesis =>
      exact ⟨.of_rows some sorted hypothesis, _, rfl⟩
  | ofValue named _ hypothesis => exact .of_value named hypothesis.2.1 hypothesis.1
  | ofGroup _ hypothesis => exact .of_group hypothesis.2 hypothesis.1

end Expression

/-! ### Lists of fields and of functions -/

theorem nodup_eraseDups : (names : List String) → names.eraseDups.Nodup
  | [] => .nil
  | name :: rest => by
      rw [List.eraseDups_cons, List.nodup_cons]
      refine ⟨fun member => ?_, nodup_eraseDups _⟩
      have other := List.mem_eraseDups.mp member
      simp at other
termination_by names => names.length
decreasing_by exact Nat.lt_succ_of_le (List.length_filter_le _ rest)

theorem eraseDups_of_nodup {names : List String} (distinct : names.Nodup) :
    names.eraseDups = names := by
  induction names with
  | nil => rfl
  | cons name rest hypothesis =>
      obtain ⟨absent, distinctRest⟩ := List.nodup_cons.mp distinct
      have kept : (rest.filter fun other => !other == name) = rest := by
        rw [List.filter_eq_self]
        intro other member
        have different : other ≠ name := fun same => absent (same ▸ member)
        simpa using different
      rw [List.eraseDups_cons, kept, hypothesis distinctRest]

/-- What is written for a list of fields is read as that list. -/
theorem readFields_commas {fields : List String} (some : fields ≠ [])
    (named : ∀ field ∈ fields, IsName field) (distinct : fields.Nodup) (position : Nat) :
    readFields position (commas (fields.map String.toList)) = .ok fields := by
  obtain ⟨slices, cut, read⟩ := exists_read_commas some
    (fun field member => (named field member).isPiece)
    (fun field member => readName_of_isName (named field member)) .fieldName position
  have written : commas (fields.map String.toList) ≠ [] :=
    commas_ne_nil (by simpa using some) (List.forall_mem_map.mpr
      fun field member => (named field member).toList_ne_nil)
  rw [List.map_id'] at read
  rw [readFields, List.isEmpty_eq_false_iff.mpr written, cut]
  simp only [bind, Except.bind, read, eraseDups_of_nodup distinct]
  rfl

namespace FunctionCall

/-- What is written for a call of a function. -/
def text (call : FunctionCall) : List Char :=
  called call.name (commas (call.arguments.map String.toList))

/-- The function and its arguments can be written. -/
structure Writable (call : FunctionCall) : Prop where
  name : IsName call.name
  arguments : ∀ argument ∈ call.arguments, IsName argument

/-- A name and a text in parentheses are read as a call. -/
theorem read_called {name : String} {depth : Nat} {inner : List Char} (named : IsName name)
    (balanced : Balanced depth inner) (position : Nat) :
    FunctionCall.read position (called name inner) =
      if inner.isEmpty then .ok ⟨name, []⟩
      else do
        let slices ← QueryGate.arguments .functionArgument (position + name.toList.length + 1) inner
        let names ← slices.mapM fun slice => readName slice.position slice.text
        return ⟨name, names⟩ := by
  have before := ne_paren_of_isPlain named.isPlain
  have closed := enclosed_of_balanced balanced '(' (position + name.toList.length + 1)
  have closer : closerOf '(' = ')' := rfl
  have readName := readName_of_isName named position
  have notEmpty : name.toList.isEmpty = false := by simpa using named.toList_ne_nil
  rw [closer] at closed
  simp only [FunctionCall.read, called, List.append_assoc, List.takeWhile_append_of_pos before,
    List.dropWhile_append_of_pos before]
  simp [notEmpty, readName, closed, bind, Except.bind, pure, Except.pure]

variable {call : FunctionCall} (writable : call.Writable)
include writable

theorem Writable.isPlain_arguments : IsPlain (commas (call.arguments.map String.toList)) :=
  forall_mem_commas rfl (List.forall_mem_map.mpr fun argument member =>
    (writable.arguments argument member).isPlain)

theorem Writable.isPiece : IsPiece call.text :=
  isPiece_called writable.name (.of_plain 0 writable.isPlain_arguments)

/-- What is written for a call is read as that call. -/
theorem Writable.read (position : Nat) : FunctionCall.read position call.text = .ok call := by
  rw [text, read_called writable.name (.of_plain 0 writable.isPlain_arguments)]
  obtain ⟨name, arguments⟩ := call
  cases arguments with
  | nil => rfl
  | cons argument rest =>
      obtain ⟨slices, cut, read⟩ := exists_read_commas (List.cons_ne_nil argument rest)
        (fun other member => (writable.arguments other member).isPiece)
        (fun other member => readName_of_isName (writable.arguments other member))
        .functionArgument (position + name.toList.length + 1)
      have written : commas ((argument :: rest).map String.toList) ≠ [] :=
        commas_ne_nil (List.cons_ne_nil _ _) (List.forall_mem_map.mpr
          fun other member => (writable.arguments other member).toList_ne_nil)
      rw [List.map_id'] at read
      rw [List.isEmpty_eq_false_iff.mpr written]
      exact bind_eq_ok_iff.mpr ⟨slices, cut, bind_eq_ok_iff.mpr ⟨_, read, rfl⟩⟩

end FunctionCall

/-- A function in a list is a name, or a name and a text without brackets in parentheses. -/
inductive FunctionCall.Shape (text : List Char) : Prop where
  | name {name : String} : text = name.toList → IsName name → FunctionCall.Shape text
  | call {name : String} {inner : List Char} :
      text = called name inner → IsName name → IsPlain inner → FunctionCall.Shape text

theorem FunctionCall.shape_of_read {position : Nat} {text : List Char} {call : FunctionCall}
    (read : FunctionCall.read position text = .ok call) : FunctionCall.Shape text := by
  simp only [FunctionCall.read] at read
  split at read
  · obtain ⟨name, readText, -⟩ := map_eq_ok_iff.mp read
    have written := (readName_eq_ok_iff.mp readText).2.2
    exact .name (by rw [← written, String.toList_ofList]) (isName_of_readName readText)
  · rename_i opener rest dropped
    split at read
    · cases read
    · simp only [bind_eq_ok_iff] at read
      obtain ⟨name, readWord, inner, closed, read⟩ := read
      obtain ⟨rfl, -⟩ := balanced_of_enclosed closed
      have whole : text = called name inner := by
        have split := eq_of_dropWhile_paren dropped
        have written := (readName_eq_ok_iff.mp readWord).2.2
        simpa [called, closerOf, ← written] using split
      refine .call whole (isName_of_readName readWord) ?_
      split at read
      · rename_i nothing
        rw [List.isEmpty_iff.mp nothing]
        simp [IsPlain]
      · simp only [bind_eq_ok_iff] at read
        obtain ⟨slices, cut, names, readAll, -⟩ := read
        rw [commas_of_arguments cut]
        refine forall_mem_commas rfl (List.forall_mem_map.mpr ?_)
        intro slice member char inSlice
        obtain ⟨name, readSlice⟩ := exists_mapM_eq_ok_iff.mp ⟨names, readAll⟩ slice member
        exact isBracket_of_isSeparator ((readName_eq_ok_iff.mp readSlice).2.1 char inSlice)

/-- What is written for a list of functions is read as that list. -/
theorem readFunctions_commas {calls : List FunctionCall} (some : calls ≠ [])
    (writable : ∀ call ∈ calls, call.Writable) (position : Nat) :
    readFunctions position (commas (calls.map FunctionCall.text)) = .ok calls := by
  obtain ⟨slices, cut, read⟩ := exists_read_commas some
    (fun call member => (writable call member).isPiece)
    (fun call member => (writable call member).read) .functionCall position
  have written : commas (calls.map FunctionCall.text) ≠ [] :=
    commas_ne_nil (by simpa using some) (List.forall_mem_map.mpr
      fun call member => (writable call member).isPiece.written)
  rw [List.map_id'] at read
  rw [readFunctions, List.isEmpty_eq_false_iff.mpr written, cut]
  exact read

end QueryGate
