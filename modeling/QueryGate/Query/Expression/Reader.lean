import QueryGate.Query.Expression
import QueryGate.Query.Segment

/-!
# Reading expressions

An expression stands where a parameter's value does: a list in square brackets, a
call of an operator, or a literal. A group stands where a parameter's name does:
a call of a connective whose arguments are query levels of conditions.

Positions are those of the whole query text; each reader is told where its own
text stands.
-/

namespace QueryGate

/-- The place of the first character that satisfies a test, and that character. -/
def firstMatch? (test : Char → Bool) (position : Nat) : List Char → Option (Nat × Char)
  | [] => none
  | char :: rest => if test char then some (position, char) else firstMatch? test (position + 1) rest

/-- Reads a literal: any text without brackets, even an empty one. -/
def readLiteral (position : Nat) (text : List Char) : Except QueryError String :=
  match firstMatch? isBracket position text with
  | some (place, found) => .error (.unexpected place found)
  | none => .ok (String.ofList text)

/-- Whether a character separates parts of a query and so cannot be in a name. -/
def isSeparator (char : Char) : Bool :=
  isBracket char || char == ',' || char == '.' || char == '=' || char == '&'

/-- Reads the name of a field, a relation or a function. -/
def readName (position : Nat) (text : List Char) : Except QueryError String :=
  if text.isEmpty then .error (.empty position .name)
  else
    match firstMatch? isSeparator position text with
    | some (place, found) => .error (.unexpected place found)
    | none => .ok (String.ofList text)

/-- Reads the items of a list, each a literal that is not empty. -/
def readItems (position : Nat) (text : List Char) : Except QueryError (List String) :=
  if text.isEmpty then .error (.empty position .itemList)
  else do
    let slices ← arguments .item position text
    slices.mapM fun slice => readLiteral slice.position slice.text

/-- A call `keyword(inner)` that a text consists of. -/
structure Call (κ : Type) where
  keyword : κ
  /-- Where the inner text stands. -/
  position : Nat
  inner : List Char

/-- Reads a text as a call, `none` when no parenthesis is opened in it. Only the
given keywords can be called, and the inner text must not be empty. -/
def Call.read {κ : Type} (keyword? : String → Option κ) (part : Part) (position : Nat)
    (text : List Char) : Except QueryError (Option (Call κ)) :=
  let word := text.takeWhile (· != '(')
  match text.dropWhile (· != '(') with
  | [] => .ok none
  | _ :: rest =>
      match keyword? (String.ofList word) with
      | none => .error (.unexpected (position + word.length) '(')
      | some keyword => do
          let innerPosition := position + word.length + 1
          let inner ← enclosed '(' innerPosition rest
          if inner.isEmpty then .error (.empty innerPosition part)
          else return some ⟨keyword, innerPosition, inner⟩

/-- The inner text of a call lacks at least the two parentheses. -/
theorem Call.length_read {κ : Type} {keyword? : String → Option κ} {part : Part}
    {position : Nat} {text : List Char} {call : Call κ}
    (found : Call.read keyword? part position text = .ok (some call)) :
    call.inner.length + 2 ≤ text.length := by
  have whole : text.length =
      (text.takeWhile (· != '(')).length + (text.dropWhile (· != '(')).length := by
    rw [← List.length_append, List.takeWhile_append_dropWhile]
  rw [Call.read] at found
  split at found
  · simp at found
  · rename_i opener rest dropped
    split at found
    · simp at found
    · rename_i keyword _
      cases closed : enclosed '(' (position + (text.takeWhile (· != '(')).length + 1) rest with
      | error fault => simp [closed, bind, Except.bind] at found
      | ok inner =>
          have total := length_enclosed closed
          simp only [closed, bind, Except.bind] at found
          split at found
          · simp at found
          · simp only [pure, Except.pure, Except.ok.injEq, Option.some.injEq] at found
            subst found
            simp only [dropped, List.length_cons] at whole
            simp only
            omega

mutual

/-- Reads the value of a parameter. -/
def readValue (position : Nat) (text : List Char) : Except QueryError Expression :=
  match text with
  | '[' :: rest => do
      let inner ← enclosed '[' (position + 1) rest
      let items ← readItems (position + 1) inner
      return .oneOf items
  | text =>
      match _called : Call.read Operator.ofWord? .operatorArgument position text with
      | .error error => .error error
      | .ok none => (readLiteral position text).map .literal
      | .ok (some ⟨.like, inside, inner⟩) => (readLiteral inside inner).map .like
      | .ok (some ⟨.notLike, inside, inner⟩) => (readLiteral inside inner).map .notLike
      | .ok (some ⟨.oneOf, inside, inner⟩) => (readItems inside inner).map .oneOf
      | .ok (some ⟨.connective .not, inside, inner⟩) => (readValue inside inner).map .not
      | .ok (some ⟨.connective .and, inside, inner⟩) =>
          match _cut : arguments .operatorArgument inside inner with
          | .error error => .error error
          | .ok slices => (readValues slices).map .and
      | .ok (some ⟨.connective .or, inside, inner⟩) =>
          match _cut : arguments .operatorArgument inside inner with
          | .error error => .error error
          | .ok slices => (readValues slices).map .or
termination_by text.length
decreasing_by
  · have shorter := Call.length_read _called
    simp only at shorter
    omega
  · have shorter := Call.length_read _called
    have total := totalLength_arguments _cut
    simp only at shorter
    omega
  · have shorter := Call.length_read _called
    have total := totalLength_arguments _cut
    simp only at shorter
    omega

/-- Reads the arguments of a connective. -/
def readValues (slices : List Slice) : Except QueryError (List Expression) :=
  match slices with
  | [] => .ok []
  | slice :: rest => do
      let operand ← readValue slice.position slice.text
      let operands ← readValues rest
      return operand :: operands
termination_by Slice.totalLength slices
decreasing_by
  all_goals
    simp only [Slice.totalLength_cons]
    omega
end

/-- The expression of a connective over the conditions of its group. Several
negated conditions are negated together. -/
def Connective.join : Connective → List Expression → Expression
  | .and, conditions => .and conditions
  | .or, conditions => .or conditions
  | .not, [condition] => .not condition
  | .not, conditions => .not (.and conditions)

mutual

/-- Reads a group: the connective that is called, and the expression it makes of
its conditions. -/
def readGroup (position : Nat) (text : List Char) :
    Except QueryError (Connective × Expression) :=
  match _called : Call.read Connective.ofWord? .group position text with
  | .error error => .error error
  | .ok none => .error (.empty (position + text.length) .group)
  | .ok (some ⟨joining, inside, inner⟩) =>
      match _cut : arguments .group inside inner with
      | .error error => .error error
      | .ok slices =>
          (readConditions slices).map fun conditions => (joining, joining.join conditions)
termination_by 3 * text.length
decreasing_by
  have shorter := Call.length_read _called
  have total := totalLength_arguments _cut
  simp only at shorter
  omega

/-- Reads the arguments of a group. -/
def readConditions (slices : List Slice) : Except QueryError (List Expression) :=
  match slices with
  | [] => .ok []
  | slice :: rest => do
      let condition ← readCondition slice.position slice.text
      let conditions ← readConditions rest
      return condition :: conditions
termination_by 3 * Slice.totalLength slices + 2
decreasing_by
  all_goals
    simp only [Slice.totalLength_cons]
    omega

/-- Reads one argument of a group: a query level of conditions and nested groups. A
nested group stands under the word of its connective. -/
def readCondition (position : Nat) (text : List Char) : Except QueryError Expression :=
  match _cut : Segment.ofText position text with
  | .error error => .error error
  | .ok segments => do
      let rows ← readSegments segments
      if rows.isEmpty then .error (.empty position .group)
      else return .group (Table.ofRows rows)
termination_by 3 * (text.length + 1) + 1
decreasing_by
  have total := Segment.totalLength_ofText _cut
  omega

/-- Reads the segments of a query level in a group. -/
def readSegments (segments : List Segment) : Except QueryError (List (String × Expression)) :=
  match segments with
  | [] => .ok []
  | ⟨position, key, some value⟩ :: rest => do
      let name ← readName position key
      let condition ← readValue (position + key.length + 1) value
      let rows ← readSegments rest
      return (name, condition) :: rows
  | ⟨position, key, none⟩ :: rest =>
      if key.contains '(' then do
        let (joining, condition) ← readGroup position key
        let rows ← readSegments rest
        return (joining.word, condition) :: rows
      else .error (.empty (position + key.length) .groupValue)
termination_by 3 * Segment.totalLength segments
decreasing_by
  all_goals
    simp only [Segment.totalLength_cons, Segment.length]
    omega

end

end QueryGate
