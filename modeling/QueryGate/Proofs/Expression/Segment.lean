import QueryGate.Proofs.Expression.Level
import QueryGate.Proofs.Expression.Open

/-!
# Where a level is cut

A level is cut at each `&` that stands in no parentheses. Square brackets hide no separator, so
a segment can end inside a list; but in each segment as many parentheses are closed as are
opened. The segments stand in the level where they say.
-/

namespace QueryGate

namespace Segment

/-- What a segment that is cut off a text was: its value if its `=` has been passed, and else
its key with the value. -/
def textOf (inValue : Bool) (segment : Segment) : List Char :=
  if inValue then segment.value.getD [] else entryText segment.parts

/-- The text is cut behind `front`, where `depth` parentheses are closed again: at its end, or at
a `&` in front of which all are closed. No `&` of `front` is such. -/
structure CutsAt (inValue : Bool) (depth position : Nat) (text front : List Char)
    (segment : Segment) (later : List Segment) : Prop where
  position_eq : segment.position = position
  textOf_eq : segment.textOf inValue = front
  closed : front.count ')' = depth + front.count '('
  inside : ∀ before after, front = before ++ '&' :: after →
    before.count ')' < depth + before.count '('
  ends : (text = front ∧ later = []) ∨
    ∃ rest next, text = front ++ '&' :: rest ∧
      cut false 0 (position + front.length + 1) rest = .ok next ∧ later = consSegment next

variable {inValue : Bool} {depth deeper position : Nat} {text front rest : List Char} {char : Char}
  {segment : Segment} {later : List Segment}

theorem count_cons_eq (other char : Char) (text : List Char) :
    (char :: text).count other = [char].count other + text.count other := by
  rw [← List.singleton_append, List.count_append]

theorem textOf_consChar (char : Char) (later : List Segment)
    (passed : inValue = true → segment.key = [] ∧ segment.value.isSome = true) :
    (consChar inValue position char (segment, later)).1.textOf inValue =
      char :: segment.textOf inValue := by
  rcases segment with ⟨place, key, value⟩
  cases inValue with
  | true =>
      obtain ⟨value, rfl⟩ := Option.isSome_iff_exists.mp (passed rfl).2
      rfl
  | false => cases value <;> rfl

namespace CutsAt

theorem nil (inValue : Bool) (position : Nat) :
    CutsAt inValue 0 position [] [] (start inValue position) [] where
  position_eq := rfl
  textOf_eq := by cases inValue <;> rfl
  closed := rfl
  inside := by simp
  ends := .inl ⟨rfl, rfl⟩

/-- The front ends at a separator that stands in no parentheses. -/
theorem separator {next : Segment × List Segment} (inValue : Bool)
    (cutRest : cut false 0 (position + 1) rest = .ok next) :
    CutsAt inValue 0 position ('&' :: rest) [] (start inValue position) (consSegment next) where
  position_eq := rfl
  textOf_eq := by cases inValue <;> rfl
  closed := rfl
  inside := by simp
  ends := .inr ⟨rest, next, rfl, cutRest, rfl⟩

theorem ends_cons (cuts : CutsAt inValue deeper (position + 1) rest front segment later)
    (char : Char) :
    (char :: rest = char :: front ∧ later = []) ∨
      ∃ behind next, char :: rest = char :: front ++ '&' :: behind ∧
        cut false 0 (position + (char :: front).length + 1) behind = .ok next ∧
        later = consSegment next := by
  obtain ⟨rfl, rfl⟩ | ⟨behind, next, rfl, found, rfl⟩ := cuts.ends
  · exact .inl ⟨rfl, rfl⟩
  · refine .inr ⟨behind, next, rfl, ?_, rfl⟩
    rw [List.length_cons, ← found]
    congr 1
    omega

/-- The `=` of the segment. -/
theorem assign (cuts : CutsAt true 0 (position + 1) rest front segment later)
    (found : segment.value.isSome = true) :
    CutsAt false 0 position ('=' :: rest) ('=' :: front) ⟨position, [], segment.value⟩ later where
  position_eq := rfl
  textOf_eq := by
    obtain ⟨value, same⟩ := Option.isSome_iff_exists.mp found
    have value_eq := cuts.textOf_eq
    simp only [textOf, same, if_true, Option.getD_some] at value_eq
    simp [textOf, parts, entryText, same, value_eq]
  closed := by simpa using cuts.closed
  inside := by
    intro before after equal
    cases before with
    | nil => cases equal
    | cons first before =>
        obtain ⟨rfl, equalRest⟩ := List.cons.inj equal
        simpa using cuts.inside before after equalRest
  ends := cuts.ends_cons '='

/-- A character of the segment: `deeper` parentheses are open behind it. -/
theorem cons (cuts : CutsAt inValue deeper (position + 1) rest front segment later)
    (passed : inValue = true → segment.key = [] ∧ segment.value.isSome = true)
    (counted : deeper + [char].count ')' = depth + [char].count '(')
    (notSeparator : char = '&' → depth ≠ 0) :
    CutsAt inValue depth position (char :: rest) (char :: front)
      (consChar inValue position char (segment, later)).1 later where
  position_eq := by cases inValue <;> rfl
  textOf_eq := by rw [textOf_consChar char later passed, cuts.textOf_eq]
  closed := by
    have closed := cuts.closed
    rw [count_cons_eq ')', count_cons_eq '(']
    omega
  inside := by
    intro before after equal
    cases before with
    | nil =>
        obtain ⟨rfl, -⟩ := List.cons.inj equal
        simpa [Nat.pos_iff_ne_zero] using notSeparator rfl
    | cons first before =>
        obtain ⟨rfl, equalRest⟩ := List.cons.inj equal
        have less := cuts.inside before after equalRest
        rw [count_cons_eq ')', count_cons_eq '(']
        omega
  ends := cuts.ends_cons char

end CutsAt

/-- What a cut does with a character: a `)` that closes nothing ends it, a separator ends the
segment, a `=` its key, and any other character belongs to what is being read. -/
theorem cut_cons_cases (inValue : Bool) (depth position : Nat) (char : Char) (rest : List Char) :
    (char = ')' ∧ depth = 0 ∧
        cut inValue depth position (char :: rest) = .error (.unexpected position ')')) ∨
      (char = '&' ∧ depth = 0 ∧
        cut inValue depth position (char :: rest) =
          (cut false 0 (position + 1) rest).map fun next =>
            (start inValue position, consSegment next)) ∨
      (char = '=' ∧ depth = 0 ∧ inValue = false ∧
        cut inValue depth position (char :: rest) =
          (cut true 0 (position + 1) rest).map fun (segment, later) =>
            (⟨position, [], segment.value⟩, later)) ∨
      ∃ deeper, deeper + [char].count ')' = depth + [char].count '(' ∧
        (char = '&' → depth ≠ 0) ∧ (char = '=' → depth = 0 → inValue = true) ∧
        cut inValue depth position (char :: rest) =
          (cut inValue deeper (position + 1) rest).map (consChar inValue position char) := by
  by_cases opens : char = '('
  · subst opens
    exact .inr (.inr (.inr ⟨depth + 1, by simp, by simp, by simp, by simp [cut]⟩))
  by_cases closes : char = ')'
  · subst closes
    cases depth with
    | zero => exact .inl ⟨rfl, rfl, by simp [cut]⟩
    | succ depth => exact .inr (.inr (.inr ⟨depth, by simp, by simp, by simp, by simp [cut]⟩))
  by_cases separates : char = '&' ∧ depth = 0
  · obtain ⟨rfl, rfl⟩ := separates
    exact .inr (.inl ⟨rfl, rfl, by simp [cut]⟩)
  by_cases assigns : char = '=' ∧ depth = 0 ∧ inValue = false
  · obtain ⟨rfl, rfl, rfl⟩ := assigns
    exact .inr (.inr (.inl ⟨rfl, rfl, rfl, by simp [cut]⟩))
  refine .inr (.inr (.inr ⟨depth, by simp [opens, closes], ?_, ?_, ?_⟩))
  · exact fun same level => separates ⟨same, level⟩
  · intro same level
    exact Bool.of_not_eq_false fun key => assigns ⟨same, level, key⟩
  · rw [cut.eq_def]
    simp only [opens, closes, separates, assigns, if_false]

/-- Every text that can be cut is cut behind such a front. -/
theorem exists_cutsAt_of_cut (found : cut inValue depth position text = .ok (segment, later)) :
    ∃ front, CutsAt inValue depth position text front segment later := by
  induction text generalizing inValue depth position segment later with
  | nil =>
      rw [cut] at found
      split at found
      · rename_i closed
        cases found
        exact ⟨[], closed ▸ .nil inValue position⟩
      · cases found
  | cons char rest hypothesis =>
      obtain ⟨-, -, fails⟩ | ⟨rfl, rfl, goesOn⟩ | ⟨rfl, rfl, rfl, goesOn⟩ |
          ⟨deeper, counted, notSeparator, -, goesOn⟩ :=
        cut_cons_cases inValue depth position char rest
      · rw [fails] at found
        cases found
      · rw [goesOn] at found
        obtain ⟨next, cutRest, equal⟩ := map_eq_ok_iff.mp found
        cases equal
        exact ⟨[], .separator inValue cutRest⟩
      · rw [goesOn] at found
        obtain ⟨⟨next, others⟩, cutRest, equal⟩ := map_eq_ok_iff.mp found
        cases equal
        obtain ⟨front, cuts⟩ := hypothesis cutRest
        exact ⟨_, cuts.assign (value_of_cut cutRest rfl).2⟩
      · rw [goesOn] at found
        obtain ⟨⟨next, others⟩, cutRest, equal⟩ := map_eq_ok_iff.mp found
        obtain ⟨front, cuts⟩ := hypothesis cutRest
        have whole := cuts.cons (value_of_cut cutRest) counted notSeparator
        rw [equal] at whole
        have kept : (consChar inValue position char (next, others)).2 = others := by
          cases inValue <;> rfl
        rw [equal] at kept
        exact ⟨_, kept ▸ whole⟩

/-- What holds of the first segment and of the later ones holds of all, also where the first one is
blank and dropped. -/
theorem forall_mem_consSegment {holds : Segment → Prop} {cut : Segment × List Segment}
    (first : holds cut.1) (each : ∀ segment ∈ cut.2, holds segment) :
    ∀ segment ∈ consSegment cut, holds segment := by
  rw [consSegment]
  split
  · exact each
  · exact List.forall_mem_cons.mpr ⟨first, each⟩

/-- A segment stands in a level at its place, up to the level's end or to a separator, and closes
as many parentheses as it opens. -/
structure StandsIn (position : Nat) (text : List Char) (segment : Segment) : Prop where
  split : ∃ before after, text = before ++ entryText segment.parts ++ after ∧
    segment.position = position + before.length ∧ (after = [] ∨ ∃ rest, after = '&' :: rest)
  even : (entryText segment.parts).count ')' = (entryText segment.parts).count '('

theorem standsIn_of_cut {position : Nat} {next : Segment × List Segment} {text : List Char}
    (found : cut false 0 position text = .ok next) :
    ∀ segment ∈ consSegment next, segment.StandsIn position text := by
  rcases next with ⟨first, later⟩
  obtain ⟨front, cuts⟩ := exists_cutsAt_of_cut found
  have same : entryText first.parts = front := cuts.textOf_eq
  have even : (entryText first.parts).count ')' = (entryText first.parts).count '(' := by
    have closed := cuts.closed
    rw [same]
    omega
  have firstStands : first.StandsIn position text := by
    refine ⟨⟨[], ?_⟩, even⟩
    obtain ⟨rfl, -⟩ | ⟨rest, next, rfl, -, -⟩ := cuts.ends
    · exact ⟨[], by simp [same], by simp [cuts.position_eq], .inl rfl⟩
    · exact ⟨'&' :: rest, by simp [same], by simp [cuts.position_eq], .inr ⟨rest, rfl⟩⟩
  have laterStand : ∀ segment ∈ later, segment.StandsIn position text := by
    obtain ⟨-, rfl⟩ | ⟨rest, next, whole, cutRest, rfl⟩ := cuts.ends
    · simp
    · have shorter : rest.length < text.length := by
        rw [whole, List.length_append, List.length_cons]
        omega
      intro segment member
      obtain ⟨⟨before, after, split, place, ends⟩, even⟩ := standsIn_of_cut cutRest segment member
      refine ⟨⟨front ++ '&' :: before, after, by simp [whole, split], ?_, ends⟩, even⟩
      simp only [place, List.length_append, List.length_cons]
      omega
  exact forall_mem_consSegment firstStands laterStand
termination_by text.length

/-- The segments of a level stand in it. -/
theorem standsIn_of_ofText {segments : List Segment} (found : ofText position text = .ok segments) :
    ∀ segment ∈ segments, segment.StandsIn position text := by
  obtain ⟨next, cutText, rfl⟩ := map_eq_ok_iff.mp found
  exact standsIn_of_cut cutText

/-- A key is cut off with its `=`. -/
theorem cut_key {key : List Char} (plain : IsPlain key) (unseparated : Unseparated key)
    (position : Nat) (text : List Char) :
    cut false 0 position (key ++ '=' :: text) =
      (cut true 0 (position + key.length + 1) text).map fun (segment, later) =>
        (⟨position, key, segment.value⟩, later) := by
  induction key generalizing position with
  | nil => simp [cut]
  | cons char key hypothesis =>
      obtain ⟨notBracket, plainKey⟩ := List.forall_mem_cons.mp plain
      obtain ⟨notSeparator, unseparatedKey⟩ := List.forall_mem_cons.mp unseparated
      have notParen := ne_parens_of_not_bracket notBracket
      rw [List.cons_append, cut.eq_def]
      simp only [notParen, notSeparator, if_false, false_and, hypothesis plainKey unseparatedKey]
      have place : position + 1 + key.length + 1 = position + (char :: key).length + 1 := by
        rw [List.length_cons]
        omega
      rw [place]
      cases cut true 0 (position + (char :: key).length + 1) text <;> rfl

end Segment

end QueryGate
