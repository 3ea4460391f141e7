import QueryGate.Proofs.Checked.Basic
import QueryGate.Proofs.Expression.Segment

/-!
# Segments with a count of parentheses

The segments of a query level are put together from left to right: a character goes to the end of
the current segment, and a separator ends that one. The number of open parentheses is counted up
and down; it is counted down only where it is not zero.
-/

namespace QueryGate

namespace Checked

/-- The segment with another character at its end. -/
def pushChar (segment : Segment) (char : Char) : Segment :=
  match segment.value with
  | some value => { segment with value := some (value ++ [char]) }
  | none => { segment with key := segment.key ++ [char] }

/-- A segment that has come to its end; a blank one is dropped. -/
def ended (segment : Segment) : List Segment := if segment.isBlank then [] else [segment]

/-- The segments of a text, of which some and the beginning of the current one have been read. -/
def segmentsFrom (segments : List Segment) (current : Segment) (depth position : Nat) :
    List Char → Checked QueryError (List Segment)
  | [] =>
      if depth = 0 then return segments ++ ended current
      else throw (.unclosed position ')')
  | char :: rest =>
      if char = '(' then
        segmentsFrom segments (pushChar current char) (depth + 1) (position + 1) rest
      else if char = ')' then
        if depth = 0 then throw (.unexpected position char)
        else do
          let depth ← decrement depth
          segmentsFrom segments (pushChar current char) depth (position + 1) rest
      else if char = '&' ∧ depth = 0 then
        segmentsFrom (segments ++ ended current) ⟨position + 1, [], none⟩ depth (position + 1) rest
      else if char = '=' ∧ depth = 0 ∧ current.value.isSome = false then
        segmentsFrom segments { current with value := some [] } depth (position + 1) rest
      else segmentsFrom segments (pushChar current char) depth (position + 1) rest

/-- The segments of a query level that stands at `position`. -/
def segments (position : Nat) (text : List Char) : Checked QueryError (List Segment) :=
  segmentsFrom [] ⟨position, [], none⟩ 0 position text

/-- A segment that goes on with the rest of one. -/
def continued (current rest : Segment) : Segment where
  position := current.position
  key := current.key ++ rest.key
  value :=
    match current.value with
    | some value => some (value ++ rest.value.getD [])
    | none => rest.value

theorem consSegment_eq (segment : Segment) (later : List Segment) :
    Segment.consSegment (segment, later) = ended segment ++ later := by
  rw [Segment.consSegment, ended]
  split <;> rfl

theorem continued_start (current : Segment) (position : Nat) :
    continued current (Segment.start current.value.isSome position) = current := by
  rcases current with ⟨place, key, _ | value⟩ <;> simp [continued, Segment.start]

theorem continued_blank (rest : Segment) : continued ⟨rest.position, [], none⟩ rest = rest := rfl

/-- Once its `=` has been passed, a segment goes on with its value. -/
theorem continued_assign {current rest : Segment} (given : current.value.isSome = false)
    (noKey : rest.key = []) (passed : rest.value.isSome = true) (position : Nat) :
    continued { current with value := some [] } rest =
      continued current ⟨position, [], rest.value⟩ := by
  obtain ⟨value, same⟩ := Option.isSome_iff_exists.mp passed
  have absent : current.value = none := by simpa using given
  simp [continued, noKey, same, absent]

theorem isSome_value_pushChar (segment : Segment) (char : Char) :
    (pushChar segment char).value.isSome = segment.value.isSome := by
  rcases segment with ⟨position, key, _ | value⟩ <;> rfl

/-- A character can be put behind what has been read or in front of the rest. -/
theorem continued_consChar (current : Segment) (position : Nat) (char : Char)
    (cut : Segment × List Segment)
    (passed : current.value.isSome = true → cut.1.key = [] ∧ cut.1.value.isSome = true) :
    continued current (Segment.consChar current.value.isSome position char cut).1 =
      continued (pushChar current char) cut.1 := by
  rcases current with ⟨place, key, _ | value⟩
  · simp [continued, Segment.consChar, pushChar]
  · obtain ⟨noKey, given⟩ := passed rfl
    obtain ⟨rest, same⟩ := Option.isSome_iff_exists.mp given
    simp [continued, Segment.consChar, pushChar, noKey, same]

/-- All segments of a text: those that have been read, then the current one with the rest of it,
then the later ones. -/
def resumed (segments : List Segment) (current : Segment) (cut : Segment × List Segment) :
    List Segment :=
  segments ++ Segment.consSegment (continued current cut.1, cut.2)

section Resumed

variable {current : Segment} {depth position place : Nat} {text : List Char}

theorem map_resumed_consChar (segments : List Segment) (char : Char) :
    ((Segment.cut current.value.isSome depth position text).map
        (Segment.consChar current.value.isSome place char)).map (resumed segments current) =
      (Segment.cut current.value.isSome depth position text).map
        (resumed segments (pushChar current char)) := by
  cases found : Segment.cut current.value.isSome depth position text with
  | error fault => rfl
  | ok cut =>
      have same := continued_consChar current place char cut
        fun passed => Segment.value_of_cut found passed
      have later : (Segment.consChar current.value.isSome place char cut).2 = cut.2 := by
        cases current.value.isSome <;> rfl
      simp only [Except.map, resumed, same, later]

/-- At a separator nothing is left of a segment, and the next one begins. -/
theorem map_resumed_separator (segments : List Segment) :
    ((Segment.cut false depth position text).map fun next =>
        (Segment.start current.value.isSome place, Segment.consSegment next)).map
        (resumed segments current) =
      (Segment.cut false depth position text).map
        (resumed (segments ++ ended current) ⟨position, [], none⟩) := by
  cases found : Segment.cut false depth position text with
  | error fault => rfl
  | ok next =>
      obtain ⟨front, cuts⟩ := Segment.exists_cutsAt_of_cut found
      simp only [Except.map, resumed, ← cuts.position_eq, continued_blank, continued_start,
        consSegment_eq current, List.append_assoc]

/-- Behind its `=` a segment goes on with its value. -/
theorem map_resumed_assign (segments : List Segment) (given : current.value.isSome = false) :
    ((Segment.cut true depth position text).map fun (rest, later) =>
        (⟨place, [], rest.value⟩, later)).map (resumed segments current) =
      (Segment.cut true depth position text).map
        (resumed segments { current with value := some [] }) := by
  cases found : Segment.cut true depth position text with
  | error fault => rfl
  | ok next =>
      obtain ⟨noKey, passed⟩ := Segment.value_of_cut found rfl
      simp only [Except.map, resumed, continued_assign given noKey passed place]

end Resumed

/-- From a place in a text on, the segments are cut that are left of it. -/
theorem segmentsFrom_eq_of (segments : List Segment) (current : Segment) (depth position : Nat)
    (text : List Char) :
    segmentsFrom segments current depth position text =
      of ((Segment.cut current.value.isSome depth position text).map
        (resumed segments current)) := by
  induction text generalizing segments current depth position with
  | nil =>
      rw [segmentsFrom, Segment.cut]
      split
      · simp only [Except.map, resumed, continued_start, consSegment_eq, List.append_nil,
          pure_eq_of]
      · rfl
  | cons char rest hypothesis =>
      -- A character that neither ends the segment nor begins its value is put into it.
      have goesOn : ∀ deeper,
          segmentsFrom segments (pushChar current char) deeper (position + 1) rest =
          of (((Segment.cut current.value.isSome deeper (position + 1) rest).map
            (Segment.consChar current.value.isSome position char)).map
              (resumed segments current)) := by
        intro deeper
        rw [hypothesis, isSome_value_pushChar, map_resumed_consChar]
      rw [segmentsFrom]
      unfold Segment.cut
      split
      · exact goesOn _
      · split
        · cases depth with
          | zero => rfl
          | succ depth =>
              rw [if_neg (Nat.succ_ne_zero depth), decrement_succ, ok_bind]
              exact goesOn _
        · split
          · rename_i separator
            obtain ⟨rfl, rfl⟩ := separator
            rw [hypothesis, map_resumed_separator]
            rfl
          · split
            · rename_i assign
              obtain ⟨rfl, rfl, given⟩ := assign
              rw [hypothesis, map_resumed_assign segments given]
              rfl
            · exact goesOn _

/-- A level is cut into its segments. -/
theorem segments_eq_of (position : Nat) (text : List Char) :
    segments position text = of (Segment.ofText position text) := by
  rw [segments, segmentsFrom_eq_of, Segment.ofText]
  simp only [Option.isSome_none]
  cases found : Segment.cut false 0 position text with
  | error fault => rfl
  | ok cut =>
      obtain ⟨front, cuts⟩ := Segment.exists_cutsAt_of_cut found
      simp only [Except.map, resumed, ← cuts.position_eq, continued_blank, List.nil_append]

end Checked

end QueryGate
