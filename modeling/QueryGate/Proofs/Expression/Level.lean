import QueryGate.Proofs.Expression.Commas
import QueryGate.Query.Segment

/-!
# Entries of a level

The entries of a level stand between `&`. An entry has a key and a value, or it is a call,
whose parentheses hide what separates in it. A level that is written entry by entry is cut
into the same entries.
-/

namespace QueryGate

/-- Texts with `&` between any two of them. -/
def joined (entries : List (List Char)) : List Char := ['&'].intercalate entries

@[simp] theorem joined_single (entry : List Char) : joined [entry] = entry := by
  simp [joined]

@[simp] theorem joined_cons_cons (entry next : List Char) (rest : List (List Char)) :
    joined (entry :: next :: rest) = entry ++ '&' :: joined (next :: rest) := by
  simp [joined, List.intercalate_cons_cons]

/-- Nothing in the text ends a key or an entry. -/
def Unseparated (text : List Char) : Prop := ∀ char ∈ text, char ≠ '&' ∧ char ≠ '='

namespace Segment

/-- The key and the value. -/
def parts (segment : Segment) : List Char × Option (List Char) := (segment.key, segment.value)

/-- Wherever it stands, the text is cut into `front`, which is the rest of the key, or of the
value when `inValue`, then the value behind the key, and the later segments. -/
def CutsInto (inValue : Bool) (depth : Nat) (text front : List Char)
    (value? : Option (List Char)) (later : List (List Char × Option (List Char))) : Prop :=
  ∀ position, ∃ segment others, cut inValue depth position text = .ok (segment, others) ∧
    segment.parts = (if inValue then ([], some front) else (front, value?)) ∧
    others.map parts = later

namespace CutsInto

variable {inValue : Bool} {depth outer : Nat} {text rest front value : List Char}
  {value? : Option (List Char)} {later : List (List Char × Option (List Char))}

theorem nil (inValue : Bool) : CutsInto inValue 0 [] [] none [] := by
  intro position
  refine ⟨start inValue position, [], rfl, ?_, rfl⟩
  cases inValue <;> rfl

/-- A character that is put in front of what was cut. -/
theorem cons {char : Char} {deeper : Nat} (cuts : CutsInto inValue deeper rest front value? later)
    (step : ∀ position, cut inValue depth position (char :: rest) =
      (cut inValue deeper (position + 1) rest).map (consChar inValue position char)) :
    CutsInto inValue depth (char :: rest) (char :: front) value? later := by
  intro position
  obtain ⟨segment, others, found, same, sameLater⟩ := cuts (position + 1)
  refine ⟨(consChar inValue position char (segment, others)).1,
    (consChar inValue position char (segment, others)).2, by rw [step, found]; rfl, ?_, ?_⟩
  · cases inValue with
    | true =>
        simp only [parts, if_true, Prod.mk.injEq] at same
        simp [parts, consChar, same]
    | false =>
        simp only [parts, Bool.false_eq_true, if_false, Prod.mk.injEq] at same
        simp [parts, consChar, same]
  · cases inValue <;> exact sameLater

theorem opener (cuts : CutsInto inValue (depth + 1) rest front value? later) :
    CutsInto inValue depth ('(' :: rest) ('(' :: front) value? later :=
  cuts.cons fun position => by rw [cut.eq_def]; rfl

theorem closer (cuts : CutsInto inValue depth rest front value? later) :
    CutsInto inValue (depth + 1) (')' :: rest) (')' :: front) value? later :=
  cuts.cons fun position => by simp [cut]

theorem plain {char : Char} (cuts : CutsInto inValue depth rest front value? later)
    (notOpener : char ≠ '(') (notCloser : char ≠ ')')
    (inside : depth = 0 → char ≠ '&' ∧ char ≠ '=') :
    CutsInto inValue depth (char :: rest) (char :: front) value? later := by
  apply cuts.cons
  intro position
  have notSeparator : ¬(char = '&' ∧ depth = 0) := fun both => (inside both.2).1 both.1
  have notAssign : ¬(char = '=' ∧ depth = 0 ∧ inValue = false) := fun all =>
    (inside all.2.1).2 all.1
  rw [cut.eq_def]
  simp only [if_neg notOpener, if_neg notCloser, if_neg notSeparator,
    if_neg notAssign]

/-- The value of a key. -/
theorem assign (cuts : CutsInto true 0 rest value none later) :
    CutsInto false 0 ('=' :: rest) [] (some value) later := by
  intro position
  obtain ⟨segment, others, found, same, sameLater⟩ := cuts (position + 1)
  refine ⟨⟨position, [], segment.value⟩, others, by simp [cut, found, Except.map], ?_, sameLater⟩
  simp only [parts, if_true, Prod.mk.injEq] at same
  simp [parts, same]

/-- The next segment, if it is not blank. -/
theorem separator (cuts : CutsInto false 0 rest front value? later)
    (written : front ≠ [] ∨ value?.isSome) :
    CutsInto inValue 0 ('&' :: rest) [] none ((front, value?) :: later) := by
  intro position
  obtain ⟨segment, others, found, same, sameLater⟩ := cuts (position + 1)
  simp only [Bool.false_eq_true, if_false] at same
  have kept : consSegment (segment, others) = segment :: others := by
    simp only [parts, Prod.mk.injEq] at same
    obtain ⟨sameKey, sameValue⟩ := same
    have filled : segment.isBlank = false := by
      simp only [isBlank, sameKey, sameValue]
      cases value? with
      | none => simpa using written
      | some value => simp
    rw [consSegment, filled]
    rfl
  refine ⟨start inValue position, segment :: others, ?_, ?_, ?_⟩
  · simp [cut, found, Except.map, kept]
  · cases inValue <;> rfl
  · rw [List.map_cons, same, sameLater]

/-- A text whose brackets match is passed over as a whole, where it has no separators or stands
in parentheses. -/
theorem append (balanced : Balanced depth text)
    (inside : outer = 0 → Unseparated text)
    (cuts : CutsInto inValue outer rest front value? later) :
    CutsInto inValue outer (text ++ rest) (text ++ front) value? later := by
  induction balanced generalizing outer rest front with
  | nil => exact cuts
  | @plain depth char behind notBracket _ hypothesis =>
      have ⟨notOpener, notCloser⟩ := ne_parens_of_not_bracket notBracket
      refine (hypothesis ?_ cuts).plain notOpener notCloser ?_
      · intro level other member
        exact inside level other (List.mem_cons_of_mem _ member)
      · intro level
        exact inside level char List.mem_cons_self
  | @nest depth opener inner behind opens _ _ innerHypothesis behindHypothesis =>
      have insideBehind : outer = 0 → Unseparated behind := by
        intro level char member
        exact inside level char (by simp [member])
      have later := behindHypothesis insideBehind cuts
      rw [isOpener, Bool.or_eq_true, beq_iff_eq, beq_iff_eq] at opens
      obtain rfl | rfl := opens
      · have whole := (innerHypothesis (by simp) later.closer).opener
        simpa [closerOf] using whole
      · have insideInner : outer = 0 → Unseparated inner := by
          intro level char member
          exact inside level char (by simp [member])
        have bracket := later.plain (by decide : ']' ≠ '(') (by decide) (fun _ => by decide)
        have whole := (innerHypothesis insideInner bracket).plain (by decide : '[' ≠ '(')
          (by decide) (fun _ => by decide)
        simpa [closerOf] using whole

end CutsInto

end Segment

/-- What an entry can be: a key with its value, or a call. -/
inductive IsEntry : List Char × Option (List Char) → Prop where
  | value {depth depthValue : Nat} {key value : List Char} :
      Balanced depth key → Unseparated key → Balanced depthValue value → Unseparated value →
      IsEntry (key, some value)
  | call {depth : Nat} {word : String} {inner : List Char} :
      IsPlain word.toList → Unseparated word.toList →
      Balanced depth inner → IsEntry (called word inner, none)

/-- An entry as it is written. -/
def entryText : List Char × Option (List Char) → List Char
  | (key, none) => key
  | (key, some value) => key ++ '=' :: value

namespace IsEntry

open Segment

variable {entry : List Char × Option (List Char)} {rest : List Char}
  {later : List (List Char × Option (List Char))}

/-- An entry is cut off where a key and a value can end. -/
theorem cutsInto (isEntry : IsEntry entry)
    (ends : ∀ inValue, CutsInto inValue 0 rest [] none later) :
    CutsInto false 0 (entryText entry ++ rest) entry.1 entry.2 later := by
  cases isEntry with
  | @value _ _ key value balanced unseparated balancedValue unseparatedValue =>
      have cutValue := CutsInto.append balancedValue (fun _ => unseparatedValue) (ends true)
      rw [List.append_nil] at cutValue
      have cutKey := CutsInto.append balanced (fun _ => unseparated) cutValue.assign
      rw [List.append_nil] at cutKey
      simpa [entryText] using cutKey
  | @call _ word inner plain unseparated balanced =>
      have cutInner := CutsInto.append balanced (by simp) (ends false).closer
      have cutWord := CutsInto.append (.of_plain 0 plain) (fun _ => unseparated) cutInner.opener
      simpa [entryText, called] using cutWord

theorem written (isEntry : IsEntry entry) : entry.1 ≠ [] ∨ entry.2.isSome := by
  cases isEntry with
  | value => exact .inr rfl
  | call => exact .inl (by simp [called])

/-- A level that is written entry by entry is cut into these entries. -/
theorem cutsInto_joined {first : List Char × Option (List Char)}
    {others : List (List Char × Option (List Char))}
    (each : ∀ entry ∈ first :: others, IsEntry entry) :
    CutsInto false 0 (joined ((first :: others).map entryText)) first.1 first.2 others := by
  induction others generalizing first with
  | nil =>
      have cut := (each first List.mem_cons_self).cutsInto .nil
      simpa using cut
  | cons next others hypothesis =>
      rw [List.forall_mem_cons] at each
      have isNext := each.2 next List.mem_cons_self
      have cut := each.1.cutsInto fun _ => (hypothesis each.2).separator isNext.written
      simpa using cut

theorem exists_ofText_joined {entries : List (List Char × Option (List Char))}
    (some : entries ≠ []) (each : ∀ entry ∈ entries, IsEntry entry) (position : Nat) :
    ∃ segments, ofText position (joined (entries.map entryText)) = .ok segments ∧
      segments.map parts = entries := by
  cases entries with
  | nil => exact absurd rfl some
  | cons first others =>
      obtain ⟨segment, later, found, same, sameLater⟩ := cutsInto_joined each position
      simp only [Bool.false_eq_true, if_false] at same
      have filled : segment.isBlank = false := by
        have written := (each first List.mem_cons_self).written
        simp only [parts, Prod.ext_iff] at same
        rw [← same.1, ← same.2] at written
        cases value : segment.value with
        | none => simpa [isBlank, value] using written
        | some value => simp [isBlank, value]
      refine ⟨segment :: later, ?_, by rw [List.map_cons, same, sameLater]⟩
      rw [ofText, found]
      simp [Except.map, consSegment, filled]

end IsEntry

end QueryGate
