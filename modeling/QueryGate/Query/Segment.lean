import QueryGate.Query.Brackets

/-!
# Segments of a query level

A query level is a text of segments `key=value` joined by `&`. Separators count
only outside parentheses, since groups and included relations carry levels of their
own. Square brackets are ordinary characters here.
-/

namespace QueryGate

/-- A segment: its key, where the key stands, and the value when there is a `=`. -/
structure Segment where
  position : Nat
  key : List Char
  value : Option (List Char)
  deriving DecidableEq, Repr

namespace Segment

/-- Where the value stands, if there is one: after the key and the `=`. -/
def valuePosition? (segment : Segment) : Option Nat :=
  segment.value.map fun _ => segment.position + segment.key.length + 1

/-- Whether nothing is written in the segment. -/
def isBlank (segment : Segment) : Bool := segment.key.isEmpty && segment.value.isNone

/-- The length of the segment's text. -/
def length (segment : Segment) : Nat :=
  segment.key.length +
    match segment.value with
    | none => 0
    | some value => value.length + 1

/-- The segment with nothing in it yet; `inValue` says that its `=` has been passed. -/
def start (inValue : Bool) (position : Nat) : Segment :=
  ⟨position, [], if inValue then some [] else none⟩

/-- A character in front of the segment's key, or of its value when `inValue`. -/
def consChar (inValue : Bool) (position : Nat) (char : Char)
    (cut : Segment × List Segment) : Segment × List Segment :=
  let (segment, later) := cut
  if inValue then (⟨position, [], segment.value.map (char :: ·)⟩, later)
  else (⟨position, char :: segment.key, segment.value⟩, later)

/-- A segment in front of later ones; a blank segment is dropped. -/
def consSegment (cut : Segment × List Segment) : List Segment :=
  if cut.1.isBlank then cut.2 else cut.1 :: cut.2

/-- Cuts a text that stands at `position` into the rest of the current segment and
the later ones. `depth` counts the open parentheses and `inValue` says whether the
`=` of the current segment has been passed. -/
def cut (inValue : Bool) (depth : Nat) (position : Nat) :
    List Char → Except QueryError (Segment × List Segment)
  | [] =>
      if depth = 0 then .ok (start inValue position, [])
      else .error (.unclosed position ')')
  | char :: rest =>
      if char = '(' then
        (cut inValue (depth + 1) (position + 1) rest).map (consChar inValue position char)
      else if char = ')' then
        match depth with
        | 0 => .error (.unexpected position char)
        | depth + 1 => (cut inValue depth (position + 1) rest).map (consChar inValue position char)
      else if char = '&' ∧ depth = 0 then
        (cut false 0 (position + 1) rest).map fun next =>
          (start inValue position, consSegment next)
      else if char = '=' ∧ depth = 0 ∧ inValue = false then
        (cut true 0 (position + 1) rest).map fun (segment, later) =>
          (⟨position, [], segment.value⟩, later)
      else (cut inValue depth (position + 1) rest).map (consChar inValue position char)

/-- The segments of a query level that stands at `position`. -/
def ofText (position : Nat) (text : List Char) : Except QueryError (List Segment) :=
  (cut false 0 position text).map consSegment

/-- The joint length of segments, each with the separator after it. -/
def totalLength : List Segment → Nat
  | [] => 0
  | segment :: rest => segment.length + 1 + totalLength rest

@[simp] theorem totalLength_nil : totalLength [] = 0 := rfl

@[simp] theorem totalLength_cons (segment : Segment) (rest : List Segment) :
    totalLength (segment :: rest) = segment.length + 1 + totalLength rest := rfl

theorem length_lt_totalLength {segments : List Segment} {segment : Segment}
    (member : segment ∈ segments) : segment.length < totalLength segments := by
  induction segments with
  | nil => cases member
  | cons first rest hypothesis =>
      rw [totalLength_cons]
      rcases List.mem_cons.mp member with rfl | member
      · omega
      · have shorter := hypothesis member
        omega

/-- The length of what is left of a segment: once its `=` has been passed, that one no longer counts. -/
def restLength (inValue : Bool) (segment : Segment) : Nat :=
  match segment.value with
  | none => segment.key.length
  | some value => segment.key.length + value.length + if inValue then 0 else 1

theorem totalLength_consSegment (pair : Segment × List Segment) :
    totalLength (consSegment pair) ≤ restLength false pair.1 + 1 + totalLength pair.2 := by
  rcases pair with ⟨⟨position, key, value⟩, later⟩
  cases value <;> grind [consSegment, totalLength_cons, restLength, length]

/-- A cut text in front of which a character is put gets longer by one. -/
theorem restLength_consChar (inValue : Bool) (position : Nat) (char : Char)
    (pair : Segment × List Segment) (passed : inValue = true → pair.1.key = [] ∧ pair.1.value.isSome) :
    restLength inValue (consChar inValue position char pair).1 = restLength inValue pair.1 + 1 ∧
      (consChar inValue position char pair).2 = pair.2 := by
  rcases pair with ⟨⟨place, key, value⟩, later⟩
  cases inValue <;> cases value <;> grind [consChar, restLength]

/-- A segment of which only the value is left has one, and no key. -/
theorem value_of_cut {inValue : Bool} {depth position : Nat} {text : List Char}
    {segment : Segment} {later : List Segment}
    (found : cut inValue depth position text = .ok (segment, later)) (passed : inValue = true) :
    segment.key = [] ∧ segment.value.isSome = true := by
  fun_induction cut inValue depth position text generalizing segment later <;>
    grind [map_eq_ok_iff, consChar, start]

/-- Segments with their separators are no longer than the text they were cut from. -/
theorem length_cut {inValue : Bool} {depth position : Nat} {text : List Char}
    {segment : Segment} {later : List Segment}
    (found : cut inValue depth position text = .ok (segment, later)) :
    restLength inValue segment + totalLength later ≤ text.length := by
  fun_induction cut inValue depth position text generalizing segment later with
  | case1 => grind [start, restLength, totalLength_nil]
  | case2 => simp at found
  | case3 inValue depth position rest ih =>
      rcases map_eq_ok_iff.mp found with ⟨⟨next, others⟩, cutRest, equal⟩
      have grown := restLength_consChar inValue position '(' (next, others)
        (fun passed => value_of_cut cutRest passed)
      have shorter := ih cutRest
      grind
  | case4 => simp at found
  | case5 inValue position rest depth notOpen ih =>
      rcases map_eq_ok_iff.mp found with ⟨⟨next, others⟩, cutRest, equal⟩
      have grown := restLength_consChar inValue position ')' (next, others)
        (fun passed => value_of_cut cutRest passed)
      have shorter := ih cutRest
      grind
  | case6 inValue depth position char rest _ _ separator ih =>
      rcases map_eq_ok_iff.mp found with ⟨⟨next, others⟩, cutRest, equal⟩
      have shorter := ih cutRest
      have kept := totalLength_consSegment (next, others)
      grind [start, restLength]
  | case7 inValue depth position char rest _ _ _ assign ih =>
      rcases map_eq_ok_iff.mp found with ⟨⟨next, others⟩, cutRest, equal⟩
      have shorter := ih cutRest
      have passed := value_of_cut cutRest rfl
      grind [restLength]
  | case8 inValue depth position char rest _ _ _ _ ih =>
      rcases map_eq_ok_iff.mp found with ⟨⟨next, others⟩, cutRest, equal⟩
      have grown := restLength_consChar inValue position char (next, others)
        (fun passed => value_of_cut cutRest passed)
      have shorter := ih cutRest
      grind

/-- The segments of a text with their separators have at most its length, counting
one separator more than there are. -/
theorem totalLength_ofText {position : Nat} {text : List Char} {segments : List Segment}
    (found : ofText position text = .ok segments) :
    totalLength segments ≤ text.length + 1 := by
  rcases map_eq_ok_iff.mp found with ⟨⟨first, later⟩, cutText, equal⟩
  have kept := totalLength_consSegment (first, later)
  have shorter := length_cut cutText
  grind

end Segment

end QueryGate
