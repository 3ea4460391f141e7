import QueryGate.Json.Basic

/-!
# What holds of all parts of a JSON value

A JSON value is made of values. Of all of them it can be said that they are values of their types:
that integers fit into 64 bits and that the members of objects are in order. It can be said, too,
that no number among them is a double. How deep arrays and objects are nested is the third thing
that depends on all parts.
-/

namespace QueryGate.Json

open Text

mutual

/-- The value has a property, and so have all values in it. -/
def Every (holds : Json → Prop) : Json → Prop
  | null => holds null
  | bool value => holds (bool value)
  | number value => holds (number value)
  | string value => holds (string value)
  | array items => holds (array items) ∧ EveryItem holds items
  | object members => holds (object members) ∧ EveryMember holds members

/-- All items of an array have the property, and so have all values in them. -/
def EveryItem (holds : Json → Prop) : List Json → Prop
  | [] => True
  | item :: rest => item.Every holds ∧ EveryItem holds rest

/-- The values of all members have the property, and so have all values in them. -/
def EveryMember (holds : Json → Prop) : List (String × Json) → Prop
  | [] => True
  | (_, value) :: rest => value.Every holds ∧ EveryMember holds rest

end

mutual

/-- How deep arrays and objects are nested. -/
def depth : Json → Nat
  | null | bool _ | number _ | string _ => 0
  | array items => depthItems items + 1
  | object members => depthMembers members + 1

/-- The greatest depth of the items of an array. -/
def depthItems : List Json → Nat
  | [] => 0
  | item :: rest => max item.depth (depthItems rest)

/-- The greatest depth of the members of an object. -/
def depthMembers : List (String × Json) → Nat
  | [] => 0
  | (_, value) :: rest => max value.depth (depthMembers rest)

end

section Every

variable {holds other joint : Json → Prop} {items : List Json} {members : List (String × Json)}

theorem everyItem_iff : EveryItem holds items ↔ ∀ item ∈ items, item.Every holds := by
  induction items with
  | nil => simp [EveryItem]
  | cons item rest hypothesis => rw [EveryItem, hypothesis, List.forall_mem_cons]

theorem everyMember_iff :
    EveryMember holds members ↔ ∀ member ∈ members, member.2.Every holds := by
  induction members with
  | nil => simp [EveryMember]
  | cons member rest hypothesis => rw [EveryMember, hypothesis, List.forall_mem_cons]

theorem every_array_iff :
    (array items).Every holds ↔ holds (array items) ∧ ∀ item ∈ items, item.Every holds := by
  rw [Every, everyItem_iff]

theorem every_object_iff :
    (object members).Every holds ↔
      holds (object members) ∧ ∀ member ∈ members, member.2.Every holds := by
  rw [Every, everyMember_iff]

mutual

/-- What follows for each part from two properties of it. -/
theorem Every.combine (both : ∀ part, holds part → other part → joint part) :
    ∀ {value : Json}, value.Every holds → value.Every other → value.Every joint
  | null, first, second | bool _, first, second | number _, first, second
  | string _, first, second => both _ first second
  | array _, first, second =>
      ⟨both _ first.1 second.1, EveryItem.combine both first.2 second.2⟩
  | object _, first, second =>
      ⟨both _ first.1 second.1, EveryMember.combine both first.2 second.2⟩

theorem EveryItem.combine (both : ∀ part, holds part → other part → joint part) :
    ∀ {items : List Json}, EveryItem holds items → EveryItem other items → EveryItem joint items
  | [], _, _ => trivial
  | _ :: _, first, second =>
      ⟨Every.combine both first.1 second.1, EveryItem.combine both first.2 second.2⟩

theorem EveryMember.combine (both : ∀ part, holds part → other part → joint part) :
    ∀ {members : List (String × Json)}, EveryMember holds members → EveryMember other members →
      EveryMember joint members
  | [], _, _ => trivial
  | _ :: _, first, second =>
      ⟨Every.combine both first.1 second.1, EveryMember.combine both first.2 second.2⟩

end

end Every

/-! ### Values of their types, and values without doubles -/

/-- An integer fits into 64 bits, with a sign if it is negative; the members of an object are in
order. -/
def IsSound : Json → Prop
  | number (.int value) => leastInt64 ≤ value ∧ value ≤ greatestNat64
  | object members => Table.Sorted members
  | _ => True

/-- It is no double. -/
def IsWhole : Json → Prop
  | number (.double _) => False
  | _ => True

/-- If it is a number, it is an integer that fits into 64 bits. -/
def IsLegible : Json → Prop
  | number (.int value) => leastInt64 ≤ value ∧ value ≤ greatestNat64
  | number (.double _) => False
  | _ => True

/-- The value and all values in it are values of their types. -/
def Sound (value : Json) : Prop := value.Every IsSound

/-- There is no double in the value. -/
def Whole (value : Json) : Prop := value.Every IsWhole

/-- All numbers in the value are integers that fit into 64 bits. -/
def Legible (value : Json) : Prop := value.Every IsLegible

theorem Sound.legible {value : Json} (sound : value.Sound) (whole : value.Whole) :
    value.Legible := by
  apply Every.combine _ sound whole
  rintro (_ | _ | (_ | _) | _ | _ | _) sound whole
  case number.int => exact sound
  case number.double => exact whole
  all_goals trivial

theorem legible_array_iff {items : List Json} :
    (array items).Legible ↔ ∀ item ∈ items, item.Legible := by
  rw [Legible, every_array_iff]
  exact and_iff_right trivial

theorem legible_object_iff {members : List (String × Json)} :
    (object members).Legible ↔ ∀ member ∈ members, member.2.Legible := by
  rw [Legible, every_object_iff]
  exact and_iff_right trivial

/-! ### How deep a value is nested -/

theorem depthItems_le_iff {items : List Json} {room : Nat} :
    depthItems items ≤ room ↔ ∀ item ∈ items, item.depth ≤ room := by
  induction items with
  | nil => simp [depthItems]
  | cons item rest hypothesis => rw [depthItems, Nat.max_le, hypothesis, List.forall_mem_cons]

theorem depthMembers_le_iff {members : List (String × Json)} {room : Nat} :
    depthMembers members ≤ room ↔ ∀ member ∈ members, member.2.depth ≤ room := by
  induction members with
  | nil => simp [depthMembers]
  | cons member rest hypothesis => rw [depthMembers, Nat.max_le, hypothesis, List.forall_mem_cons]

/-- An object is deeper than each of its members. -/
theorem depth_lt_object {members : List (String × Json)} {value : Json} (name : String)
    (given : (name, value) ∈ members) : value.depth < (object members).depth := by
  have within := depthMembers_le_iff.mp (Nat.le_refl _) _ given
  rw [depth]
  exact Nat.lt_succ_of_le within

end QueryGate.Json
