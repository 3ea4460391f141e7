import QueryGate.Proofs.Expression.Brackets

/-!
# Depths

How deep a character stands in brackets is counted without a look at the brackets' kinds. Some
readers count brackets of both kinds and some only parentheses, so what opens and what closes is
left open here.
-/

namespace QueryGate

/-- Each character with how many more brackets are opened than closed in front of it; `depth` are
open in front of the first. -/
def depths (opens closes : Char → Bool) (depth : Int) (text : List Char) : List (Char × Int) :=
  text.mapIdx fun place char =>
    (char, depth + (text.take place).countP opens - (text.take place).countP closes)

/-- No front of the text closes more brackets than it opens, if `depth` are open before it. -/
def Covers (opens closes : Char → Bool) (depth : Nat) (text : List Char) : Prop :=
  ∀ front, front <+: text → front.countP closes ≤ depth + front.countP opens

variable {opens closes : Char → Bool} {depth deeper : Nat} {text rest : List Char} {char : Char}

theorem countP_cons_eq (test : Char → Bool) (char : Char) (text : List Char) :
    (char :: text).countP test = [char].countP test + text.countP test := by
  rw [← List.singleton_append, List.countP_append]

@[simp] theorem depths_nil (depth : Int) : depths opens closes depth [] = [] := rfl

theorem depths_cons (depth : Int) (char : Char) (rest : List Char) :
    depths opens closes depth (char :: rest) =
      (char, depth) ::
        depths opens closes (depth + [char].countP opens - [char].countP closes) rest := by
  rw [depths, List.mapIdx_cons, depths]
  congr 1
  · simp
  · congr 1
    funext place other
    rw [List.take_succ_cons, countP_cons_eq opens char (rest.take place),
      countP_cons_eq closes char (rest.take place), Prod.mk.injEq]
    exact ⟨rfl, by omega⟩

/-- Behind the character `deeper` brackets are open. -/
theorem depths_cons_of_counted
    (counted : deeper + [char].countP closes = depth + [char].countP opens) (rest : List Char) :
    depths opens closes depth (char :: rest) =
      (char, (depth : Int)) :: depths opens closes deeper rest := by
  rw [depths_cons]
  congr 2
  omega

theorem depths_append (depth : Int) (text rest : List Char) :
    depths opens closes depth (text ++ rest) =
      depths opens closes depth text ++
        depths opens closes (depth + text.countP opens - text.countP closes) rest := by
  induction text generalizing depth with
  | nil => simp
  | cons char text hypothesis =>
      rw [List.cons_append, depths_cons, hypothesis, depths_cons, List.cons_append,
        countP_cons_eq opens char text, countP_cons_eq closes char text]
      congr 3
      omega

@[simp] theorem map_fst_depths (depth : Int) (text : List Char) :
    (depths opens closes depth text).map Prod.fst = text := by
  induction text generalizing depth with
  | nil => rfl
  | cons char rest hypothesis => rw [depths_cons, List.map_cons, hypothesis]

theorem map_intercalate {α β : Type} (write : α → β) (separator : List α)
    (texts : List (List α)) :
    (separator.intercalate texts).map write =
      (separator.map write).intercalate (texts.map (List.map write)) := by
  induction texts with
  | nil => rfl
  | cons text texts hypothesis =>
      cases texts with
      | nil => simp
      | cons next texts =>
          rw [List.intercalate_cons_cons, List.map_append, List.map_append, hypothesis]
          simp only [List.map_cons, List.intercalate_cons_cons]

namespace Covers

@[simp] theorem nil (depth : Nat) : Covers opens closes depth [] := by
  intro front begins
  simp [List.prefix_nil.mp begins]

/-- Behind the character `deeper` brackets are open. -/
theorem cons_iff (counted : deeper + [char].countP closes = depth + [char].countP opens) :
    Covers opens closes depth (char :: rest) ↔ Covers opens closes deeper rest := by
  constructor
  · intro covers front begins
    have less := covers (char :: front) (List.cons_prefix_cons.mpr ⟨rfl, begins⟩)
    rw [countP_cons_eq closes char front, countP_cons_eq opens char front] at less
    omega
  · intro covers front begins
    cases front with
    | nil => simp
    | cons first front =>
        obtain ⟨rfl, beginsRest⟩ := List.cons_prefix_cons.mp begins
        have less := covers front beginsRest
        rw [countP_cons_eq closes first front, countP_cons_eq opens first front]
        omega

/-- One more character behind a text makes one more front of it. -/
theorem concat (covers : Covers opens closes depth text)
    (less : (text ++ [char]).countP closes ≤ depth + (text ++ [char]).countP opens) :
    Covers opens closes depth (text ++ [char]) := by
  intro front begins
  obtain rfl | shorter := List.prefix_concat_iff.mp begins
  · exact less
  · exact covers front shorter

/-- Text in front that closes as many brackets as it opens makes no difference. -/
theorem append (covers : Covers opens closes depth text)
    (even : text.countP closes = text.countP opens) (later : Covers opens closes depth rest) :
    Covers opens closes depth (text ++ rest) := by
  intro front begins
  obtain shorter | ⟨more, rfl⟩ :=
    List.prefix_or_prefix_of_prefix begins (List.prefix_append text rest)
  · exact covers front shorter
  · have less := later more ((List.prefix_append_right_inj text).mp begins)
    rw [List.countP_append, List.countP_append]
    omega

end Covers

end QueryGate
