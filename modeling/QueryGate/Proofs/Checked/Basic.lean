import Mathlib.Data.Nat.PSub
import QueryGate.Filter.Bound
import QueryGate.Proofs.Arena.Basic
import QueryGate.Proofs.Result

/-!
# Checked results

On its way from a text to a plan a query is looked at by index and by number. Nothing says
beforehand that an index is in range, that the ends of a slice are in order, that a count can go
down, that a node has been made, or that there is a number in a bound. A computation that relies on
one of these has a checked result: a value or an error, or nothing where it breaks off because what
it relies on is not so.

A checked computation is compared with one that relies on none of it. Where the two are the same,
the checked one does not break off.
-/

namespace QueryGate

/-- A value, an error, or nothing where the computation breaks off. -/
abbrev Checked (ε α : Type) := ExceptT ε Option α

namespace Checked

variable {ε δ α β : Type}

/-- A result that is there. -/
def of (result : Except ε α) : Checked ε α := ExceptT.mk (some result)

/-- A value that has to be there. -/
def need (value : Option α) : Checked ε α := ExceptT.mk (value.map Except.ok)

/-- The item at an index, if it is in range. -/
def item (items : List α) (index : Nat) : Checked ε α := need items[index]?

/-- The items from one index up to another, if these are in order and in range. -/
def slice (items : List α) (start stop : Nat) : Checked ε (List α) :=
  need (if start ≤ stop ∧ stop ≤ items.length then some ((items.take stop).drop start) else none)

/-- One less than a number, if that is positive. -/
def decrement (number : Nat) : Checked ε Nat := need number.ppred

/-- The node of a number, if one has been made. -/
def node (arena : Arena) (id : Nat) : Checked ε ArenaNode := need (arena.node? id)

/-- The number of a range that is nearest to a value, if the range has any. -/
def clamp (bound : Bound) (value : Int) : Checked ε Int := need (bound.clamp? value)

/-! ### Steps that are there -/

theorem pure_eq_of (value : α) : (pure value : Checked ε α) = of (.ok value) := rfl

theorem throw_eq_of (error : ε) : (throw error : Checked ε α) = of (.error error) := rfl

theorem need_some (value : α) : (need (some value) : Checked ε α) = of (.ok value) := rfl

theorem ok_bind (value : α) (next : α → Checked ε β) : of (.ok value) >>= next = next value := rfl

/-- Steps that are there are there together. A later one may count on the value of the first. -/
theorem bind_eq_of {first : Checked ε α} {result : Except ε α} {next : α → Checked ε β}
    {image : α → Except ε β} (same : first = of result)
    (each : ∀ value, result = .ok value → next value = of (image value)) :
    first >>= next = of (result >>= image) := by
  subst same
  cases result with
  | error error => rfl
  | ok value => exact each value rfl

theorem map_eq_of {first : Checked ε α} {result : Except ε α} (same : first = of result)
    (image : α → β) : image <$> first = of (result.map image) := by
  subst same
  cases result <;> rfl

theorem adapt_eq_of {first : Checked ε α} {result : Except ε α} (same : first = of result)
    (image : ε → δ) : ExceptT.adapt image first = of (result.mapError image) := by
  subst same
  cases result <;> rfl

theorem mapM_eq_of {next : α → Checked ε β} {image : α → Except ε β} {items : List α}
    (each : ∀ item ∈ items, next item = of (image item)) :
    items.mapM next = of (items.mapM image) := by
  induction items with
  | nil => rfl
  | cons item rest hypothesis =>
      rw [List.forall_mem_cons] at each
      rw [List.mapM_cons, List.mapM_cons]
      apply bind_eq_of each.1
      intro value _
      apply bind_eq_of (hypothesis each.2)
      intro values _
      rfl

theorem foldlM_eq_of {next : β → α → Checked ε β} {image : β → α → Except ε β} {items : List α}
    (each : ∀ state, ∀ item ∈ items, next state item = of (image state item)) (start : β) :
    items.foldlM next start = of (items.foldlM image start) := by
  induction items generalizing start with
  | nil => rfl
  | cons item rest hypothesis =>
      rw [List.foldlM_cons, List.foldlM_cons]
      apply bind_eq_of (each start item List.mem_cons_self)
      intro value _
      exact hypothesis (fun state other member => each state other (List.mem_cons_of_mem _ member))
        value

/-! ### What is looked for -/

theorem item_eq_of {items : List α} {index : Nat} {value : α} (found : items[index]? = some value) :
    (item items index : Checked ε α) = of (.ok value) := by
  rw [item, found, need_some]

/-- What stands behind others is the item at their length. -/
theorem item_append (before : List α) (value : α) (after : List α) :
    (item (before ++ value :: after) before.length : Checked ε α) = of (.ok value) :=
  item_eq_of (by simp)

/-- What stands between others is the slice from their length on. -/
theorem slice_append (before inner after : List α) :
    (slice (before ++ inner ++ after) before.length (before.length + inner.length) :
      Checked ε (List α)) = of (.ok inner) := by
  rw [slice, if_pos (by simp), ← List.length_append, List.take_left, List.drop_left, need_some]

/-- The slice up to a place is what stands before it from the start on. -/
theorem slice_of_le {start : Nat} (before after : List α) (begun : start ≤ before.length) :
    (slice (before ++ after) start before.length : Checked ε (List α)) =
      of (.ok (before.drop start)) := by
  rw [slice, if_pos ⟨begun, by simp⟩, List.take_left, need_some]

theorem node_eq_of {arena : Arena} {id : Nat} {entry : ArenaNode}
    (found : arena.node? id = some entry) :
    (node arena id : Checked ε ArenaNode) = of (.ok entry) := by
  rw [node, found, need_some]

theorem clamp_eq_of {bound : Bound} (ordered : bound.min ≤ bound.max) (value : Int) :
    (clamp bound value : Checked ε Int) = of (.ok (bound.clamp value)) := by
  rw [clamp, (bound.clamp?_eq_some_iff value _).mpr ⟨ordered, rfl⟩, need_some]

/-- In an empty range there is no number that is nearest. -/
example : ExceptT.run (clamp ⟨3, 1⟩ 2 : Checked ε Int) = none := rfl

theorem decrement_succ (number : Nat) :
    (decrement (number + 1) : Checked ε Nat) = of (.ok number) := rfl

end Checked

end QueryGate
