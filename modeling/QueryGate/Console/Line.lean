import QueryGate.Text.Blank
import QueryGate.Text.Cluster

/-!
# Lines of input

A line that does not come from a terminal may still hold backspaces. Each of them
takes back the cluster before it that is still there; at the start of a line it
does nothing.
-/

namespace QueryGate.Console

open Text

/-- Puts a cluster on those that are kept, the last of which comes first, or takes
that one back. -/
def keepCluster (kept : List (List Char)) (cluster : List Char) : List (List Char) :=
  if cluster = ['\x08'] then kept.drop 1 else cluster :: kept

/-- A line after its backspaces have been carried out. -/
def withoutBackspaces (line : List Char) : List Char :=
  ((clusters line).foldl keepCluster []).reverse.flatten

/-- What a line says: its text without backspaces and without blanks at the ends. -/
def contentOf (line : String) : List Char :=
  trim (withoutBackspaces line.toList)

theorem foldl_keepCluster (cut kept : List (List Char)) (plain : ['\x08'] ∉ cut) :
    cut.foldl keepCluster kept = cut.reverse ++ kept := by
  induction cut generalizing kept with
  | nil => rfl
  | cons cluster rest hypothesis =>
      rw [List.mem_cons, not_or] at plain
      have apart : cluster ≠ ['\x08'] := fun equal => plain.1 equal.symm
      simp [keepCluster, apart, hypothesis _ plain.2]

/-- A line without backspaces stays as it is. -/
theorem withoutBackspaces_of_not_mem {line : List Char} (plain : '\x08' ∉ line) :
    withoutBackspaces line = line := by
  have apart : ['\x08'] ∉ clusters line := by
    intro member
    apply plain
    rw [← flatten_clusters line]
    exact List.mem_flatten.mpr ⟨['\x08'], member, List.mem_singleton.mpr rfl⟩
  rw [withoutBackspaces, foldl_keepCluster _ _ apart, List.append_nil, List.reverse_reverse,
    flatten_clusters]

end QueryGate.Console
