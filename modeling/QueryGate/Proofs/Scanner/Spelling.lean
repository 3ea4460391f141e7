import QueryGate.Proofs.Expression.Position
import QueryGate.Proofs.Scanner.Control

/-!
# The texts of relations

What the parts of a list of relations do when they are read: the name of the
parameter, the name of a relation, and a query in its parentheses.
-/

namespace QueryGate

namespace Control

/-- Where an entry of a list of relations goes on below a node. -/
def entry (cursor chain : Path) (frames : List Frame) : Control :=
  ⟨cursor, "", .relations ⟨cursor, chain, none⟩, frames⟩

variable {edits : List Edit} (cursor chain : Path) (frames : List Frame)

theorem append_ofList_cons (token : String) (char : Char) (rest : List Char) :
    token ++ String.ofList (char :: rest) = token.push char ++ String.ofList rest := by
  rw [← String.toList_inj]
  simp

/-- Characters that a mode takes add up to the token. -/
theorem Runs.push {mode : Mode} {text : List Char} (token : String)
    (takes : ∀ char ∈ text, mode.Takes char) :
    Runs ⟨cursor, token, mode, frames⟩ text []
      ⟨cursor, token ++ String.ofList text, mode, frames⟩ := by
  induction text generalizing token with
  | nil =>
      rw [String.ofList_nil, String.append_empty]
      exact .nil _
  | cons char rest hypothesis =>
      rw [List.forall_mem_cons] at takes
      rw [append_ofList_cons]
      exact .cons (.push cursor token frames takes.1) (hypothesis _ takes.2)

/-- The name of the parameter opens a list of relations. -/
theorem Runs.includes :
    Runs (level cursor frames) "includes=".toList [] (entry cursor cursor frames) := by
  have named : IsName "includes" := by decide
  have name : Runs (level cursor frames) "includes".toList []
      ⟨cursor, "includes", .name, frames⟩ :=
    Runs.push cursor frames "" named.2
  exact name.snoc (.includes cursor frames (by decide))

variable {relation : String} (named : IsName relation)
include named

/-- The name of a relation becomes the token of its list. -/
theorem Runs.name :
    Runs (entry cursor chain frames) relation.toList []
      ⟨cursor, relation, .relations ⟨cursor, chain, none⟩, frames⟩ := by
  have takes : ∀ char ∈ relation.toList, Mode.Takes char (.relations ⟨cursor, chain, none⟩) :=
    fun char member => ⟨named.2 char member, rfl⟩
  have run := Runs.push cursor frames "" takes
  rwa [String.ofList_toList, String.empty_append] at run

/-- A relation's name and the parenthesis behind it start the relation's level. -/
theorem Runs.opened :
    Runs (entry cursor chain frames) (relation.toList ++ ['(']) [.attach chain relation]
      (level (chain ++ [relation]) (⟨chain ++ [relation], ⟨cursor, chain, none⟩⟩ :: frames)) :=
  (Runs.name cursor chain frames named).snoc (.enter cursor _ frames named.1)

/-- A query in a relation's parentheses makes its edits at the relation. -/
theorem Runs.enclosed {inner : String} (writes : Writes inner.toList edits) :
    Runs (entry cursor chain frames) (relation ++ "(" ++ inner ++ ")").toList
      (.attach chain relation :: edits.map (Edit.under (chain ++ [relation])))
      ⟨cursor, "", .relations ⟨cursor, chain, some (chain ++ [relation])⟩, frames⟩ := by
  have run := (Runs.opened cursor chain frames named).append
    (writes.leave (chain ++ [relation]) frames)
  simpa using run

end Control

end QueryGate
