import QueryGate.Proofs.Checked.Percent
import QueryGate.Proofs.Checked.Plan
import QueryGate.Proofs.Checked.Scanner
import QueryGate.Proofs.Gate.Entities

/-!
# Gates that do not break off

A query is taken from its text to a plan by index and by number all the way: characters and slices
of texts, nodes of the arena, the count of its nodes, and bounds that numbers are forced into. In a
gate that a configuration describes, nothing on this way is missing, whatever the text.
-/

namespace QueryGate

namespace Checked

/-- The plan of a percent-coded query for an entity. The nodes are counted before planning. -/
def plan (gate : Gate) (entity raw : String) : Checked Error Plan :=
  match gate.filter? entity with
  | none => throw (.config (.unknownEntity entity))
  | some filter => do
      let text ← ExceptT.adapt .decoding (decode raw)
      let arena ← ExceptT.adapt .query (scan gate.scanning text)
      let _ ← need arena.nodeCount?
      ExceptT.adapt .plan (planWithin gate.planning arena arena.nodes.length filter 0)

end Checked

variable {config : Config} {gate : Gate} {entity : String} {filter : Filter}

/-- The filters of a gate have been built of specifications or belong to entities without one. -/
theorem Gate.obtained_of_filter? (opened : Gate.ofConfig config = .ok gate)
    (found : gate.filter? entity = some filter) : filter.Obtained := by
  obtain ⟨filters, built, rfl⟩ := map_eq_ok_iff.mp opened
  obtain ⟨spec, -, builtFilter⟩ | ⟨-, record, -, rfl⟩ := (Config.get?_buildFilters built).mp found
  · exact .build builtFilter
  · exact .ofEntity record

/-- In a gate that a configuration describes no query breaks off. For each entity and text there is
a plan or an error, namely the one that the gate finds without looking anything up by index. -/
theorem run_plan_of_ofConfig (opened : Gate.ofConfig config = .ok gate) (entity raw : String) :
    ExceptT.run (Checked.plan gate entity raw) = some (gate.plan entity raw) := by
  suffices same : Checked.plan gate entity raw = Checked.of (gate.plan entity raw) from same
  rw [Checked.plan, Gate.plan]
  cases served : gate.filter? entity with
  | none => rfl
  | some filter =>
      have obtained := Gate.obtained_of_filter? opened served
      simp only [Gate.request, bind_assoc]
      apply Checked.bind_eq_of (Checked.adapt_eq_of (Checked.decode_eq_of raw) _)
      intro text _
      rw [Checked.adapt_eq_of (Checked.scan_eq_of gate.scanning text)]
      have together := together_scan gate.scanning text
      generalize scan gate.scanning text = result,
        scanArena gate.scanning text = scanned at together
      cases together with
      | error fault => rfl
      | @ok request arena represents =>
          have stores := represents.stores
          have root : request.at? [] = some request := rfl
          have planned := Checked.planWithin_eq_of gate.planning stores
            represents.wellFormed.toLinked root
            (fun _ _ reached => obtained.boundsOrdered reached) (Nat.le_add_right _ _)
          rw [stores.root] at planned
          simp only [Except.mapError, Checked.ok_bind, stores.nodeCount?_eq represents.small,
            Checked.need_some]
          exact Checked.adapt_eq_of planned _

/-- Posts that are scored, and their remarks, of which later mentions replace earlier ones. -/
def Config.scored : Config where
  schema := ⟨[
    ("comments", { name := "comments", attributes := ["text"] }),
    ("posts", {
      name := "posts"
      attributes := ["score"]
      relations := [⟨"remarks", .hasMany, "comments"⟩] })]⟩
  filters := [
    ("posts", {
      includes := [("remarks", { bounds := { clauses := [(.limit, ⟨1, 5⟩)] } })]
      bounds := { attributes := [("score", ⟨0, 10⟩)] } })]
  scanning := { duplicates := .replace }

/-- The gate of scored posts. -/
def Gate.scored : Gate where
  scanning := { duplicates := .replace }
  filters := [
    ("comments",
      ⟨"comments", ["text"], Clause.all, [], { clauses := [(.limit, ⟨1, 3⟩)] }, .none⟩),
    ("posts",
      ⟨"posts", ["score"], Clause.all,
        [("remarks",
          ⟨"comments", ["text"], Clause.all, [], { clauses := [(.limit, ⟨1, 5⟩)] }, .none⟩)],
        { attributes := [("score", ⟨0, 10⟩)] }, .none⟩)]

theorem run_plan_of_ofConfig_scored :
    let raw := "score=%5B99,3]&in=remarks(limit=9),remarks(l=0)"
    ∃ plan remarks, Gate.ofConfig .scored = .ok .scored ∧
      Gate.scored.plan "posts" raw = .ok plan ∧
      plan.condition? "score" = some (.oneOf [.number (.int 10), .number (.int 3)]) ∧
      plan.includes = [("remarks", remarks)] ∧ remarks.limit = some 1 ∧
      ExceptT.run (Checked.plan .scored "posts" raw) = some (.ok plan) := by
  intro raw
  let remarks : Plan := ⟨"comments", ["text"], none, [], none, some 1, none, []⟩
  let plan : Plan :=
    ⟨"posts", ["score"], some [("score", .oneOf [.number (.int 10), .number (.int 3)])],
      [("remarks", remarks)], none, none, none, []⟩
  have opened : Gate.ofConfig .scored = .ok .scored := by cbv
  have planned : Gate.scored.plan "posts" raw = .ok plan := by cbv
  refine ⟨plan, remarks, opened, planned, rfl, rfl, rfl, ?_⟩
  rw [run_plan_of_ofConfig opened, planned]

end QueryGate
