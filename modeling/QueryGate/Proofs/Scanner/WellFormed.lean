import QueryGate.Proofs.Expression.Form
import QueryGate.Proofs.Scanner.Terms

/-!
# Well-formed requests

Every node of a request that was scanned has its clauses and predicates in tables,
and under each name of a predicate an expression that is read for that name.
-/

namespace QueryGate

open Expression

/-- Clauses and predicates are tables, and predicates have the form that their names ask for. -/
structure Terms.WellFormed (terms : Terms) : Prop where
  clauses_sorted : terms.clauses.Sorted
  predicates_sorted : terms.predicates.Sorted
  hasForm : ∀ row ∈ terms.predicates, HasForm (.entry row.1) row.2

namespace Terms.WellFormed

theorem insertPredicate {terms : Terms} {name : String} {condition : Expression}
    (wellFormed : terms.WellFormed) (form : HasForm (.entry name) condition) :
    Terms.WellFormed
      { terms with predicates := Table.insert name condition terms.predicates } where
  clauses_sorted := wellFormed.clauses_sorted
  predicates_sorted := Table.sorted_insert wellFormed.predicates_sorted name condition
  hasForm := by
    intro row member
    rcases Table.mem_insert member with rfl | old
    · exact form
    · exact wellFormed.hasForm row old

theorem kept : Terms.Kept Terms.WellFormed where
  empty := ⟨.nil, .nil, by simp⟩
  clause := fun directive wellFormed _ =>
    ⟨Table.sorted_insert wellFormed.clauses_sorted directive _,
      wellFormed.predicates_sorted, wellFormed.hasForm⟩
  fields := fun wellFormed _ =>
    ⟨wellFormed.clauses_sorted, wellFormed.predicates_sorted, wellFormed.hasForm⟩
  functions := fun wellFormed _ =>
    ⟨wellFormed.clauses_sorted, wellFormed.predicates_sorted, wellFormed.hasForm⟩
  literal := fun name text wellFormed =>
    wellFormed.insertPredicate (.ofValue name (.literal text))
  value := fun name wellFormed read =>
    wellFormed.insertPredicate (.ofValue name (hasForm_readValue read))
  group := fun wellFormed read => wellFormed.insertPredicate (.ofGroup (hasForm_readGroup read))

end Terms.WellFormed

/-- Every node of a request that was scanned is well-formed. -/
theorem wellFormed_of_scan {options : ScanOptions} {text : String} {request node : Request}
    {path : Path} (scanned : scan options text = .ok request)
    (reached : request.Node path node) : node.terms.WellFormed :=
  ((scan_every Terms.WellFormed.kept scanned).at_node reached).terms

end QueryGate
