import QueryGate.Proofs.Request.Numbering
import QueryGate.Proofs.Scanner.WellFormed

/-!
# Canonical forms

The canonical form of a request shows everything but the numbers of its nodes. Requests with
well-formed terms that have one canonical form are the same without their numbers: the kind of an
expression is the name of the only member of its object, and clauses go by different names.
-/

namespace QueryGate

namespace Table

variable {κ ν α : Type} [BEq κ] [LawfulBEq κ] [Ord κ] [Std.LawfulEqOrd κ] [Std.TransOrd κ]
  [BEq ν] [LawfulBEq ν] [Ord ν] [Std.LawfulEqOrd ν]
  {rename : κ → ν} {rows others : Table κ α}

/-- A table whose keys are renamed has the same values under the new keys. -/
theorem get?_override_rename (injective : Function.Injective rename) (sorted : rows.Sorted)
    (start : Table ν α) (key : κ) :
    get? (override start (rows.map fun row => (rename row.1, row.2))) (rename key) =
      (get? rows key).or (get? start (rename key)) := by
  induction rows generalizing start with
  | nil => rfl
  | cons row rest hypothesis =>
      obtain ⟨before, sortedRest⟩ := List.pairwise_cons.mp sorted
      have folded : override start ((row :: rest).map fun row => (rename row.1, row.2)) =
          override (insert (rename row.1) row.2 start)
            (rest.map fun row => (rename row.1, row.2)) := rfl
      rw [folded, hypothesis sortedRest, get?_insert, get?_cons]
      by_cases same : key = row.1
      · have absent : get? rest key = none := same ▸ get?_eq_none_of_before before
        rw [absent, same]
        simp
      · have different : rename key ≠ rename row.1 := fun equal => same (injective equal)
        simp [same, different]

/-- Tables are the same if they are the same with other keys in place of their own. -/
theorem eq_of_rename (injective : Function.Injective rename) (sorted : rows.Sorted)
    (sortedOthers : others.Sorted)
    (same : ofRows (rows.map fun row => (rename row.1, row.2)) =
      ofRows (others.map fun row => (rename row.1, row.2))) : rows = others := by
  apply ext sorted sortedOthers
  intro key
  have found := congrArg (fun table => get? table (rename key)) same
  simp only [ofRows, get?_override_rename injective sorted,
    get?_override_rename injective sortedOthers, get?_nil, Option.or_none] at found
  exact found

end Table

theorem Clause.name_injective : Function.Injective Clause.name := by
  intro clause other same
  have found := congrArg Clause.ofName? same
  simpa using found

theorem Json.strings_injective : Function.Injective Json.strings := by
  intro items others same
  have images := Json.array.inj same
  exact List.map_injective_iff.mpr (fun _ _ equal => Json.string.inj equal) images

theorem FunctionCall.toJson_injective : Function.Injective FunctionCall.toJson := by
  rintro ⟨name, arguments⟩ ⟨other, argumentsOther⟩ same
  simp only [toJson, Json.object.injEq, List.cons.injEq, Prod.mk.injEq, true_and,
    Json.string.injEq, and_true] at same
  rw [same.2, Json.strings_injective same.1]

namespace Expression

mutual

/-- Expressions with one canonical form are the same. -/
theorem eq_of_toJson :
    (expression other : Expression) → expression.toJson = other.toJson → expression = other
  | .literal text, other, same => by
      cases other <;> simp [toJson, Json.single] at same
      rw [same]
  | .and operands, other, same => by
      cases other <;> simp [toJson, Json.single] at same
      rw [eq_of_toJsonItems _ _ same]
  | .or operands, other, same => by
      cases other <;> simp [toJson, Json.single] at same
      rw [eq_of_toJsonItems _ _ same]
  | .not operand, other, same => by
      cases other <;> simp [toJson, Json.single] at same
      rw [eq_of_toJson _ _ same]
  | .like pattern, other, same => by
      cases other <;> simp [toJson, Json.single] at same
      rw [same]
  | .notLike pattern, other, same => by
      cases other <;> simp [toJson, Json.single] at same
      rw [same]
  | .oneOf items, other, same => by
      cases other <;> simp [toJson, Json.single] at same
      rw [Json.strings_injective same]
  | .between low high, other, same => by
      cases other <;> simp [toJson, Json.single, Json.strings] at same
      rw [same.1, same.2]
  | .group fields, other, same => by
      cases other <;> simp [toJson, Json.single] at same
      rw [eq_of_toJsonFields _ _ same]

theorem eq_of_toJsonItems :
    (operands others : List Expression) → toJsonItems operands = toJsonItems others →
      operands = others
  | [], others, same => by cases others <;> simp_all [toJsonItems]
  | operand :: rest, others, same => by
      cases others with
      | nil => simp [toJsonItems] at same
      | cons other later =>
          simp only [toJsonItems, List.cons.injEq] at same
          rw [eq_of_toJson _ _ same.1, eq_of_toJsonItems _ _ same.2]

theorem eq_of_toJsonFields :
    (fields others : List (String × Expression)) → toJsonFields fields = toJsonFields others →
      fields = others
  | [], others, same => by cases others <;> simp_all [toJsonFields]
  | (field, condition) :: rest, others, same => by
      cases others with
      | nil => simp [toJsonFields] at same
      | cons other later =>
          simp only [toJsonFields, List.cons.injEq, Prod.mk.injEq] at same
          rw [same.1.1, eq_of_toJson _ _ same.1.2, eq_of_toJsonFields _ _ same.2]

end

end Expression

/-- The canonical form of well-formed terms determines them, with the name and the includes that
stand among them. -/
theorem Terms.eq_of_toJson {terms others : Terms} (wellFormed : terms.WellFormed)
    (wellFormedOthers : others.WellFormed) {includes includesOther : List Json}
    {name other : String} (same : terms.toJson includes name = others.toJson includesOther other) :
    name = other ∧ terms = others ∧ includes = includesOther := by
  simp only [toJson, Json.ofTable, Json.object.injEq, List.cons.injEq, Prod.mk.injEq, true_and,
    and_true, Json.string.injEq, Json.array.injEq] at same
  obtain ⟨clauses, names, fields, functions, below, predicates⟩ := same
  have texts : Function.Injective (Table.mapValues (κ := String) Json.string) :=
    List.map_injective_iff.mpr fun row other equal =>
      Prod.ext (Prod.mk.inj equal).1 (Json.string.inj (Prod.mk.inj equal).2)
  have sameClauses : terms.clauses = others.clauses :=
    Table.eq_of_rename Clause.name_injective wellFormed.clauses_sorted
      wellFormedOthers.clauses_sorted (texts clauses)
  have sameFunctions : terms.functions = others.functions :=
    List.map_injective_iff.mpr FunctionCall.toJson_injective functions
  obtain ⟨fieldsOwn, clausesOwn, predicatesOwn, functionsOwn⟩ := terms
  obtain ⟨fieldsOther, clausesOther, predicatesOther, functionsOther⟩ := others
  refine ⟨names, ?_, below⟩
  rw [Terms.mk.injEq]
  exact ⟨Json.strings_injective fields, sameClauses, Expression.eq_of_toJsonFields _ _ predicates,
    sameFunctions⟩

namespace Request

mutual

/-- Requests with one canonical form are the same without their numbers. -/
theorem unnumbered_eq_of_toJson :
    (request other : Request) → Every Terms.WellFormed request → Every Terms.WellFormed other →
      request.toJson = other.toJson → request.unnumbered = other.unnumbered
  | ⟨_, _, terms, includes⟩, ⟨_, _, termsOther, includesOther⟩, every, everyOther, same => by
      obtain ⟨sameName, sameTerms, sameIncludes⟩ :=
        Terms.eq_of_toJson every.terms everyOther.terms same
      have below := unnumberedAll_eq_of_toJsonAll includes includesOther every.children
        everyOther.children sameIncludes
      have own : terms = termsOther := sameTerms
      rw [unnumbered, unnumbered, sameName, own, below]

theorem unnumberedAll_eq_of_toJsonAll :
    (requests others : List Request) → (∀ request ∈ requests, Every Terms.WellFormed request) →
      (∀ other ∈ others, Every Terms.WellFormed other) →
      toJsonAll requests = toJsonAll others → unnumberedAll requests = unnumberedAll others
  | [], [], _, _, _ => rfl
  | request :: rest, other :: later, every, everyOther, same => by
      rw [List.forall_mem_cons] at every everyOther
      simp only [toJsonAll, List.cons.injEq] at same
      rw [unnumberedAll, unnumberedAll, unnumbered_eq_of_toJson _ _ every.1 everyOther.1 same.1,
        unnumberedAll_eq_of_toJsonAll _ _ every.2 everyOther.2 same.2]

end

end Request

end QueryGate
