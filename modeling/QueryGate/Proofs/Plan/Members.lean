import Mathlib
import QueryGate.Plan.Build
import QueryGate.Proofs.Request.Canonical

/-!
# The members of plans

Members of a plan's object that say nothing are left out. The names of those that are there tell
which they are, so that each part of a plan but its predicate and its includes is read off the
object.
-/

namespace QueryGate

theorem Json.nat_injective : Function.Injective Json.nat := by
  intro value other same
  simpa [nat] using same

theorem Computation.toJson_injective : Function.Injective Computation.toJson := by
  rintro ⟨name, arguments, label⟩ ⟨other, argumentsOther, labelOther⟩ same
  simp only [toJson, Json.object.injEq, List.cons.injEq, Prod.mk.injEq, true_and,
    Json.string.injEq, and_true] at same
  rw [same.1, Json.strings_injective same.2.1, same.2.2]

theorem Direction.word_injective : Function.Injective Direction.word := by
  intro direction other same
  cases direction <;> cases other <;> first | rfl | exact absurd same (by decide)

theorem Aggregate.word_injective : Function.Injective Aggregate.word := by
  intro function other same
  cases function <;> cases other <;> first | rfl | exact absurd same (by decide)

/-- The kind of an ordering stands first in its object. -/
theorem RowOrder.toJson_injective : Function.Injective RowOrder.toJson := by
  intro order other same
  cases order with
  | random => cases other <;> simp_all [toJson]
  | column name direction =>
      cases other with
      | column nameOther directionOther =>
          simp only [toJson, Json.object.injEq, List.cons.injEq, Prod.mk.injEq, true_and,
            Json.string.injEq, and_true] at same
          rw [same.1, Direction.word_injective same.2]
      | _ => simp [toJson] at same
  | aggregate function name direction =>
      cases other with
      | aggregate functionOther nameOther directionOther =>
          simp only [toJson, Json.object.injEq, List.cons.injEq, Prod.mk.injEq, true_and,
            Json.string.injEq, and_true] at same
          rw [Aggregate.word_injective same.1, same.2.1, Direction.word_injective same.2.2]
      | _ => simp [toJson] at same

namespace Plan

theorem lookup_optionalMember {α : Type} (key name : String) (image : α → Json)
    (value : Option α) :
    (optionalMember name image value).lookup key =
      if key = name then value.map image else none := by
  cases value with
  | none => simp [optionalMember]
  | some value =>
      by_cases same : key = name
      · simp [optionalMember, same]
      · have different : (key == name) = false := by simpa using same
        simp [optionalMember, List.lookup_cons, different, same]

/-- The conditions of a predicate as an object. -/
def rowsToJson (rows : Table String Condition) : Json := .object (Condition.toJsonFields rows)

/-- The functions of a plan as an array, if there are any. -/
def functionsToJson (functions : List Computation) : Option Json :=
  if functions.isEmpty then none else some (.array (functions.map Computation.toJson))

theorem functionsToJson_injective : Function.Injective functionsToJson := by
  intro functions others same
  unfold functionsToJson at same
  split at same <;> rename_i empty <;> split at same <;> rename_i emptyOther
  · rw [List.isEmpty_iff.mp empty, List.isEmpty_iff.mp emptyOther]
  · cases same
  · cases same
  · exact List.map_injective_iff.mpr Computation.toJson_injective
      (Json.array.inj (Option.some.inj same))

/-- The members of a plan, each of them made of its part of the plan. -/
theorem members_eq (plan : Plan) : plan.members =
    optionalMember "entity" Json.string (some plan.entity) ++
      optionalMember "projection" Json.strings (some plan.projection) ++
      optionalMember "predicate" rowsToJson plan.predicate ++
      optionalMember "include" Json.array (some (includesToJson plan.includes)) ++
      optionalMember "order" RowOrder.toJson plan.order ++
      optionalMember "limit" Json.nat plan.limit ++
      optionalMember "offset" Json.nat plan.offset ++
      optionalMember "functions" id (functionsToJson plan.functions) := by
  obtain ⟨entity, projection, predicate, includes, order, limit, offset, functions⟩ := plan
  rw [members, functionsToJson]
  congr 1
  dsimp only
  split <;> rfl

theorem members_of_predicate {plan : Plan} {predicate : Option (Table String Condition)}
    (same : plan.predicate.map rowsToJson = predicate.map rowsToJson) :
    plan.members = { plan with predicate := predicate }.members := by
  have shown (value : Option (Table String Condition)) :
      optionalMember "predicate" rowsToJson value =
        optionalMember "predicate" id (value.map rowsToJson) := by
    cases value <;> rfl
  rw [members_eq, members_eq, shown, shown, same]

theorem members_of_includes {plan : Plan} {includes : List (String × Plan)}
    (same : includesToJson plan.includes = includesToJson includes) :
    plan.members = { plan with includes := includes }.members := by
  rw [members_eq, members_eq, same]

/-- Plans with the same members have the same parts, if their predicates and their included plans
are told apart by their values. -/
theorem eq_of_members {plan other : Plan}
    (predicates : plan.predicate.map rowsToJson = other.predicate.map rowsToJson →
      plan.predicate = other.predicate)
    (included : includesToJson plan.includes = includesToJson other.includes →
      plan.includes = other.includes)
    (same : plan.members = other.members) : plan = other := by
  rw [members_eq, members_eq] at same
  have found (name : String) := congrArg (List.lookup name) same
  simp only [List.lookup_append, lookup_optionalMember] at found
  have entity : plan.entity = other.entity := by simpa using found "entity"
  have projection : plan.projection = other.projection :=
    Json.strings_injective (by simpa using found "projection")
  have predicate : plan.predicate = other.predicate := predicates (by simpa using found "predicate")
  have includes : plan.includes = other.includes := included (by simpa using found "include")
  have order : plan.order = other.order :=
    Option.map_injective RowOrder.toJson_injective (by simpa using found "order")
  have limit : plan.limit = other.limit :=
    Option.map_injective Json.nat_injective (by simpa using found "limit")
  have offset : plan.offset = other.offset :=
    Option.map_injective Json.nat_injective (by simpa using found "offset")
  have functions : plan.functions = other.functions :=
    functionsToJson_injective (by simpa using found "functions")
  cases plan
  cases other
  simp_all

end Plan

end QueryGate
