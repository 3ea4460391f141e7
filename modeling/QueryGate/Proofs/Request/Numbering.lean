import QueryGate.Plan.Build
import QueryGate.Proofs.Request.Path

/-!
# Requests without their numbers

The numbers of a request's nodes are no part of what it means: its canonical form
does not show them, no change that a scanner makes looks at them, and no plan depends
on them.
-/

namespace QueryGate

namespace Request

mutual

/-- The request with all numbers 0. -/
def unnumbered : Request → Request
  | ⟨_, name, terms, includes⟩ => ⟨0, name, terms, unnumberedAll includes⟩

/-- Several requests with all numbers 0. -/
def unnumberedAll : List Request → List Request
  | [] => []
  | request :: rest => request.unnumbered :: unnumberedAll rest

end

theorem unnumberedAll_eq_map (requests : List Request) :
    unnumberedAll requests = requests.map unnumbered := by
  induction requests with
  | nil => rfl
  | cons request rest hypothesis => rw [unnumberedAll, List.map_cons, hypothesis]

variable (request : Request)

@[simp] theorem name_unnumbered : request.unnumbered.name = request.name := by
  cases request; rfl

@[simp] theorem terms_unnumbered : request.unnumbered.terms = request.terms := by
  cases request; rfl

@[simp] theorem includes_unnumbered :
    request.unnumbered.includes = request.includes.map unnumbered := by
  cases request with
  | mk number name terms includes => exact unnumberedAll_eq_map includes

mutual

/-- The canonical form does not show the numbers. -/
theorem toJson_unnumbered : (request : Request) → request.unnumbered.toJson = request.toJson
  | ⟨number, name, terms, includes⟩ => by
      rw [unnumbered, toJson, toJson, toJsonAll_unnumberedAll includes]

theorem toJsonAll_unnumberedAll :
    (requests : List Request) → toJsonAll (unnumberedAll requests) = toJsonAll requests
  | [] => rfl
  | request :: rest => by
      rw [unnumberedAll, toJsonAll, toJsonAll, toJson_unnumbered request,
        toJsonAll_unnumberedAll rest]

end

theorem toJson_eq_of_unnumbered {request other : Request}
    (same : request.unnumbered = other.unnumbered) : request.toJson = other.toJson := by
  rw [← toJson_unnumbered request, same, toJson_unnumbered]

@[simp] theorem unnumbered_blank (number : Nat) (name : String) :
    (blank number name).unnumbered = blank 0 name := rfl

theorem child?_unnumbered (name : String) :
    request.unnumbered.child? name = (request.child? name).map unnumbered := by
  rw [child?, includes_unnumbered, find?_map_of_keepsName name_unnumbered, child?]

theorem at?_unnumbered (path : Path) :
    request.unnumbered.at? path = (request.at? path).map unnumbered := by
  induction path generalizing request with
  | nil => rfl
  | cons name path hypothesis =>
      rw [at?, at?, child?_unnumbered]
      cases request.child? name with
      | none => rfl
      | some child => exact hypothesis child

/-- A change that does not look at the numbers can be made without them. -/
theorem unnumbered_update {change other : Request → Request}
    (same : ∀ node, (change node).unnumbered = other node.unnumbered) (path : Path) :
    (request.update change path).unnumbered = request.unnumbered.update other path := by
  induction path generalizing request with
  | nil => exact same request
  | cons name path hypothesis =>
      have onEach : unnumbered ∘ onWay change name path = onWay other name path ∘ unnumbered := by
        funext child
        by_cases named : child.name = name
        · simp [onWay, named, hypothesis]
        · simp [onWay, named]
      rcases request with ⟨number, ownName, terms, includes⟩
      simp only [update_cons, unnumbered, unnumberedAll_eq_map, List.map_map, onEach]

theorem unnumbered_updateTerms (change : Terms → Terms) (path : Path) :
    (request.updateTerms change path).unnumbered = request.unnumbered.updateTerms change path := by
  apply unnumbered_update
  intro node
  cases node
  rfl

theorem unnumbered_addChild (child : Request) :
    (addChild child request).unnumbered = addChild child.unnumbered request.unnumbered := by
  rcases request with ⟨number, name, terms, includes⟩
  simp [addChild, unnumbered, unnumberedAll_eq_map]

theorem unnumbered_removeChild (name : String) :
    (request.removeChild name).unnumbered = request.unnumbered.removeChild name := by
  have kept : (fun child : Request => child.name != name) ∘ unnumbered =
      fun child => child.name != name := by
    funext child
    rw [Function.comp_apply, name_unnumbered]
  rcases request with ⟨number, ownName, terms, includes⟩
  simp only [removeChild, unnumbered, unnumberedAll_eq_map, List.filter_map, kept]

/-! ### Plans -/

theorem checkIncludes_unnumberedAll (filter : Filter) (includes : List Request) :
    filter.checkIncludes (unnumberedAll includes) = filter.checkIncludes includes := by
  induction includes with
  | nil => rfl
  | cons child rest hypothesis =>
      rw [unnumberedAll, Filter.checkIncludes, Filter.checkIncludes, name_unnumbered, hypothesis]

mutual

/-- The plan of a request does not depend on the numbers of its nodes. -/
theorem plan_unnumbered (options : PlanOptions) (filter : Filter) :
    (request : Request) → request.unnumbered.plan options filter = request.plan options filter
  | ⟨_, _, _, includes⟩ => by
      rw [unnumbered, plan, plan, checkIncludes_unnumberedAll,
        planIncludes_unnumberedAll options filter includes]

theorem planIncludes_unnumberedAll (options : PlanOptions) (filter : Filter) :
    (includes : List Request) →
      planIncludes options filter (unnumberedAll includes) = planIncludes options filter includes
  | [] => rfl
  | child :: rest => by
      rw [unnumberedAll, planIncludes, planIncludes, name_unnumbered,
        planIncludes_unnumberedAll options filter rest]
      cases filter.include? child.name with
      | none => rfl
      | some own =>
          dsimp only
          rw [plan_unnumbered options own child]

end

end Request

end QueryGate
