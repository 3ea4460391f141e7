import QueryGate.Proofs.Request.Edit

/-!
# Combining requests

Two requests are combined by letting the second have its way: its clauses, its
predicates and its fields stand in place of those of the first, and its functions
follow them. What happens to a relation of both is the matter of a policy: their
requests are combined by the same rule, or the second one's takes the place of the
first one's.

An edit of the second request is an edit of the combination, as long as the node it
is about is a node of the second request.
-/

namespace QueryGate

/-- What two nodes ask together, the second having its way. -/
def Terms.combine (lower upper : Terms) : Terms where
  fields := if upper.fields.isEmpty then lower.fields else upper.fields
  clauses := Table.override lower.clauses upper.clauses
  predicates := Table.override lower.predicates upper.predicates
  functions := lower.functions ++ upper.functions

@[simp] theorem Terms.combine_empty (terms : Terms) : terms.combine {} = terms := by
  simp [combine, Table.override]

/-- A change of the second terms is one of the combination. -/
theorem Terms.apply_combine {lower upper : Terms} (sorted : lower.Sorted)
    (sortedUpper : upper.Sorted) (change : Terms.Change) :
    change.apply (lower.combine upper) = lower.combine (change.apply upper) := by
  cases change with
  | clause directive text =>
      simp only [Change.apply, combine,
        Table.override_insert sorted.clauses sortedUpper.clauses directive text]
      rfl
  | fields names written => simp [Change.apply, combine, written]
  | functions calls => simp [Change.apply, combine]
  | predicate name condition =>
      simp only [Change.apply, combine,
        Table.override_insert sorted.predicates sortedUpper.predicates name condition]
      rfl

namespace Request

mutual

/-- The combination of two requests, relations of both being combined. -/
def merge : Request → Request → Request
  | ⟨number, name, terms, includes⟩, upper =>
      ⟨number, name, terms.combine upper.terms,
        mergeAll includes upper ++
          upper.includes.filter fun child =>
            (includes.find? fun other => other.name == child.name).isNone⟩

/-- The relations of a request, each combined with the relation of its name, if the
other request has one. -/
def mergeAll : List Request → Request → List Request
  | [], _ => []
  | child :: rest, upper =>
      (match upper.child? child.name with
        | none => child
        | some other => child.merge other) :: mergeAll rest upper

end

/-- The combination of two requests, relations of the second taking the place of those
of the first. -/
def replace (lower upper : Request) : Request :=
  ⟨lower.number, lower.name, lower.terms.combine upper.terms,
    (lower.includes.filter fun child => (upper.child? child.name).isNone) ++ upper.includes⟩

/-- The combination of two requests under a policy. Where relations of both are in
error either rule gives the same. -/
def combine : DuplicatePolicy → Request → Request → Request
  | .merge | .reject => merge
  | .replace => replace

/-- A relation of the first request in the combination with the second. -/
def mergeChild (upper child : Request) : Request :=
  match upper.child? child.name with
  | none => child
  | some other => child.merge other

variable {lower upper : Request} {change : Request → Request}

@[simp] theorem name_merge (lower upper : Request) : (lower.merge upper).name = lower.name := by
  cases lower
  rw [merge]

theorem mergeAll_eq_map (children : List Request) (upper : Request) :
    mergeAll children upper = children.map (mergeChild upper) := by
  induction children with
  | nil => rfl
  | cons child rest hypothesis =>
      rw [mergeAll, List.map_cons, hypothesis]
      rfl

/-- The relations that only the second request has. -/
def added (lower upper : Request) : List Request :=
  upper.includes.filter fun child => (lower.child? child.name).isNone

@[simp] theorem includes_merge (lower upper : Request) :
    (lower.merge upper).includes =
      lower.includes.map (mergeChild upper) ++ added lower upper := by
  cases lower
  rw [merge, mergeAll_eq_map]
  rfl

theorem merge_eq (lower upper : Request) :
    lower.merge upper = ⟨lower.number, lower.name, lower.terms.combine upper.terms,
      lower.includes.map (mergeChild upper) ++ added lower upper⟩ := by
  cases lower
  rw [merge, mergeAll_eq_map]
  rfl

theorem name_mergeChild (upper : Request) : KeepsName (mergeChild upper) := by
  intro child
  rw [mergeChild]
  split
  · rfl
  · exact name_merge child _

/-- A request that asks for nothing adds nothing. -/
theorem merge_blank (lower : Request) (number : Nat) (name : String) :
    lower.merge (blank number name) = lower := by
  have unchanged : mergeChild (blank number name) = id := rfl
  rw [merge_eq, unchanged]
  cases lower
  simp [added]

theorem child?_merge (lower upper : Request) (name : String) :
    (lower.merge upper).child? name =
      ((lower.child? name).map (mergeChild upper)).or (upper.child? name) := by
  have only : (lower.child? name).isNone →
      (added lower upper).find? (fun child => child.name == name) = upper.child? name := by
    intro absent
    rw [added, List.find?_filter, child?]
    congr 1
    funext child
    by_cases named : child.name = name
    · simp [named, absent]
    · simp [named]
  rw [child?, includes_merge, List.find?_append, find?_map_of_keepsName (name_mergeChild upper)]
  change ((lower.child? name).map _).or _ = _
  cases found : lower.child? name with
  | some child => rfl
  | none =>
      rw [Option.map_none, Option.none_or, Option.none_or]
      exact only (by rw [found]; rfl)

/-- A change of a node that the second request has is one of the combination, if it is
so where the changed node is the root. -/
theorem update_merge (keeps : KeepsName change)
    (commutes : ∀ {lower upper : Request}, lower.terms.Sorted → upper.terms.Sorted →
      change (lower.merge upper) = lower.merge (change upper))
    {path : Path} (sorted : lower.Every Terms.Sorted) (sortedUpper : upper.Every Terms.Sorted)
    (reached : (upper.at? path).isSome) :
    (lower.merge upper).update change path = lower.merge (upper.update change path) := by
  induction path generalizing lower upper with
  | nil => exact commutes sorted.terms sortedUpper.terms
  | cons name path hypothesis =>
      -- The relation on the way is one of the second request.
      obtain ⟨node, reached⟩ := Option.isSome_iff_exists.mp reached
      rw [at?, Option.bind_eq_some_iff] at reached
      obtain ⟨onPath, found, reached⟩ := reached
      have combined : ∀ child ∈ lower.includes, onWay change name path (mergeChild upper child) =
          mergeChild (upper.update change (name :: path)) child := by
        intro child member
        rw [mergeChild, mergeChild, child?_update_cons keeps]
        by_cases named : child.name = name
        · have sameName := name_of_child? found
          rw [named, found]
          simp only [Option.map_some, onWay, name_merge, named, sameName, beq_self_eq_true, if_true]
          exact hypothesis (sorted.children child member)
            (sortedUpper.children onPath (mem_of_child? found)) (by rw [reached]; rfl)
        · cases both : upper.child? child.name with
          | none => simp [onWay, named]
          | some other =>
              have otherNamed : other.name ≠ name := by
                rw [name_of_child? both]
                exact named
              simp [onWay, named, otherNamed]
      have below : added lower (upper.update change (name :: path)) =
          (added lower upper).map (onWay change name path) := by
        have kept : (fun child : Request => (lower.child? child.name).isNone) ∘
            onWay change name path = fun child => (lower.child? child.name).isNone := by
          funext child
          exact congrArg (fun name => (lower.child? name).isNone) (name_onWay keeps name path child)
        rw [added, added, update_cons, List.filter_map, kept]
      rw [merge_eq lower upper, merge_eq, below]
      simp only [update_cons, List.map_append, List.map_map]
      congr 2
      exact List.map_congr_left combined

theorem mergeChild_addChild_blank {name : String} (absent : upper.child? name = none)
    (child : Request) :
    mergeChild (addChild (blank 0 name) upper) child = mergeChild upper child := by
  rw [mergeChild, mergeChild, child?_addChild]
  by_cases named : child.name = name
  · simp [named, absent, merge_blank]
  · simp [Ne.symm named]

/-- Making sure of a relation of the second request makes sure of it in the combination. -/
theorem ensureChild_merge (name : String) (lower upper : Request) :
    (lower.merge upper).ensureChild name = lower.merge (upper.ensureChild name) := by
  cases found : upper.child? name with
  | some child =>
      have present : ((lower.merge upper).child? name).isSome := by
        rw [child?_merge, found]
        cases lower.child? name <;> rfl
      rw [ensureChild_of_some found, ensureChild, if_pos present]
  | none =>
      have combined : mergeChild (addChild (blank 0 name) upper) = mergeChild upper :=
        funext (mergeChild_addChild_blank found)
      rw [ensureChild_of_none found, merge_eq lower (addChild _ _), combined, added, addChild,
        List.filter_append, List.filter_singleton, ← added]
      cases lowerFound : lower.child? name with
      | some child =>
          have present : (lower.merge upper).child? name = some (mergeChild upper child) := by
            rw [child?_merge, lowerFound]
            rfl
          rw [ensureChild_of_some present, merge_eq]
          simp [lowerFound]
      | none =>
          have absent : (lower.merge upper).child? name = none := by
            rw [child?_merge, lowerFound, found]
            rfl
          rw [ensureChild_of_none absent, merge_eq]
          simp [addChild, lowerFound]

/-- A change of the terms of the second request is one of the combination. -/
theorem changeTerms_merge (sorted : lower.terms.Sorted) (sortedUpper : upper.terms.Sorted)
    (change : Terms.Change) :
    { lower.merge upper with terms := change.apply (lower.merge upper).terms } =
      lower.merge { upper with terms := change.apply upper.terms } := by
  rw [merge_eq, merge_eq, ← Terms.apply_combine sorted sortedUpper change]
  rfl

theorem changeTerms_replace (sorted : lower.terms.Sorted) (sortedUpper : upper.terms.Sorted)
    (change : Terms.Change) :
    { lower.replace upper with terms := change.apply (lower.replace upper).terms } =
      lower.replace { upper with terms := change.apply upper.terms } := by
  rw [replace, replace, ← Terms.apply_combine sorted sortedUpper change]
  rfl

/-- A change of a node that the second request has is one of the combination, if it is
so where the changed node is the root. -/
theorem update_replace (keeps : KeepsName change)
    (commutes : lower.terms.Sorted → upper.terms.Sorted →
      change (lower.replace upper) = lower.replace (change upper))
    {path : Path} (sorted : lower.terms.Sorted) (sortedUpper : upper.terms.Sorted)
    (reached : (upper.at? path).isSome) :
    (lower.replace upper).update change path = lower.replace (upper.update change path) := by
  cases path with
  | nil => exact commutes sorted sortedUpper
  | cons name path =>
      obtain ⟨node, reached⟩ := Option.isSome_iff_exists.mp reached
      rw [at?, Option.bind_eq_some_iff] at reached
      obtain ⟨onPath, found, -⟩ := reached
      have survive : lower.includes.filter (fun child =>
          ((upper.update change (name :: path)).child? child.name).isNone) =
          lower.includes.filter fun child => (upper.child? child.name).isNone := by
        apply List.filter_congr
        intro child member
        rw [child?_update_cons keeps, Option.isNone_map]
      -- The relation on the way is one of the second request, so it is no survivor.
      have untouched : ∀ child ∈ lower.includes.filter
            (fun child => (upper.child? child.name).isNone),
          onWay change name path child = child := by
        intro child member
        have absent := (List.mem_filter.mp member).2
        have different : child.name ≠ name := by
          intro named
          rw [named, found] at absent
          cases absent
        simp [onWay, different]
      rw [replace, replace, survive]
      simp only [update_cons, List.map_append]
      rw [List.map_congr_left untouched, List.map_id']

/-- Replacing a relation of the second request replaces it in the combination. -/
theorem replaceChild_replace (name : String) (lower upper : Request) :
    (lower.replace upper).replaceChild name = lower.replace (upper.replaceChild name) := by
  have survive : ∀ child : Request, ((upper.replaceChild name).child? child.name).isNone =
      (child.name != name && (upper.child? child.name).isNone) := by
    intro child
    by_cases named : child.name = name
    · simpa [named] using isSome_child?_replaceChild name upper
    · rw [replaceChild, child?_addChild, child?_removeChild upper named]
      simp [named, Ne.symm named]
  simp only [replace, survive]
  simp [replaceChild, addChild, removeChild, List.filter_append, List.filter_filter]

/-! ### Numbers -/

mutual

theorem unnumbered_merge : (lower upper : Request) →
    (lower.merge upper).unnumbered = lower.unnumbered.merge upper.unnumbered
  | ⟨number, name, terms, includes⟩, upper => by
      have found : ∀ child : Request,
          (unnumberedAll includes).find? (fun other => other.name == child.unnumbered.name) =
            (includes.find? fun other => other.name == child.name).map unnumbered := by
        intro child
        rw [unnumberedAll_eq_map, name_unnumbered, find?_map_of_keepsName name_unnumbered]
      have only : (unnumberedAll (upper.includes.filter fun child =>
          (includes.find? fun other => other.name == child.name).isNone)) =
          upper.unnumbered.includes.filter fun child =>
            ((unnumberedAll includes).find? fun other => other.name == child.name).isNone := by
        rw [includes_unnumbered, List.filter_map, unnumberedAll_eq_map]
        congr 2
        funext child
        rw [Function.comp_apply, found, Option.isNone_map]
      rw [merge, unnumbered, unnumbered, merge, ← only, ← unnumberedAll_mergeAll includes upper,
        terms_unnumbered]
      simp only [unnumberedAll_eq_map, List.map_append]

theorem unnumberedAll_mergeAll : (children : List Request) → (upper : Request) →
    unnumberedAll (mergeAll children upper) = mergeAll (unnumberedAll children) upper.unnumbered
  | [], _ => rfl
  | child :: rest, upper => by
      rw [mergeAll, unnumberedAll, unnumberedAll, mergeAll, unnumberedAll_mergeAll rest upper,
        name_unnumbered, child?_unnumbered]
      cases upper.child? child.name with
      | none => rfl
      | some other =>
          rw [Option.map_some]
          simp only [unnumbered_merge child other]

end

theorem unnumbered_replace (lower upper : Request) :
    (lower.replace upper).unnumbered = lower.unnumbered.replace upper.unnumbered := by
  have survive : (fun child : Request => (upper.unnumbered.child? child.name).isNone) ∘ unnumbered =
      fun child => (upper.child? child.name).isNone := by
    funext child
    rw [Function.comp_apply, name_unnumbered, child?_unnumbered, Option.isNone_map]
  rcases lower with ⟨number, name, terms, includes⟩
  simp only [replace, unnumbered, unnumberedAll_eq_map, List.map_append, List.filter_map, survive,
    terms_unnumbered, includes_unnumbered]

/-- The numbers of two requests do not matter for what they ask together. -/
theorem unnumbered_combine (policy : DuplicatePolicy) (lower upper : Request) :
    (lower.combine policy upper).unnumbered =
      lower.unnumbered.combine policy upper.unnumbered := by
  cases policy with
  | merge | reject => exact unnumbered_merge lower upper
  | replace => exact unnumbered_replace lower upper

theorem combine_blank (policy : DuplicatePolicy) (lower : Request) (number : Nat)
    (name : String) : lower.combine policy (blank number name) = lower := by
  cases policy with
  | merge | reject => exact merge_blank lower number name
  | replace =>
      cases lower
      simp [combine, replace, child?]

end Request

namespace Edit

variable {options : ScanOptions} {lower upper : Request}

/-- An edit of the second request is one of the combination, if it is about a node that
the second request has. -/
theorem apply_combine {edit : Edit} {focus : Path} (combines : options.duplicates ≠ .reject)
    (sorted : lower.Every Terms.Sorted) (sortedUpper : upper.Every Terms.Sorted)
    (within : edit.Within focus) (reached : (upper.at? focus).isSome) :
    edit.apply options (lower.combine options.duplicates upper) =
      (edit.apply options upper).map (lower.combine options.duplicates) := by
  have around : ∀ {path : Path}, path <+: focus → (upper.at? path).isSome := by
    rintro path ⟨rest, rfl⟩
    exact Request.isSome_at?_of_append reached
  cases policy : options.duplicates with
  | reject => exact absurd policy combines
  | merge =>
      cases edit with
      | assign node change =>
          exact congrArg some (Request.update_merge (keepsName_terms change.apply)
            (fun own ownUpper => Request.changeTerms_merge own ownUpper change)
            sorted sortedUpper (around within))
      | attach parent name =>
          have updated := Request.update_merge (Request.name_ensureChild name)
            (fun _ _ => Request.ensureChild_merge name _ _) sorted sortedUpper (around within)
          simp only [apply, policy, Request.combine]
          split
          · rfl
          · exact congrArg some updated
      | nest depth =>
          simp only [apply]
          split <;> rfl
  | replace =>
      cases edit with
      | assign node change =>
          exact congrArg some (Request.update_replace (keepsName_terms change.apply)
            (fun own ownUpper => Request.changeTerms_replace own ownUpper change)
            sorted.terms sortedUpper.terms (around within))
      | attach parent name =>
          have updated := Request.update_replace (Request.name_replaceChild name)
            (fun _ _ => Request.replaceChild_replace name lower upper) sorted.terms
            sortedUpper.terms (around within)
          simp only [apply, policy, Request.combine]
          split
          · rfl
          · exact congrArg some updated
      | nest depth =>
          simp only [apply]
          split <;> rfl

/-- Edits of the second request, each about a node that is there by then, are edits of
the combination. -/
theorem applyAll_combine {edits : List Edit} {focus last : Path}
    (combines : options.duplicates ≠ .reject)
    (sorted : lower.Every Terms.Sorted) (sortedUpper : upper.Every Terms.Sorted)
    (follows : Follows focus edits last) (reached : (upper.at? focus).isSome) :
    applyAll options (lower.combine options.duplicates upper) edits =
      (applyAll options upper edits).map (lower.combine options.duplicates) := by
  induction edits generalizing upper focus with
  | nil => rfl
  | cons edit edits hypothesis =>
      rw [applyAll_cons, applyAll_cons, apply_combine combines sorted sortedUpper follows.1 reached]
      cases applied : edit.apply options upper with
      | none => rfl
      | some next =>
          exact hypothesis (sorted_of_apply sortedUpper applied) follows.2
            (isSome_at?_moves follows.1 reached applied)

end Edit

end QueryGate
