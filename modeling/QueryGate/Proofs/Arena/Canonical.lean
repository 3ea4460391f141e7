import Mathlib
import QueryGate.Proofs.Arena.Scanned
import QueryGate.Proofs.Checked.Plan
import QueryGate.Proofs.Request.Canonical

/-!
# What a plan sees of an arena

The canonical form of an arena determines the request in it but for the numbers of the nodes, and
a plan does not show the numbers either: it is made of the nodes that the root leads to, in their
order, wherever they stand in the arena and whatever else stands there.
-/

namespace QueryGate

theorem mapM_congr {α β : Type} {read again : α → Option β} {items : List α}
    (each : ∀ item ∈ items, read item = again item) : items.mapM read = items.mapM again := by
  induction items with
  | nil => rfl
  | cons item rest hypothesis =>
      rw [List.forall_mem_cons] at each
      rw [List.mapM_cons, List.mapM_cons, each.1, hypothesis each.2]

/-- Items with the same images stand in pairs. -/
theorem pairs_of_map_eq {α β : Type} {image : α → β} {items others : List α} {p q : α → Prop}
    (same : items.map image = others.map image) (each : ∀ item ∈ items, p item)
    (eachOther : ∀ item ∈ others, q item) :
    List.Forall₂ (fun item other => image item = image other ∧ p item ∧ q other) items others := by
  induction items generalizing others with
  | nil =>
      rw [List.map_eq_nil_iff.mp same.symm]
      exact .nil
  | cons item rest hypothesis =>
      obtain ⟨other, later, rfl, first, below⟩ := List.map_eq_cons_iff.mp same.symm
      rw [List.forall_mem_cons] at each eachOther
      exact .cons ⟨first.symm, each.1, eachOther.1⟩ (hypothesis below.symm each.2 eachOther.2)

namespace Request

theorem name_eq_of_unnumbered {request other : Request}
    (same : request.unnumbered = other.unnumbered) : request.name = other.name := by
  rw [← name_unnumbered, same, name_unnumbered]

end Request

namespace Arena

variable {arena other : Arena} {levels id : Nat} {request : Request}

/-- Requests that are read by their numbers are read one by one. -/
theorem map_number_of_mapM {read : Nat → Option Request} {ids : List Nat} {requests : List Request}
    (numbered : ∀ id request, read id = some request → request.number = id)
    (found : ids.mapM read = some requests) :
    requests.map Request.number = ids ∧ ∀ child ∈ requests, read child.number = some child := by
  induction ids generalizing requests with
  | nil =>
      cases found
      exact ⟨rfl, by simp⟩
  | cons id rest hypothesis =>
      simp only [List.mapM_cons, Option.bind_eq_bind, Option.bind_eq_some_iff, Option.pure_def,
        Option.some.injEq] at found
      obtain ⟨first, readFirst, others, readOthers, rfl⟩ := found
      obtain ⟨numbers, each⟩ := hypothesis readOthers
      have same := numbered id first readFirst
      rw [List.map_cons, numbers, same, List.forall_mem_cons, same]
      exact ⟨rfl, readFirst, each⟩

theorem exists_of_requestWithin? (read : arena.requestWithin? levels id = some request) :
    ∃ below node includes, levels = below + 1 ∧ arena.node? id = some node ∧
      node.includes.mapM (arena.requestWithin? below) = some includes ∧
      request = ⟨id, node.name, node.terms, includes⟩ := by
  cases levels with
  | zero => cases read
  | succ below =>
      simp only [requestWithin?, Option.bind_eq_bind, Option.bind_eq_some_iff, Option.pure_def,
        Option.some.injEq] at read
      obtain ⟨node, found, includes, readIncludes, rfl⟩ := read
      exact ⟨below, node, includes, rfl, found, readIncludes, rfl⟩

theorem number_of_requestWithin? (read : arena.requestWithin? levels id = some request) :
    request.number = id := by
  obtain ⟨_, _, _, -, -, -, rfl⟩ := exists_of_requestWithin? read
  rfl

/-- What is read of a node is that node, with what is read of its children at one level less. -/
theorem shows_of_requestWithin? (read : arena.requestWithin? levels id = some request) :
    arena.Shows request ∧ ∃ below, levels = below + 1 ∧
      ∀ child ∈ request.includes, arena.requestWithin? below child.number = some child := by
  obtain ⟨below, node, includes, rfl, found, readIncludes, rfl⟩ := exists_of_requestWithin? read
  obtain ⟨numbers, each⟩ :=
    map_number_of_mapM (fun _ _ => number_of_requestWithin?) readIncludes
  refine ⟨⟨node.parent, ?_⟩, below, rfl, each⟩
  rw [found, numbers]

/-- What is read of a node that the root leads to does not depend on nodes that it does not
lead to. -/
theorem requestWithin?_congr
    (agrees : ∀ id, arena.Reaches id → other.node? id = arena.node? id)
    (reached : arena.Reaches id) :
    other.requestWithin? levels id = arena.requestWithin? levels id := by
  induction levels generalizing id with
  | zero => rfl
  | succ levels hypothesis =>
      rw [requestWithin?, requestWithin?, agrees id reached]
      cases found : arena.node? id with
      | none => rfl
      | some node =>
          have below : node.includes.mapM (other.requestWithin? levels) =
              node.includes.mapM (arena.requestWithin? levels) :=
            mapM_congr fun child member => hypothesis (.child reached found member)
          simp only [Option.bind_eq_bind, Option.bind_some, below]

end Arena

namespace Checked

variable {options : PlanOptions}

/-- The plan of the request in an arena. -/
def planArena (options : PlanOptions) (filter : Filter) (arena : Arena) : Checked PlanError Plan :=
  planWithin options arena arena.nodes.length filter 0

/-- The plan of a relation that may be included. -/
def planTarget (next : Filter → Nat → Checked PlanError Plan) (target : Nat × String × Filter) :
    Checked PlanError (String × Plan) := do
  let plan ← next target.2.2 target.1
  return (target.2.1, plan)

/-- Children that differ in their numbers alone are planned alike, if each is planned like its
counterpart. -/
theorem map_targets_eq {filter : Filter} {includes others : List Request}
    {next nextOther : Filter → Nat → Checked PlanError Plan}
    (pairs : List.Forall₂ (fun child other : Request => child.name = other.name ∧
      ∀ own, next own child.number = nextOther own other.number) includes others) :
    (includes.mapM (target filter)).map (fun targets => targets.mapM (planTarget next)) =
      (others.mapM (target filter)).map fun targets => targets.mapM (planTarget nextOther) := by
  induction pairs with
  | nil => rfl
  | @cons child other rest later pair _ hypothesis =>
      obtain ⟨named, planned⟩ := pair
      rw [List.mapM_cons, List.mapM_cons, target, target, ← named]
      cases filter.include? child.name with
      | none => rfl
      | some own =>
          generalize rest.mapM (target filter) = result, later.mapM (target filter) = resultOther
            at hypothesis ⊢
          cases result with
          | error fault =>
              cases resultOther with
              | error => cases hypothesis; rfl
              | ok => cases hypothesis
          | ok targets =>
              cases resultOther with
              | error => cases hypothesis
              | ok targetsOther =>
                  have below : targets.mapM (planTarget next) =
                      targetsOther.mapM (planTarget nextOther) := Except.ok.inj hypothesis
                  have first : planTarget next (child.number, child.name, own) =
                      planTarget nextOther (other.number, child.name, own) := by
                    rw [planTarget, planTarget, planned own]
                  have all : ((child.number, child.name, own) :: targets).mapM (planTarget next) =
                      ((other.number, child.name, own) :: targetsOther).mapM
                        (planTarget nextOther) := by
                    rw [List.mapM_cons, List.mapM_cons, first, below]
                  exact congrArg Except.ok all

/-- Children are planned after their relations have been found. -/
theorem planWithin_succ (options : PlanOptions) (arena : Arena) (levels : Nat) (filter : Filter)
    {id : Nat} {request : Request} (read : arena.requestWithin? (levels + 1) id = some request) :
    planWithin options arena (levels + 1) filter id =
      of ((request.includes.mapM (target filter)).map fun targets =>
        targets.mapM (planTarget (planWithin options arena levels))) >>= fun below => do
      let projection ← of (filter.projection request.terms.fields)
      let functions ← of (request.terms.functions.mapM filter.computation)
      let paging ← paging filter request.terms.clauses
      let order ← of (paging.rowOrder options)
      let children ← below
      let predicate ← predicate filter request.terms.predicates
      return {
        entity := filter.entity
        projection := projection
        predicate := predicate
        includes := children
        order := order
        limit := paging.limit
        offset := paging.offset
        functions := functions } := by
  obtain ⟨⟨parent, entry⟩, below, same, each⟩ := Arena.shows_of_requestWithin? read
  cases same
  rw [Arena.number_of_requestWithin? read] at entry
  have shown : ∀ child ∈ request.includes, arena.Shows child :=
    fun child member => (Arena.shows_of_requestWithin? (each child member)).1
  rw [planWithin, node_eq_of entry, ok_bind, relations_eq_of filter shown]
  cases request.includes.mapM (target filter) <;> rfl

/-- Nodes from which the same is read but for the numbers have the same plan, whether it breaks
off or not. -/
theorem planWithin_eq {arena other : Arena} {levels levelsOther id idOther : Nat}
    {request requestOther : Request} (read : arena.requestWithin? levels id = some request)
    (readOther : other.requestWithin? levelsOther idOther = some requestOther)
    (same : request.unnumbered = requestOther.unnumbered) (filter : Filter) :
    planWithin options arena levels filter id =
      planWithin options other levelsOther filter idOther := by
  induction levels generalizing levelsOther id idOther request requestOther filter with
  | zero => cases read
  | succ levels hypothesis =>
      obtain ⟨-, below, equal, each⟩ := Arena.shows_of_requestWithin? read
      obtain ⟨-, belowOther, rfl, eachOther⟩ := Arena.shows_of_requestWithin? readOther
      cases equal
      have terms : request.terms = requestOther.terms := by
        rw [← Request.terms_unnumbered, same, Request.terms_unnumbered]
      have alike : request.includes.map Request.unnumbered =
          requestOther.includes.map Request.unnumbered := by
        rw [← Request.includes_unnumbered, same, Request.includes_unnumbered]
      have pairs : List.Forall₂ (fun child counterpart : Request =>
          child.name = counterpart.name ∧ ∀ own, planWithin options arena levels own child.number =
            planWithin options other belowOther own counterpart.number)
          request.includes requestOther.includes := by
        apply (pairs_of_map_eq alike each eachOther).imp
        rintro child counterpart ⟨sameChild, readChild, readCounterpart⟩
        exact ⟨Request.name_eq_of_unnumbered sameChild,
          hypothesis readChild readCounterpart sameChild⟩
      rw [planWithin_succ options arena levels filter read,
        planWithin_succ options other belowOther filter readOther, map_targets_eq pairs, terms]

end Checked

variable {scanning scanningOther : ScanOptions} {text textOther : String} {arena other : Arena}

/-- Under a filter that has been obtained, the plan of an arena is that of the request in it. -/
theorem Arena.Represents.planArena_eq {request : Request}
    (represents : arena.Represents scanning request) {filter : Filter} (obtained : filter.Obtained)
    (planning : PlanOptions) :
    Checked.planArena planning filter arena = Checked.of (request.plan planning filter) := by
  have stores := represents.stores
  have root : request.at? [] = some request := rfl
  have planned := Checked.planWithin_eq_of planning stores represents.wellFormed.toLinked root
    (fun _ _ reached => obtained.boundsOrdered reached) (Nat.le_add_right _ _)
  rwa [stores.root] at planned

/-- The canonical form of a scanned arena says all that the compiler sees of it. Where two have one
canonical form, the requests in them are the same but for the numbers of their nodes, and have the
same plan or the same error under every filter, also where nodes are looked up by their numbers in
arenas of different sizes. What stands at numbers that the root does not lead to makes no
difference to the canonical form or to a plan. -/
theorem plan_eq_of_toJson? (scanned : scanArena scanning text = .ok arena)
    (scannedOther : scanArena scanningOther textOther = .ok other)
    (same : arena.toJson? = other.toJson?) :
    (∃ request requestOther, arena.request? 0 = some request ∧
      other.request? 0 = some requestOther ∧ request.unnumbered = requestOther.unnumbered ∧
      ∀ planning filter, request.plan planning filter = requestOther.plan planning filter ∧
        (filter.Obtained → Checked.planArena planning filter arena =
          Checked.of (request.plan planning filter))) ∧
      (∀ planning filter,
        Checked.planArena planning filter arena = Checked.planArena planning filter other) ∧
      ∀ altered : Arena, altered.nodes.length = arena.nodes.length →
        (∀ id, arena.Reaches id → altered.node? id = arena.node? id) →
        altered.toJson? = arena.toJson? ∧ ∀ planning filter,
          Checked.planArena planning filter altered = Checked.planArena planning filter arena := by
  obtain ⟨request, scannedRequest, represents⟩ := exists_represents_of_scanArena scanned
  obtain ⟨requestOther, scannedRequestOther, representsOther⟩ :=
    exists_represents_of_scanArena scannedOther
  have read := represents.request?_root
  have readOther := representsOther.request?_root
  have forms : request.toJson = requestOther.toJson := by
    rw [Arena.toJson?, Arena.toJson?, read, readOther] at same
    exact Option.some.inj same
  have alike : request.unnumbered = requestOther.unnumbered :=
    Request.unnumbered_eq_of_toJson request requestOther
      (scan_every Terms.WellFormed.kept scannedRequest)
      (scan_every Terms.WellFormed.kept scannedRequestOther) forms
  refine ⟨⟨request, requestOther, read, readOther, alike, ?_⟩, ?_, ?_⟩
  · intro planning filter
    refine ⟨?_, fun obtained => represents.planArena_eq obtained planning⟩
    rw [← Request.plan_unnumbered, alike, Request.plan_unnumbered]
  · intro planning filter
    exact Checked.planWithin_eq read readOther alike filter
  · intro altered length agrees
    have again : altered.request? 0 = arena.request? 0 := by
      rw [Arena.request?, Arena.request?, length]
      exact Arena.requestWithin?_congr agrees .root
    refine ⟨by rw [Arena.toJson?, Arena.toJson?, again], ?_⟩
    intro planning filter
    exact Checked.planWithin_eq (again.trans read) read rfl filter

/-- A relation with a limit that is no number is replaced; nothing of it is left but its place in
the arena. -/
theorem plan_eq_of_toJson?_replace :
    ∃ arena other, scanArena { duplicates := .replace } "includes=comments(limit=x),comments" =
        .ok arena ∧
      scanArena {} "includes=comments" = .ok other ∧ arena.nodes.length = 3 ∧
      other.nodes.length = 2 ∧ arena.toJson? = other.toJson? ∧
      Checked.planArena {} .articles arena = Checked.planArena {} .articles other := by
  let arena : Arena :=
    ⟨[⟨"root", none, {}, [2]⟩,
      ⟨"comments", some 0, { clauses := [(.limit, "x")] }, []⟩,
      ⟨"comments", some 0, {}, []⟩]⟩
  let other : Arena := ⟨[⟨"root", none, {}, [1]⟩, ⟨"comments", some 0, {}, []⟩]⟩
  have scanned :
      scanArena { duplicates := .replace } "includes=comments(limit=x),comments" = .ok arena := by
    rfl
  have scannedOther : scanArena {} "includes=comments" = .ok other := by rfl
  have same : arena.toJson? = other.toJson? := by rfl
  obtain ⟨-, plans, -⟩ := plan_eq_of_toJson? scanned scannedOther same
  exact ⟨arena, other, scanned, scannedOther, rfl, rfl, same, plans {} .articles⟩

end QueryGate
