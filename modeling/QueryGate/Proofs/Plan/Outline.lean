import QueryGate.Proofs.Arena.Canonical

/-!
# Plans mirror requests

The relations that a plan includes are those that the request asks for, in the same order at
every node. A path of names leads to a node in the request exactly if it does in the plan, and
the plan that it leads to is that of the node, under the filter that it leads to: a node is
planned as if it were a request of its own, wherever it hangs.
-/

namespace QueryGate

/-- The relations that are included, and those that are included from each. -/
inductive Outline where
  | node (includes : List (String × Outline))

mutual

/-- The relations that a request includes. -/
def Request.outline : Request → Outline
  | ⟨_, _, _, includes⟩ => .node (Request.outlines includes)

/-- The outlines of several requests under their names. -/
def Request.outlines : List Request → List (String × Outline)
  | [] => []
  | request :: rest => (request.name, request.outline) :: Request.outlines rest

end

mutual

/-- The relations that a plan includes. -/
def Plan.outline : Plan → Outline
  | ⟨_, _, _, includes, _, _, _, _⟩ => .node (Plan.outlines includes)

/-- The outlines of included plans under their relations. -/
def Plan.outlines : List (String × Plan) → List (String × Outline)
  | [] => []
  | (relation, plan) :: rest => (relation, plan.outline) :: Plan.outlines rest

end

/-- The plan at the end of a path of relations. -/
def Plan.at? (plan : Plan) : Path → Option Plan
  | [] => some plan
  | relation :: path => (plan.include? relation).bind fun child => child.at? path

/-- The number of the node at the end of a path of relations that starts at a node. -/
def Arena.nodeAt? (arena : Arena) (id : Nat) : Path → Option Nat
  | [] => some id
  | name :: path => (arena.findInclude? id name).bind fun child => arena.nodeAt? child path

variable {options : PlanOptions} {filter : Filter} {request : Request} {plan : Plan}

/-! ## Outlines -/

mutual

/-- The outline of a plan is that of the request. -/
theorem outline_of_plan (filter : Filter) (request : Request) {plan : Plan}
    (planned : request.plan options filter = .ok plan) : plan.outline = request.outline := by
  have children := (plan_eq_ok_iff.mp planned).children
  rcases request with ⟨number, name, terms, includes⟩
  rcases plan with ⟨entity, projection, predicate, plans, order, limit, offset, functions⟩
  rw [Plan.outline, Request.outline, outlines_of_planIncludes filter includes children]

theorem outlines_of_planIncludes (filter : Filter) (includes : List Request)
    {plans : List (String × Plan)}
    (planned : Request.planIncludes options filter includes = .ok plans) :
    Plan.outlines plans = Request.outlines includes := by
  cases includes with
  | nil =>
      cases planned
      rfl
  | cons request rest =>
      cases planIncludes_eq_ok_iff.mp planned with
      | @cons _ row _ others first later =>
          obtain ⟨relation, plan⟩ := row
          obtain ⟨rfl, own, -, plannedFirst⟩ := first
          rw [Plan.outlines, Request.outlines, outline_of_plan own request plannedFirst,
            outlines_of_planIncludes filter rest (planIncludes_eq_ok_iff.mpr later)]

end

/-! ## Paths -/

/-- What is found in a filter, in a request and in a plan: the plan of what is asked for under the
filter, or nothing where nothing is asked for. -/
inductive Mirrors (options : PlanOptions) :
    Option Filter → Option Request → Option Plan → Prop where
  | none {own : Option Filter} : Mirrors options own none none
  | some {own : Filter} {source : Request} {node : Plan} :
      source.plan options own = .ok node → Mirrors options (some own) (some source) (some node)

/-- One step: the first child of a name is planned to the first plan of that name. -/
theorem mirrors_include? (planned : request.plan options filter = .ok plan) (name : String) :
    Mirrors options (filter.include? name) (request.child? name) (plan.include? name) := by
  have pairs := planIncludes_eq_ok_iff.mp (plan_eq_ok_iff.mp planned).children
  rw [Request.child?, Plan.include?]
  generalize request.includes = includes, plan.includes = plans at pairs
  induction pairs with
  | nil => exact .none
  | @cons child row includes plans first _ hypothesis =>
      obtain ⟨relation, node⟩ := row
      obtain ⟨rfl, own, available, plannedChild⟩ := first
      by_cases named : child.name = name
      · subst named
        rw [List.find?_cons_of_pos (by simp), List.lookup_cons_self, available]
        exact .some plannedChild
      · have other : (name == child.name) = false := beq_false_of_ne (Ne.symm named)
        rw [List.find?_cons_of_neg (by simpa using named), List.lookup_cons, other]
        exact hypothesis

/-- A run of steps: what a path leads to in the request is planned to what it leads to in the
plan, under the filter that it leads to. -/
theorem mirrors_at? (planned : request.plan options filter = .ok plan) (path : Path) :
    Mirrors options (filter.at? path) (request.at? path) (plan.at? path) := by
  induction path generalizing request filter plan with
  | nil => exact .some planned
  | cons name path hypothesis =>
      have step := mirrors_include? planned name
      rw [Filter.at?, Request.at?, Plan.at?]
      generalize filter.include? name = own, request.child? name = child,
        plan.include? name = node at step
      cases step with
      | none => exact .none
      | some plannedChild => exact hypothesis plannedChild

theorem Filter.at?_append (filter : Filter) (path rest : Path) :
    filter.at? (path ++ rest) = (filter.at? path).bind fun own => own.at? rest := by
  induction path generalizing filter with
  | nil => rfl
  | cons relation path hypothesis =>
      rw [List.cons_append, Filter.at?, Filter.at?]
      cases filter.include? relation with
      | none => rfl
      | some child => exact hypothesis child

namespace Request.Distinct

/-- Where no request includes a relation twice, a path of names leads to every node of the plan. -/
theorem at?_plan_eq_some_iff (distinct : request.Distinct)
    (planned : request.plan options filter = .ok plan) {path : Path} {node : Plan} :
    plan.at? path = some node ↔ plan.Node path node := by
  have mirrors := mirrors_at? planned path
  constructor
  · intro found
    rw [found] at mirrors
    generalize atSource : request.at? path = source?, atFilter : filter.at? path = own? at mirrors
    cases mirrors with
    | some made =>
        obtain ⟨own, other, foundOwn, reached, madeOther⟩ :=
          exists_node_of_plan planned (node_of_at? atSource)
        cases atFilter.symm.trans foundOwn
        cases made.symm.trans madeOther
        exact reached
  · intro reached
    obtain ⟨own, source, foundOwn, reachedSource, made⟩ := origin_of_node planned reached
    rw [foundOwn, distinct.at?_of_node reachedSource] at mirrors
    generalize plan.at? path = node? at mirrors ⊢
    cases mirrors with
    | some madeOther =>
        cases made.symm.trans madeOther
        rfl

end Request.Distinct

namespace Arena.Stores

/-- A path leads in the arena to the number of the node that it leads to in the request. -/
theorem nodeAt?_eq {arena : Arena} {node : Request} {base : Path} (stores : arena.Stores request)
    (found : request.at? base = some node) (path : Path) :
    arena.nodeAt? node.number path = (node.at? path).map Request.number := by
  induction path generalizing base node with
  | nil => rfl
  | cons name path hypothesis =>
      rw [nodeAt?, Request.at?, stores.findInclude?_eq found]
      cases foundChild : node.child? name with
      | none => rfl
      | some child => exact hypothesis (Request.at?_child found foundChild)

end Arena.Stores

/-- The plan of a scanned request has the outline of the request, in the same order at every node.
A path of names leads to a node in the request exactly if it leads to one in the plan; then it
leads to a filter, under which the plan of the node is exactly the one that is found. Every node
of the plan is found like that. In the arena of the request, where children are looked up by the
numbers of nodes, each path leads to the node of that number, and planning from there does the
same. -/
theorem mirrors_of_plan {scanning : ScanOptions} {text : String} {request : Request}
    (scanned : scan scanning text = .ok request) {planning : PlanOptions} {filter : Filter}
    {plan : Plan} (planned : request.plan planning filter = .ok plan) :
    plan.outline = request.outline ∧
      (∀ path, (request.at? path).isSome ↔ (plan.at? path).isSome) ∧
      (∀ path source, request.at? path = some source →
        ∃ own node, filter.at? path = some own ∧ plan.at? path = some node ∧
          source.plan planning own = .ok node) ∧
      (∀ path node, plan.Node path node ↔ plan.at? path = some node) ∧
      ∃ arena, scanArena scanning text = .ok arena ∧
        (arena.request? 0).map Request.outline = some plan.outline ∧
        (∀ path, (arena.nodeAt? 0 path).isSome ↔ (plan.at? path).isSome) ∧
        ∀ path id, arena.nodeAt? 0 path = some id →
          ∃ own node, filter.at? path = some own ∧ plan.at? path = some node ∧
            (filter.Obtained → Checked.planWithin planning arena arena.nodes.length own id =
              Checked.of (.ok node)) := by
  have isSome : ∀ path, (request.at? path).isSome ↔ (plan.at? path).isSome := by
    intro path
    have mirrors := mirrors_at? planned path
    generalize filter.at? path = own, request.at? path = source, plan.at? path = node at mirrors
    cases mirrors <;> simp
  have found : ∀ path source, request.at? path = some source →
      ∃ own node, filter.at? path = some own ∧ plan.at? path = some node ∧
        source.plan planning own = .ok node := by
    intro path source atSource
    have mirrors := mirrors_at? planned path
    rw [atSource] at mirrors
    generalize filter.at? path = own, plan.at? path = node at mirrors ⊢
    cases mirrors with
    | some made => exact ⟨_, _, rfl, rfl, made⟩
  have outline := outline_of_plan filter request planned
  refine ⟨outline, isSome, found,
    fun path node => ((distinct_of_scan scanned).at?_plan_eq_some_iff planned).symm, ?_⟩
  obtain ⟨arena, scannedArena, represents⟩ := exists_represents_of_scan scanned
  have stores := represents.stores
  have numbers : ∀ path, arena.nodeAt? 0 path = (request.at? path).map Request.number := by
    intro path
    have root : request.at? [] = some request := rfl
    rw [← stores.root]
    exact stores.nodeAt?_eq root path
  refine ⟨arena, scannedArena, by rw [represents.request?_root, outline]; rfl, ?_, ?_⟩
  · intro path
    rw [numbers, Option.isSome_map, isSome]
  · intro path id reached
    rw [numbers, Option.map_eq_some_iff] at reached
    obtain ⟨source, atSource, rfl⟩ := reached
    obtain ⟨own, node, atOwn, atNode, made⟩ := found path source atSource
    refine ⟨own, node, atOwn, atNode, ?_⟩
    intro obtained
    have ordered : ∀ below inner, own.at? below = some inner → inner.BoundsOrdered := by
      intro below inner reached
      have atInner : filter.at? (path ++ below) = some inner := by
        rw [Filter.at?_append, atOwn, Option.bind_some, reached]
      exact obtained.boundsOrdered atInner
    rw [← made]
    exact Checked.planWithin_eq_of planning stores represents.wellFormed.toLinked atSource ordered
      (Nat.le_add_right _ _)

/-- Posts, comments and users; each post and each comment has an author. -/
def Schema.threads : Schema where
  entities := [
    ("comments", {
      name := "comments"
      attributes := ["text"]
      relations := [⟨"author", .belongsTo, "users"⟩] }),
    ("posts", {
      name := "posts"
      attributes := ["title"]
      relations := [⟨"author", .belongsTo, "users"⟩, ⟨"comments", .hasMany, "comments"⟩] }),
    ("users", { name := "users", attributes := ["name"] })]

/-- What may be asked of posts: their authors, and their comments with theirs. -/
def Spec.threads : Spec where
  includes := [("author", {}), ("comments", { includes := [("author", {})] })]

/-- Authors are asked for of comments and of posts, in the order of the text. -/
theorem mirrors_of_plan_threads :
    ∃ filter request plan author, Filter.build .threads "posts" .threads = .ok filter ∧
      scan {} "includes=comments.author,author" = .ok request ∧
      request.plan {} filter = .ok plan ∧
      plan.outline = .node [("comments", .node [("author", .node [])]), ("author", .node [])] ∧
      plan.outline = request.outline ∧ plan.at? ["comments", "author"] = some author ∧
      plan.Node ["comments", "author"] author ∧
      ((request.at? ["author", "comments"]).isSome ↔ (plan.at? ["author", "comments"]).isSome) ∧
      ∃ arena, scanArena {} "includes=comments.author,author" = .ok arena ∧
        (arena.request? 0).map Request.outline = some plan.outline := by
  let noLimit : List Clause := [.skip, .order, .orderBy]
  let users : Filter := ⟨"users", ["name"], noLimit, [], {}, .none⟩
  let comments : Filter := ⟨"comments", ["text"], Clause.all, [("author", users)], {}, .none⟩
  let filter : Filter :=
    ⟨"posts", ["title"], Clause.all, [("author", users), ("comments", comments)], {}, .none⟩
  let request : Request :=
    ⟨0, "root", {}, [⟨1, "comments", {}, [⟨2, "author", {}, []⟩]⟩, ⟨3, "author", {}, []⟩]⟩
  let author : Plan := ⟨"users", ["name"], none, [], none, none, none, []⟩
  let plan : Plan :=
    ⟨"posts", ["title"], none,
      [("comments", ⟨"comments", ["text"], none, [("author", author)], none, none, none, []⟩),
        ("author", author)], none, none, none, []⟩
  have built : Filter.build .threads "posts" .threads = .ok filter := by rfl
  have scanned : scan {} "includes=comments.author,author" = .ok request := by cbv
  have planned : request.plan {} filter = .ok plan := by cbv
  have found : plan.at? ["comments", "author"] = some author := by rfl
  obtain ⟨outline, isSome, -, reached, arena, scannedArena, same, -⟩ :=
    mirrors_of_plan scanned planned
  exact ⟨filter, request, plan, author, built, scanned, planned, rfl, outline, found,
    (reached _ _).mpr found, isSome _, arena, scannedArena, same⟩

end QueryGate
