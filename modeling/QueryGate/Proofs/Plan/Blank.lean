import QueryGate.Proofs.Plan.Acceptance

/-!
# Requests that ask for nothing

The blank request asks for nothing that a filter could refuse. It has a plan under a filter that
was built, unless a value that the filter forces on a clause cannot be used: specifications are
not looked at for that. Such a value is an error of every request, and of the blank one it is the
only one.
-/

namespace QueryGate

/-- A forced value that the clause can be set to: a count for a limit or an offset, and for an
order what stands for one as a text. Any text can be a column. -/
def Clause.Bears (clause : Clause) (value : Json) : Prop :=
  clause.Takes value ∧ (clause = .order → RowOrder.IsWord (staticText value))

/-- The error of a forced value that the clause cannot be set to. -/
def Clause.refusal (clause : Clause) (value : Json) : PlanError :=
  match clause with
  | .limit | .skip => .invalidValue clause.name value.compact .notCount
  | .order | .orderBy => .invalidValue clause.name (staticText value) .unknownOrder

variable {filter : Filter} {clauses : Table Clause String} {paging : Paging}
  {options : PlanOptions}

/-! ## Forced values -/

namespace Paging

theorem applyStatic_eq_error {clause : Clause} {value : Json} (refused : ¬ clause.Takes value) :
    paging.applyStatic clause value = .error (clause.refusal value) := by
  cases clause with
  | limit | skip =>
      rw [Clause.Takes, ← staticCount?_isSome_iff, Option.not_isSome_iff_eq_none] at refused
      rw [applyStatic, staticNumber, refused]
      rfl
  | order | orderBy => exact absurd trivial refused

/-- The first forced value that its clause does not take is the error. -/
theorem foldlM_applyStatic_eq_error {before after : List (Clause × Json)} {row : Clause × Json}
    (taken : ∀ earlier ∈ before, earlier.1.Takes earlier.2) (refused : ¬ row.1.Takes row.2) :
    (before ++ row :: after).foldlM (fun paging row => applyStatic paging row.1 row.2) paging =
      .error (row.1.refusal row.2) := by
  have applied : (∃ last, before.foldlM (fun paging row => applyStatic paging row.1 row.2) paging =
      .ok last) ↔ ∀ earlier ∈ before, earlier.1.Takes earlier.2 := by
    apply exists_foldlM_eq_ok_iff
    intro earlier _ paging
    exact exists_applyStatic_iff
  obtain ⟨last, folded⟩ := applied.mpr taken
  rw [List.foldlM_append, folded]
  change (applyStatic last row.1 row.2 >>= _) = _
  rw [applyStatic_eq_error refused]
  rfl

/-- An order whose text is none is the error. -/
theorem rowOrder_eq_error {word : String} (ordered : paging.order = some word)
    (unknown : ¬ RowOrder.IsWord word) :
    paging.rowOrder options = .error (.invalidValue "order" word .unknownOrder) := by
  have unread : RowOrder.ofWord? options.aggregates (paging.orderBy.getD defaultColumn) word =
      none := by
    rwa [← Option.not_isSome_iff_eq_none, RowOrder.ofWord?_isSome_iff]
  simp [rowOrder, ordered, unread]

end Paging

/-! ## The blank request -/

/-- The request of the empty text. -/
theorem scan_empty (options : ScanOptions) :
    scan options "" = .ok (.blank 0 Request.rootName) := rfl

/-- A filter that accepts anything can set every clause to what it forces. -/
theorem Filter.Accepts.bears {node : Request} (accepts : filter.Accepts node)
    {row : Clause × Json} (member : row ∈ filter.statics.clauses) : row.1.Bears row.2 := by
  have forced := (Table.get?_eq_some_iff_mem filter.statics.clauses_sorted row.1 row.2).mpr member
  refine ⟨accepts.statics forced, ?_⟩
  intro isOrder
  rw [isOrder] at forced
  exact accepts.order _ (by rw [Filter.orderWord?, forced])

/-- The blank request is accepted where every clause can be set to what is forced. -/
theorem accepts_blank (given : filter.attributes ≠ [])
    (bears : ∀ row ∈ filter.statics.clauses, row.1.Bears row.2) (name : String) :
    filter.Accepts (.blank 0 name) where
  includes := fun _ member => nomatch member
  fields := fun _ member => nomatch member
  projection := .inr given
  functions := fun _ member => nomatch member
  clauses := fun _ asked => nomatch asked
  statics := fun forced => (bears _ (Table.mem_of_get? forced)).1
  order := by
    intro word ordered
    rw [Filter.orderWord?] at ordered
    split at ordered
    · rename_i value forced
      cases ordered
      exact (bears _ (Table.mem_of_get? forced)).2 rfl
    · simp [Request.blank] at ordered
  predicates := fun _ member => nomatch member

theorem exists_plan_blank_iff (counts : filter.BoundsCounts) (given : filter.attributes ≠ [])
    (name : String) : (∃ plan, (Request.blank 0 name).plan options filter = .ok plan) ↔
      ∀ row ∈ filter.statics.clauses, row.1.Bears row.2 := by
  rw [exists_plan_iff_children counts Terms.WellFormed.kept.empty]
  constructor
  · rintro ⟨accepts, -⟩ row member
    exact accepts.bears member
  · intro bears
    exact ⟨accepts_blank given bears name, fun _ member => nomatch member⟩

/-- The ordering of the blank request is in error as the first forced value that cannot be
used. -/
theorem rowOrder_blank_eq_error (counts : filter.BoundsCounts)
    {before after : List (Clause × Json)} {row : Clause × Json}
    (parts : filter.statics.clauses = before ++ row :: after)
    (bears : ∀ earlier ∈ before, earlier.1.Bears earlier.2) (refused : ¬ row.1.Bears row.2) :
    (Paging.ofClauses filter [] >>= fun paging => paging.rowOrder options) =
      .error (row.1.refusal row.2) := by
  obtain ⟨clause, value⟩ := row
  by_cases taken : clause.Takes value
  · -- The value is that of an order, behind which only a column can be forced.
    have unknown : clause = .order ∧ ¬ RowOrder.IsWord (staticText value) := by
      simpa [Clause.Bears, taken] using refused
    obtain ⟨rfl, unknown⟩ := unknown
    have sorted := filter.statics.clauses_sorted
    rw [parts] at sorted
    obtain ⟨-, sortedRest, -⟩ := List.pairwise_append.mp sorted
    have behind := (List.pairwise_cons.mp sortedRest).1
    have applied : ∃ paging, Paging.ofClauses filter [] = .ok paging := by
      refine (Paging.exists_ofClauses_iff counts).mpr ⟨by simp [Filter.heeded], ?_⟩
      intro other member
      rw [parts, List.mem_append, List.mem_cons] at member
      obtain member | rfl | member := member
      · exact (bears other member).1
      · exact taken
      · have later := behind other member
        obtain ⟨clause, forced⟩ := other
        cases clause with
        | limit | skip => cases later
        | order | orderBy => trivial
    obtain ⟨paging, made⟩ := applied
    have forced := (Table.get?_eq_some_iff_mem filter.statics.clauses_sorted .order value).mpr
      (by rw [parts]; exact List.mem_append_right _ List.mem_cons_self)
    rw [made]
    exact Paging.rowOrder_eq_error (Paging.order_of_forced made forced) unknown
  · have failed := @Paging.foldlM_applyStatic_eq_error {} before after (clause, value)
      (fun earlier member => (bears earlier member).1) taken
    rw [Paging.ofClauses, parts, List.foldlM_nil, pure_bind, failed]
    rfl

theorem plan_blank_eq_error (given : filter.attributes ≠ []) {error : PlanError}
    (failed : (Paging.ofClauses filter [] >>= fun paging => paging.rowOrder options) =
      .error error) (name : String) :
    (Request.blank 0 name).plan options filter = .error error := by
  have all : filter.attributes.find? (fun field => !filter.allowsAttribute field) = none := by
    simp [Filter.allowsAttribute_iff]
  have projected : filter.projection [] = .ok filter.attributes := by
    simp [Filter.projection, all, given]
  simp only [Request.blank, Request.plan, Filter.checkIncludes, projected, List.mapM_nil]
  obtain failed | ⟨paging, made, failed⟩ := bind_eq_error_iff.mp failed
  · rw [failed]
    rfl
  · rw [made]
    change (paging.rowOrder options >>= _) = _
    rw [failed]
    rfl

/-- Of a filter that was built and has attributes, the empty query has a plan, whatever the
options, exactly if each clause can be set to what is forced on it. Otherwise no query has one,
and the error of the empty query is that of the first forced value that cannot be used. -/
theorem plan_of_empty_query {schema : Schema} {name : String} {spec : Spec} {filter : Filter}
    (built : Filter.build schema name spec = .ok filter) (given : filter.attributes ≠ [])
    {scanning : ScanOptions} {request : Request} (scanned : scan scanning "" = .ok request)
    (planning : PlanOptions) :
    ((∃ plan, request.plan planning filter = .ok plan) ↔
      ∀ row ∈ spec.statics.clauses, row.1.Bears row.2) ∧
    ∀ before row after, spec.statics.clauses = before ++ row :: after →
      (∀ earlier ∈ before, earlier.1.Bears earlier.2) → ¬ row.1.Bears row.2 →
      request.plan planning filter = .error (row.1.refusal row.2) ∧
      ∀ other text asked style, scan other text = .ok asked →
        ∃ error, asked.plan style filter = .error error := by
  have counts : filter.BoundsCounts := Filter.boundsCounts_of_build built
  obtain ⟨entity, made⟩ := Filter.build_eq_ok_iff.mp built
  cases scanned.symm.trans (scan_empty scanning)
  rw [← made.statics]
  refine ⟨exists_plan_blank_iff counts given _, ?_⟩
  intro before row after parts bears refused
  refine ⟨plan_blank_eq_error given (rowOrder_blank_eq_error counts parts bears refused) _, ?_⟩
  intro other text asked style scannedAsked
  cases planned : asked.plan style filter with
  | error error => exact ⟨error, rfl⟩
  | ok plan =>
      have wellFormed := wellFormed_of_scan scannedAsked (.root asked)
      have accepts := ((exists_plan_iff_children counts wellFormed).mp ⟨plan, planned⟩).1
      have member : row ∈ filter.statics.clauses := by
        rw [parts]
        exact List.mem_append_right _ List.mem_cons_self
      exact absurd (accepts.bears member) refused

/-- Posts that are always ordered by a word in upper case, with a limit that is a numeral; and
posts with a limit that are ordered by a text that is no such word. -/
theorem plan_of_empty_query_posts :
    ∃ filter other request,
      Filter.build .blog "posts"
        { statics := .ofRows [] [(.order, .string "MAX-desc"), (.limit, .string "+07")] } =
          .ok filter ∧
      Filter.build .blog "posts"
        { statics := .ofRows [] [(.order, .string "sideways"), (.limit, .number (.int 7))] } =
          .ok other ∧
      filter.attributes ≠ [] ∧ other.attributes ≠ [] ∧ scan {} "" = .ok request ∧
      (∃ plan, request.plan { aggregates := .symmetric } filter = .ok plan) ∧
      request.plan {} other = .error (.invalidValue "order" "sideways" .unknownOrder) := by
  let useful : Spec :=
    { statics := .ofRows [] [(.order, .string "MAX-desc"), (.limit, .string "+07")] }
  let useless : Spec :=
    { statics := .ofRows [] [(.order, .string "sideways"), (.limit, .number (.int 7))] }
  obtain ⟨filter, built, given⟩ : ∃ filter, Filter.build .blog "posts" useful = .ok filter ∧
      filter.attributes ≠ [] := ⟨_, rfl, by decide⟩
  obtain ⟨other, builtOther, givenOther⟩ : ∃ other,
      Filter.build .blog "posts" useless = .ok other ∧ other.attributes ≠ [] :=
    ⟨_, rfl, by decide⟩
  obtain ⟨request, scanned⟩ : ∃ request, scan {} "" = .ok request := ⟨_, rfl⟩
  have limit : Clause.limit.Bears (.number (.int 7)) := ⟨.integer (by decide), nofun⟩
  have numeral : Clause.limit.Bears (.string "+07") := by
    have seven : Text.DenotesNat "+07".toList 7 := Text.natOfText?_eq_some_iff.mp (by cbv)
    exact ⟨.numeral seven (by decide), nofun⟩
  have order : Clause.order.Bears (.string "MAX-desc") := ⟨trivial, fun _ => by decide⟩
  have unknown : ¬ Clause.order.Bears (.string "sideways") :=
    fun bears => absurd (bears.2 rfl) (by decide)
  refine ⟨filter, other, request, built, builtOther, given, givenOther, scanned, ?_, ?_⟩
  · refine (plan_of_empty_query built given scanned _).1.mpr ?_
    have rows : useful.statics.clauses =
        [(.limit, .string "+07"), (.order, .string "MAX-desc")] := by rfl
    rw [rows, List.forall_mem_cons, List.forall_mem_singleton]
    exact ⟨numeral, order⟩
  · have rows : useless.statics.clauses =
        [(.limit, .number (.int 7))] ++ (.order, .string "sideways") :: [] := by rfl
    have first : ∀ earlier ∈ [(Clause.limit, Json.number (.int 7))],
        earlier.1.Bears earlier.2 := by
      rw [List.forall_mem_singleton]
      exact limit
    exact ((plan_of_empty_query builtOther givenOther scanned {}).2 _ _ _ rows first unknown).1

/-- A specification is accepted whose limit is no number, and the empty query fails for it. -/
theorem exists_build_without_plan :
    ∃ filter request, Filter.build ⟨[("posts", { name := "posts", attributes := ["id"] })]⟩ "posts"
        { statics := .ofRows [] [(.limit, .string "abc")] } = .ok filter ∧
      filter.attributes ≠ [] ∧ scan {} "" = .ok request ∧
      request.plan {} filter = .error (.invalidValue "limit" "\"abc\"" .notCount) := by
  exact ⟨_, _, rfl, by decide, rfl, by cbv⟩

end QueryGate
