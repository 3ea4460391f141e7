import Mathlib
import QueryGate.Config.Reader
import QueryGate.Gate
import QueryGate.Proofs.Filter.Build

/-!
# The entities that plans are for

An entity is found under a key of the schema and may state a name of its own. A filter that is
specified is for the key, the default filter is for the stated name. A plan is therefore for the
entity that was asked for exactly if that entity has a specification or states no other name.
What a plan includes is for the target of its relation in any case.
-/

namespace QueryGate

/-! ### The filters of a configuration -/

namespace Config

variable {config : Config} {schema : Schema} {name : String} {filter : Filter}
  {filters : Table String Filter}

/-- The specifications and no others have filters. -/
theorem get?_buildSpecs {specs : Table String Spec}
    (built : buildSpecs schema specs = .ok filters) :
    Table.get? filters name = some filter ↔
      ∃ spec, Table.get? specs name = some spec ∧ Filter.build schema name spec = .ok filter := by
  induction specs generalizing filters with
  | nil =>
      cases built
      simp
  | cons row rest hypothesis =>
      rcases row with ⟨key, spec⟩
      simp only [buildSpecs, bind_eq_ok_iff, pure_eq_ok_iff] at built
      rcases built with ⟨first, builtFirst, others, builtOthers, rfl⟩
      rw [Table.get?_cons, Table.get?_cons]
      by_cases same : name = key
      · subst same
        simp [builtFirst]
      · simp [same, hypothesis builtOthers]

theorem keys_of_buildSpecs {specs : Table String Spec}
    (built : buildSpecs schema specs = .ok filters) : Table.keys filters = Table.keys specs := by
  induction specs generalizing filters with
  | nil =>
      cases built
      rfl
  | cons row rest hypothesis =>
      simp only [buildSpecs, bind_eq_ok_iff, pure_eq_ok_iff] at built
      rcases built with ⟨first, _, others, builtOthers, rfl⟩
      have same := hypothesis builtOthers
      simp only [Table.keys, List.map_cons] at same ⊢
      rw [same]

/-- Where there is no filter yet, the default one of the entity is added. -/
theorem get?_addDefaults (schema : Schema) (filters : Table String Filter) (name : String) :
    Table.get? (addDefaults schema filters) name =
      (Table.get? filters name).or ((schema.entity? name).map Filter.ofEntity) := by
  rcases schema with ⟨entities⟩
  rw [addDefaults, Schema.entity?]
  induction entities generalizing filters with
  | nil => simp
  | cons row rest hypothesis =>
      rcases row with ⟨key, entity⟩
      rw [List.foldl_cons, hypothesis, Table.get?_cons]
      by_cases same : name = key
      · subst same
        cases given : Table.get? filters name with
        | none => simp [given, Table.get?_insert]
        | some own => simp [given]
      · cases given : Table.get? filters key with
        | none => simp [given, Table.get?_insert, same]
        | some own => simp [given, same]

/-- An entity has the filter of its specification, or else the default one. -/
theorem get?_buildFilters (built : config.buildFilters = .ok filters) :
    Table.get? filters name = some filter ↔
      (∃ spec, Table.get? config.filters name = some spec ∧
        Filter.build config.schema name spec = .ok filter) ∨
      Table.get? config.filters name = none ∧
        ∃ entity, config.schema.entity? name = some entity ∧ Filter.ofEntity entity = filter := by
  rcases map_eq_ok_iff.mp built with ⟨specified, builtSpecs, rfl⟩
  rw [get?_addDefaults, Option.or_eq_some_iff, get?_buildSpecs builtSpecs, Option.map_eq_some_iff]
  have absent : Table.get? specified name = none ↔ Table.get? config.filters name = none := by
    rw [← Option.not_isSome_iff_eq_none, ← Option.not_isSome_iff_eq_none, Table.isSome_get?_iff,
      Table.isSome_get?_iff, keys_of_buildSpecs builtSpecs]
  rw [absent]

end Config

/-- Under each key there is the same entity, with a name filled in if it states none. -/
theorem Schema.entity?_fillNames (schema : Schema) (name : String) :
    schema.fillNames.entity? name = (schema.entity? name).map fun entity =>
      if entity.name.isEmpty then { entity with name := name } else entity := by
  rcases schema with ⟨entities⟩
  rw [fillNames, entity?, entity?]
  induction entities with
  | nil => rfl
  | cons row rest hypothesis =>
      rcases row with ⟨key, entity⟩
      rw [List.map_cons, Table.get?_cons, Table.get?_cons]
      by_cases same : name = key
      · simp [same]
      · simpa [same] using hypothesis

/-! ### Plans of a configuration -/

/-- An entity goes by the name under which it is found, unless it has no specification and states
another name. -/
def Config.GoesByKey (config : Config) (name : String) : Prop :=
  (Table.get? config.filters name).isSome ∨
    ∀ entity, config.schema.entity? name = some entity → entity.name = "" ∨ entity.name = name

/-- At each node of a plan, what is included is for the target that the schema gives for the
relation. -/
def Plan.FollowsRelations (schema : Schema) (plan : Plan) : Prop :=
  ∀ path node, plan.Node path node → ∀ relation child, (relation, child) ∈ node.includes →
    ∃ entity declared, schema.entity? node.entity = some entity ∧
      entity.relation? relation = some declared ∧ child.entity = declared.target

section Plan

variable {options : PlanOptions} {schema : Schema} {request : Request} {plan : Plan}

theorem followsRelations_of_build {name : String} {spec : Spec} {filter : Filter}
    (built : Filter.build schema name spec = .ok filter)
    (planned : request.plan options filter = .ok plan) : plan.FollowsRelations schema := by
  intro path node reached relation child included
  rcases origin_of_node planned reached with ⟨own, source, found, _, made⟩
  have parts := plan_eq_ok_iff.mp made
  rcases exists_of_mem_planIncludes parts.children included with
    ⟨_, _, _, childFilter, available, plannedChild⟩
  rcases Filter.exists_build_of_include? built found available with
    ⟨entity, declared, spec, inner, ownEntity, known, builtInner, rfl⟩
  rcases Filter.build_eq_ok_iff.mp builtInner with ⟨_, innerParts⟩
  refine ⟨entity, declared, ?_, known, ?_⟩
  · rw [parts.entity]
    exact ownEntity
  · rw [(plan_eq_ok_iff.mp plannedChild).entity, Filter.entity_serving, innerParts.entity]

/-- The default filter permits no relations. -/
theorem followsRelations_of_ofEntity {entity : Entity}
    (planned : request.plan options (.ofEntity entity) = .ok plan) :
    plan.FollowsRelations schema := by
  intro path node reached relation child included
  rcases origin_of_node planned reached with ⟨own, source, found, _, made⟩
  rcases exists_of_mem_planIncludes (plan_eq_ok_iff.mp made).children included with
    ⟨_, _, _, childFilter, available, _⟩
  cases path with
  | nil =>
      cases found
      cases available
  | cons step path => cases found

end Plan

theorem Config.exists_of_ofText {text : String} {config : Config}
    (read : Config.ofText text = .ok config) :
    ∃ stated, (Written.read? text).bind (Config.decode Written.maxNesting) = some stated ∧
      config = stated.fillNames := by
  rw [ofText] at read
  split at read
  · rename_i stated decoded
    cases read
    exact ⟨stated, decoded, rfl⟩
  · cases read

theorem Gate.exists_of_plan {gate : Gate} {entity raw : String} {plan : Plan}
    (planned : gate.plan entity raw = .ok plan) :
    ∃ filter, ∃ request : Request, gate.filter? entity = some filter ∧
      request.plan gate.planning filter = .ok plan := by
  rw [Gate.plan] at planned
  split at planned
  · cases planned
  · rename_i filter found
    rcases bind_eq_ok_iff.mp planned with ⟨request, _, made⟩
    refine ⟨filter, request, found, ?_⟩
    cases result : request.plan gate.planning filter with
    | error fault =>
        rw [result] at made
        cases made
    | ok other =>
        rw [result] at made
        cases made
        rfl

/-- A plan is for the entity that was asked for exactly if that entity goes by its key, and what
is included in the plan is for the targets of its relations. -/
theorem entity_eq_iff_of_plan {text : String} {config : Config}
    (read : Config.ofText text = .ok config) {gate : Gate}
    (opened : Gate.ofConfig config = .ok gate) {entity raw : String} {plan : Plan}
    (planned : gate.plan entity raw = .ok plan) :
    ∃ stated, (Written.read? text).bind (Config.decode Written.maxNesting) = some stated ∧
      (plan.entity = entity ↔ stated.GoesByKey entity) ∧ plan.FollowsRelations config.schema := by
  rcases Config.exists_of_ofText read with ⟨stated, decoded, rfl⟩
  rcases map_eq_ok_iff.mp opened with ⟨filters, built, rfl⟩
  rcases Gate.exists_of_plan planned with ⟨filter, request, found, made⟩
  refine ⟨stated, decoded, ?_⟩
  rw [(plan_eq_ok_iff.mp made).entity]
  rcases (Config.get?_buildFilters built).mp found with
    ⟨spec, given, builtFilter⟩ | ⟨absent, record, known, rfl⟩
  · rcases Filter.build_eq_ok_iff.mp builtFilter with ⟨_, parts⟩
    have specified : Table.get? stated.filters entity = some spec := given
    exact ⟨iff_of_true parts.entity (.inl (by rw [specified]; rfl)),
      followsRelations_of_build builtFilter made⟩
  · refine ⟨?_, followsRelations_of_ofEntity made⟩
    have unspecified : Table.get? stated.filters entity = none := absent
    have filled : stated.schema.fillNames.entity? entity = some record := known
    rw [Schema.entity?_fillNames, Option.map_eq_some_iff] at filled
    rcases filled with ⟨source, sourceFound, rfl⟩
    rw [Config.GoesByKey, unspecified, sourceFound]
    by_cases unnamed : source.name = ""
    · simp [Filter.ofEntity, unnamed]
    · simp [Filter.ofEntity, unnamed]

/-- Posts and their remarks, which are comments. -/
def Config.remarks : Config where
  schema := ⟨[
    ("comments", { name := "comments", attributes := ["text"] }),
    ("posts", {
      name := "posts"
      attributes := ["id"]
      relations := [⟨"remarks", .hasMany, "comments"⟩] })]⟩
  filters := [("posts", { includes := [("remarks", {})] })]

/-- Posts and their remarks as they are written. -/
def Config.remarksText : String :=
  "\x7b\"schema\":[\x7b\"comments\":\x7b\"attributes\":[\"text\"]\x7d,\"posts\":\x7b" ++
  "\"attributes\":[\"id\"],\"relations\":[[\"remarks\",\"has_many\",\"comments\"]]\x7d\x7d]," ++
  "\"filters\":\x7b\"posts\":\x7b\"includes\":\x7b\"remarks\":[]\x7d\x7d\x7d\x7d"

/-- The gate of posts and their remarks. -/
def Gate.remarks : Gate where
  filters := [
    ("comments",
      ⟨"comments", ["text"], Clause.all, [], { clauses := [(.limit, ⟨1, 3⟩)] }, .none⟩),
    ("posts",
      ⟨"posts", ["id"], Clause.all,
        [("remarks", ⟨"comments", ["text"], Clause.all, [], {}, .none⟩)], {}, .none⟩)]

theorem entity_eq_iff_of_plan_remarks :
    ∃ plan remarks, Config.ofText Config.remarksText = .ok .remarks ∧
      Gate.ofConfig .remarks = .ok .remarks ∧
      Gate.remarks.plan "posts" "includes=remarks" = .ok plan ∧
      plan.includes = [("remarks", remarks)] ∧ remarks.entity = "comments" ∧
      ∃ stated,
        (Written.read? Config.remarksText).bind (Config.decode Written.maxNesting) = some stated ∧
        (plan.entity = "posts" ↔ stated.GoesByKey "posts") ∧
        plan.FollowsRelations Config.remarks.schema := by
  let remarks : Plan := ⟨"comments", ["text"], none, [], none, none, none, []⟩
  let plan : Plan := ⟨"posts", ["id"], none, [("remarks", remarks)], none, none, none, []⟩
  have opened : Gate.ofConfig .remarks = .ok .remarks := by cbv
  have planned : Gate.remarks.plan "posts" "includes=remarks" = .ok plan := by cbv
  have read : Config.ofText Config.remarksText = .ok .remarks := by cbv
  exact ⟨plan, remarks, read, opened, planned, rfl, rfl, entity_eq_iff_of_plan read opened planned⟩

/-- Articles that are kept under the key of posts, as they are written. -/
def Config.articlesText : String :=
  "\x7b\"schema\":\x7b\"entities\":\x7b\"posts\":" ++
  "\x7b\"name\":\"articles\",\"attributes\":[\"id\"]\x7d\x7d\x7d\x7d"

/-- An entity that states another name than its key is planned for under that name. -/
theorem entity_ne_of_stated_name :
    ∃ config gate plan, Config.ofText Config.articlesText = .ok config ∧
      Gate.ofConfig config = .ok gate ∧ gate.plan "posts" "" = .ok plan ∧
      plan.entity ≠ "posts" := by
  let posts : Entity := { name := "articles", attributes := ["id"] }
  let gate : Gate := { filters := [("posts", .ofEntity posts)] }
  let plan : Plan := ⟨"articles", ["id"], none, [], none, some 3, none, []⟩
  have opened : Gate.ofConfig { schema := ⟨[("posts", posts)]⟩ } = .ok gate := by cbv
  have planned : gate.plan "posts" "" = .ok plan := by cbv
  have read : Config.ofText Config.articlesText = .ok { schema := ⟨[("posts", posts)]⟩ } := by cbv
  exact ⟨_, gate, plan, read, opened, planned, by decide⟩

end QueryGate
