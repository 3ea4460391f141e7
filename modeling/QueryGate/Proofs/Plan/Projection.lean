import QueryGate.Proofs.Arena.Filled
import QueryGate.Proofs.Filter.Fits
import QueryGate.Proofs.Plan.Node

/-!
# Repeats in projections

A projection is the list of fields that a client asks for, or the one that a specification
permits, or all attributes of an entity. The first two lose their repeats on the way into a plan
and the last does not. So no field stands twice in a projection, except where neither a client
nor a specification lists any and the entity's own attributes have repeats.
-/

namespace QueryGate

/-- The specification for the end of a path of relations, and the entity that it is for. -/
def Spec.at? (schema : Schema) : (name : String) → Spec → Path → Option (Spec × Entity)
  | name, spec, [] => (schema.entity? name).map fun entity => (spec, entity)
  | name, spec, relation :: path => do
      let entity ← schema.entity? name
      let declared ← entity.relation? relation
      let child ← Table.get? spec.includes relation
      Spec.at? schema declared.target child path

/-- What a filter is obtained from: a specification for an entity of a schema, or an entity. -/
inductive Filter.Origin where
  | build (schema : Schema) (name : String) (spec : Spec)
  | ofEntity (entity : Entity)

namespace Filter.Origin

/-- The filter that is obtained. -/
def filter : Origin → Except ConfigError Filter
  | build schema name spec => Filter.build schema name spec
  | ofEntity entity => .ok (.ofEntity entity)

/-- The attributes that are listed for the end of a path of relations, if any are, and the entity
that is found there. -/
def at? : Origin → Path → Option (Option (List String) × Entity)
  | build schema name spec, path =>
      (spec.at? schema name path).map fun (own, entity) => (own.attributes, entity)
  | ofEntity entity, [] => some (none, entity)
  | ofEntity _, _ :: _ => none

end Filter.Origin

namespace Filter

variable {schema : Schema} {name : String} {spec : Spec} {entity : Entity} {filter own : Filter}
  {path : Path}

/-- A relation that a filter includes is one that its specification includes, with the filter
that was built of what this one says. -/
theorem BuiltAs.exists_of_include? (made : filter.BuiltAs schema name spec entity)
    {relation : String} {child : Filter} (available : filter.include? relation = some child) :
    ∃ childSpec declared inner, Table.get? spec.includes relation = some childSpec ∧
      entity.relation? relation = some declared ∧
      build schema declared.target childSpec = .ok inner ∧
      child = inner.serving declared.cardinality.isSingular := by
  have pairs := buildIncludes_eq_ok_iff.mp made.children
  have keys : Table.keys filter.includes = Table.keys spec.includes :=
    map_eq_map_of_pairs (pairs.imp fun _ _ pair => pair.1)
  have listed : relation ∈ Table.keys spec.includes := by
    rw [← keys, ← isSome_include?_iff, available]
    rfl
  obtain ⟨childSpec, given⟩ := Option.isSome_iff_exists.mp (Table.isSome_get?_iff.mpr listed)
  obtain ⟨declared, inner, known, built, rfl⟩ := Table.related_of_pairs pairs given available
  exact ⟨childSpec, declared, inner, given, known, built, rfl⟩

/-- The attributes of every filter that is reached are those that its specification permits. -/
theorem exists_spec_of_at? (built : build schema name spec = .ok filter)
    (found : filter.at? path = some own) :
    ∃ ownSpec entity, spec.at? schema name path = some (ownSpec, entity) ∧
      own.attributes = permittedAttributes ownSpec entity := by
  induction path generalizing name spec filter with
  | nil =>
      cases found
      obtain ⟨entity, made⟩ := build_eq_ok_iff.mp built
      exact ⟨spec, entity, by rw [Spec.at?, made.found]; rfl, made.attributes⟩
  | cons relation path hypothesis =>
      rw [at?, Option.bind_eq_some_iff] at found
      obtain ⟨child, available, found⟩ := found
      obtain ⟨entity, made⟩ := build_eq_ok_iff.mp built
      obtain ⟨childSpec, declared, inner, given, known, builtInner, rfl⟩ :=
        made.exists_of_include? available
      have step : spec.at? schema name (relation :: path) =
          childSpec.at? schema declared.target path := by
        rw [Spec.at?, made.found, Option.bind_eq_bind, Option.bind_some, known,
          Option.bind_eq_bind, Option.bind_some, given, Option.bind_eq_bind, Option.bind_some]
      rw [step]
      cases path with
      | nil =>
          cases found
          obtain ⟨target, parts⟩ := build_eq_ok_iff.mp builtInner
          refine ⟨childSpec, target, by rw [Spec.at?, parts.found]; rfl, ?_⟩
          rw [attributes_serving, parts.attributes]
      | cons next path =>
          apply hypothesis builtInner
          rw [← found, at?, at?, include?, include?, includes_serving]

theorem exists_origin_of_at? {origin : Origin} (obtained : origin.filter = .ok filter)
    (found : filter.at? path = some own) :
    ∃ listed entity, origin.at? path = some (listed, entity) ∧
      own.attributes = (listed.map List.eraseDups).getD entity.attributes := by
  cases origin with
  | build schema name spec =>
      obtain ⟨ownSpec, entity, reached, same⟩ := exists_spec_of_at? obtained found
      refine ⟨ownSpec.attributes, entity, by rw [Origin.at?, reached]; rfl, ?_⟩
      rw [same, permittedAttributes]
      cases ownSpec.attributes <;> rfl
  | ofEntity entity =>
      cases obtained
      cases path with
      | nil =>
          cases found
          exact ⟨none, entity, rfl, rfl⟩
      | cons relation path => cases found

theorem eq_of_projection {fields projection : List String}
    (projected : filter.projection fields = .ok projection) :
    projection = if fields = [] then filter.attributes else fields := by
  simp only [Filter.projection, List.isEmpty_iff] at projected
  generalize (if fields = [] then filter.attributes else fields) = chosen at projected ⊢
  split at projected
  · cases projected
  · split at projected
    · cases projected
    · exact (Except.ok.inj projected).symm

end Filter

/-- Of the steps of a scan only a list of fields changes the fields, and it loses its repeats. -/
theorem Terms.nodup_fields_kept : Terms.Kept fun terms => terms.fields.Nodup where
  empty := .nil
  clause := fun _ distinct _ => distinct
  fields := fun _ read => (isName_of_readFields read).2
  functions := fun distinct _ => distinct
  literal := fun _ _ distinct => distinct
  value := fun _ distinct _ => distinct
  group := fun distinct _ => distinct

/-- The fields of every node of a plan are those that the client asks for, or else those of the
specification's list without repeats, or else all attributes of the entity. They are distinct
except where neither the client nor a specification lists any and the entity's own repeat. -/
theorem nodup_projection_iff {origin : Filter.Origin} {filter : Filter}
    (obtained : origin.filter = .ok filter) {scanning : ScanOptions} {text : String}
    {request : Request} (scanned : scan scanning text = .ok request) {planning : PlanOptions}
    {plan : Plan} (planned : request.plan planning filter = .ok plan) {path : Path} {node : Plan}
    (reached : plan.Node path node) :
    ∃ source listed entity, request.at? path = some source ∧
      origin.at? path = some (listed, entity) ∧
      node.projection =
        (if source.terms.fields = [] then (listed.map List.eraseDups).getD entity.attributes
        else source.terms.fields) ∧
      (node.projection.Nodup ↔
        source.terms.fields ≠ [] ∨ listed.isSome ∨ entity.attributes.Nodup) := by
  obtain ⟨own, source, found, reachedSource, made⟩ := origin_of_node planned reached
  obtain ⟨listed, entity, foundOrigin, permitted⟩ := Filter.exists_origin_of_at? obtained found
  have projection := Filter.eq_of_projection (plan_eq_ok_iff.mp made).projection
  rw [permitted] at projection
  have asked : source.terms.fields.Nodup :=
    ((scan_every Terms.nodup_fields_kept scanned).at_node reachedSource).terms
  refine ⟨source, listed, entity, (distinct_of_scan scanned).at?_of_node reachedSource,
    foundOrigin, projection, ?_⟩
  rw [projection]
  split
  · rename_i none
    cases listed with
    | none => simp [none]
    | some names => simpa using nodup_eraseDups names
  · rename_i some
    simpa [some] using asked

/-- A query that asks for the name of an author twice. -/
theorem nodup_projection_iff_author :
    ∃ filter request plan author, Filter.build .blog "posts" .posts = .ok filter ∧
      scan {} "includes=author(fields=name,name)" = .ok request ∧
      request.plan {} filter = .ok plan ∧ plan.Node ["author"] author ∧
      author.projection = ["name"] ∧
      ∃ source listed entity, request.at? ["author"] = some source ∧
        (Filter.Origin.build .blog "posts" .posts).at? ["author"] = some (listed, entity) ∧
        author.projection =
          (if source.terms.fields = [] then (listed.map List.eraseDups).getD entity.attributes
          else source.terms.fields) ∧
        (author.projection.Nodup ↔
          source.terms.fields ≠ [] ∨ listed.isSome ∨ entity.attributes.Nodup) := by
  let bounded : Bounds := { clauses := [(.limit, ⟨1, 5⟩)] }
  let filter : Filter :=
    ⟨"posts", ["title", "id"], Clause.all,
      [("author", ⟨"users", ["id", "name"], [.skip, .order, .orderBy], [], {}, .none⟩),
        ("comments", ⟨"comments", ["id", "text"], Clause.all, [], bounded, .none⟩)], {}, .none⟩
  let request : Request :=
    ⟨0, "root", {}, [⟨1, "author", { fields := ["name"] }, []⟩]⟩
  let author : Plan := ⟨"users", ["name"], none, [], none, none, none, []⟩
  let plan : Plan := ⟨"posts", ["title", "id"], none, [("author", author)], none, none, none, []⟩
  have built : (Filter.Origin.build .blog "posts" .posts).filter = .ok filter := by rfl
  have scanned : scan {} "includes=author(fields=name,name)" = .ok request := by cbv
  have planned : request.plan {} filter = .ok plan := by cbv
  have reached : plan.Node ["author"] author := .child List.mem_cons_self (.root author)
  exact ⟨filter, request, plan, author, built, scanned, planned, reached, rfl,
    nodup_projection_iff built scanned planned reached⟩

/-- An entity that has one attribute twice is projected to it twice, by the default filter and by
the filter of a specification that lists no attributes. -/
theorem not_nodup_projection :
    ∃ (entity : Entity) (request : Request) (plan : Plan) (filter : Filter) (built : Plan),
      scan {} "" = .ok request ∧
      request.plan {} (.ofEntity entity) = .ok plan ∧ plan.projection = ["id", "id"] ∧
      ¬plan.projection.Nodup ∧
      Filter.build (Schema.insert {} entity) entity.name {} = .ok filter ∧
      request.plan {} filter = .ok built ∧ ¬built.projection.Nodup := by
  let entity : Entity := { name := "posts", attributes := ["id", "id"] }
  let filter : Filter := ⟨"posts", ["id", "id"], Clause.all, [], {}, .none⟩
  have scanned : scan {} "" = .ok ⟨0, "root", {}, []⟩ := by cbv
  have planned : Request.plan {} (.ofEntity entity) ⟨0, "root", {}, []⟩ =
      .ok ⟨"posts", ["id", "id"], none, [], none, some 3, none, []⟩ := by cbv
  have built : Filter.build (Schema.insert {} entity) "posts" {} = .ok filter := by cbv
  have plannedBuilt : Request.plan {} filter ⟨0, "root", {}, []⟩ =
      .ok ⟨"posts", ["id", "id"], none, [], none, none, none, []⟩ := by cbv
  exact ⟨entity, _, _, filter, _, scanned, planned, rfl, by decide, built, plannedBuilt, by decide⟩

end QueryGate
