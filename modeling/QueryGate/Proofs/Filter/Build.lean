import QueryGate.Proofs.Plan.Node

/-!
# What building a filter establishes

A filter is built of the filters of its includes, some of which lose their limit.
What building establishes of a filter's own rows therefore holds of every filter that
is reached from it by relations.
-/

namespace QueryGate

/-- What a specification says about an entity itself: it names attributes that the entity
has, and its bounds contain integers, those on clauses no negative one. -/
structure Spec.FitsEntity (spec : Spec) (entity : Entity) : Prop where
  attributes : ∀ names, spec.attributes = some names → ∀ name ∈ names, name ∈ entity.attributes
  bounded : ∀ row ∈ spec.bounds.attributes, row.1 ∈ entity.attributes ∧ row.2.min ≤ row.2.max
  clauses : ∀ row ∈ spec.bounds.clauses, 0 ≤ row.2.min ∧ row.2.min ≤ row.2.max
  forced : ∀ row ∈ spec.statics.attributes, row.1 ∈ entity.attributes

/-- Whether a clause is of use: a limit is not where there is at most one row. -/
def Clause.serves (singular : Bool) (clause : Clause) : Bool :=
  !singular || clause != .limit

namespace Filter

variable {schema : Schema} {name : String} {spec : Spec} {entity : Entity} {filter : Filter}

/-- A filter comes from a specification that fits a schema, or from an entity alone. -/
inductive Obtained : Filter → Prop where
  | build {schema : Schema} {name : String} {spec : Spec} {filter : Filter} :
      Filter.build schema name spec = .ok filter → Obtained filter
  | ofEntity (entity : Entity) : Obtained (.ofEntity entity)

/-- Each bound on a clause contains a number, and no negative one. -/
def BoundsCounts (filter : Filter) : Prop :=
  ∀ {clause bound}, filter.clauseBound? clause = some bound →
    0 ≤ bound.min ∧ bound.min ≤ bound.max

/-- Each bound contains a number. -/
structure BoundsOrdered (filter : Filter) : Prop where
  clauses : ∀ {clause bound}, filter.clauseBound? clause = some bound → bound.min ≤ bound.max
  attributes : ∀ {name bound}, filter.attributeBound? name = some bound → bound.min ≤ bound.max

/-! ## Checks -/

theorem checkAttribute_eq_ok_iff :
    checkAttribute entity name = .ok () ↔ name ∈ entity.attributes := by
  rw [checkAttribute, Entity.hasAttribute]
  split
  · simp_all
  · simp_all

theorem checkBound_eq_ok_iff {bounded : String} {bound : Bound} {allowNegative : Bool} :
    checkBound name bounded bound allowNegative = .ok () ↔
      (allowNegative = true ∨ 0 ≤ bound.min) ∧ bound.min ≤ bound.max := by
  rw [checkBound]
  split
  · rename_i above
    simp only [reduceCtorEq, false_iff]
    omega
  · split
    · rename_i negative
      simp only [Bool.and_eq_true, Bool.not_eq_true', decide_eq_true_eq] at negative
      simp only [reduceCtorEq, false_iff, negative.1, Bool.false_eq_true, false_or]
      omega
    · rename_i counted
      simp only [Bool.and_eq_true, Bool.not_eq_true', decide_eq_true_eq, not_and] at counted
      simp only [true_iff]
      cases allowNegative with
      | false =>
          have natural := counted rfl
          omega
      | true => exact ⟨.inl rfl, by omega⟩

theorem checkOwn_eq_ok_iff : checkOwn name spec entity = .ok () ↔ spec.FitsEntity entity := by
  simp only [checkOwn, bind_eq_ok_iff, forM_eq_ok_iff, checkAttribute_eq_ok_iff]
  constructor
  · rintro ⟨_, named, _, bounded, _, clauses, forced⟩
    refine ⟨?_, ?_, ?_, forced⟩
    · intro names given named' member
      have listed : named' ∈ spec.attributes.getD [] := by rw [given]; exact member
      exact checkAttribute_eq_ok_iff.mp (forM_eq_ok_iff.mp named named' listed)
    · intro row member
      rcases bind_eq_ok_iff.mp (forM_eq_ok_iff.mp bounded row member) with ⟨_, known, contains⟩
      exact ⟨checkAttribute_eq_ok_iff.mp known, (checkBound_eq_ok_iff.mp contains).2⟩
    · intro row member
      simpa using checkBound_eq_ok_iff.mp (forM_eq_ok_iff.mp clauses row member)
  · intro fits
    refine ⟨(), forM_eq_ok_iff.mpr ?_, (), forM_eq_ok_iff.mpr ?_, (), forM_eq_ok_iff.mpr ?_,
      fits.forced⟩
    · intro named member
      cases given : spec.attributes with
      | none => simp [given] at member
      | some names =>
          rw [given] at member
          exact checkAttribute_eq_ok_iff.mpr (fits.attributes names given named member)
    · intro row member
      have bounded := fits.bounded row member
      exact bind_eq_ok_iff.mpr ⟨(), checkAttribute_eq_ok_iff.mpr bounded.1,
        checkBound_eq_ok_iff.mpr ⟨.inl rfl, bounded.2⟩⟩
    · intro row member
      have counts := fits.clauses row member
      exact checkBound_eq_ok_iff.mpr ⟨.inr counts.1, counts.2⟩

/-! ## Parts of a filter -/

/-- What makes a filter the one that is built of a specification, part by part. -/
structure BuiltAs (schema : Schema) (name : String) (spec : Spec) (source : Entity)
    (filter : Filter) : Prop where
  found : schema.entity? name = some source
  checked : checkOwn name spec source = .ok ()
  children : buildIncludes schema name source spec.includes = .ok filter.includes
  entity : filter.entity = name
  attributes : filter.attributes = permittedAttributes spec source
  clauses : filter.clauses = permittedClauses spec
  bounds : filter.bounds = spec.bounds
  statics : filter.statics = spec.statics

/-- A filter can be built exactly when each part of it can be made. -/
theorem build_eq_ok_iff :
    build schema name spec = .ok filter ↔ ∃ entity, filter.BuiltAs schema name spec entity := by
  rcases spec with ⟨attributes, clauses, includes, bounds, statics⟩
  rw [build]
  constructor
  · intro built
    split at built
    · cases built
    · rename_i entity found
      simp only [bind_eq_ok_iff, pure_eq_ok_iff] at built
      rcases built with ⟨_, checked, children, builtChildren, rfl⟩
      exact ⟨entity, found, checked, builtChildren, rfl, rfl, rfl, rfl, rfl⟩
  · rintro ⟨entity, made⟩
    simp only [made.found, bind_eq_ok_iff, pure_eq_ok_iff]
    refine ⟨(), made.checked, filter.includes, made.children, ?_⟩
    rcases filter with ⟨_, _, _, _, _, _⟩
    rw [Filter.mk.injEq]
    exact ⟨made.entity.symm, made.attributes.symm, made.clauses.symm, rfl, made.bounds.symm,
      made.statics.symm⟩

/-- A filter as it serves a relation: it keeps its limit only where there can be many rows. -/
def serving (filter : Filter) (singular : Bool) : Filter :=
  if singular then filter.withoutLimit else filter

section Serving

variable (singular : Bool)

@[simp] theorem entity_serving : (filter.serving singular).entity = filter.entity := by
  cases singular <;> rfl

@[simp] theorem attributes_serving : (filter.serving singular).attributes = filter.attributes := by
  cases singular <;> rfl

@[simp] theorem includes_serving : (filter.serving singular).includes = filter.includes := by
  cases singular <;> rfl

@[simp] theorem boundsAttributes_serving :
    (filter.serving singular).bounds.attributes = filter.bounds.attributes := by
  cases singular <;> rfl

@[simp] theorem staticsAttributes_serving :
    (filter.serving singular).statics.attributes = filter.statics.attributes := by
  cases singular <;> rfl

@[simp] theorem clauses_serving :
    (filter.serving singular).clauses = filter.clauses.filter (Clause.serves singular) := by
  cases singular with
  | false => exact (List.filter_eq_self.mpr fun _ _ => rfl).symm
  | true => rfl

@[simp] theorem boundsClauses_serving : (filter.serving singular).bounds.clauses =
    filter.bounds.clauses.filter fun row => row.1.serves singular := by
  cases singular with
  | false => exact (List.filter_eq_self.mpr fun _ _ => rfl).symm
  | true => rfl

@[simp] theorem staticsClauses_serving : (filter.serving singular).statics.clauses =
    filter.statics.clauses.filter fun row => row.1.serves singular := by
  cases singular with
  | false => exact (List.filter_eq_self.mpr fun _ _ => rfl).symm
  | true => rfl

end Serving

/-- Includes are built one by one, each for the target of its relation. -/
theorem buildIncludes_eq_ok_iff {specs : List (String × Spec)}
    {children : List (String × Filter)} :
    buildIncludes schema name entity specs = .ok children ↔
      List.Forall₂ (fun row child => child.1 = row.1 ∧ ∃ relation own,
        entity.relation? row.1 = some relation ∧ build schema relation.target row.2 = .ok own ∧
        child.2 = own.serving relation.cardinality.isSingular) specs children := by
  induction specs generalizing children with
  | nil =>
      rw [buildIncludes, List.forall₂_nil_left_iff, Except.ok.injEq]
      exact eq_comm
  | cons row rest hypothesis =>
      rcases row with ⟨relationName, spec⟩
      rw [buildIncludes, List.forall₂_cons_left_iff]
      cases declared : entity.relation? relationName with
      | none => simp
      | some relation =>
          simp only [bind_eq_ok_iff, pure_eq_ok_iff, hypothesis]
          constructor
          · rintro ⟨own, builtOwn, others, later, rfl⟩
            exact ⟨_, others, ⟨rfl, relation, own, rfl, builtOwn, rfl⟩, later, rfl⟩
          · rintro ⟨⟨key, child⟩, others, ⟨rfl, other, own, equal, builtOwn, rfl⟩, later, rfl⟩
            cases equal
            exact ⟨own, builtOwn, others, later, rfl⟩

theorem exists_of_buildIncludes {specs : List (String × Spec)} {children : List (String × Filter)}
    (built : buildIncludes schema name entity specs = .ok children) {relation : String}
    {child : Filter} (found : Table.get? children relation = some child) :
    ∃ declared spec own, entity.relation? relation = some declared ∧
      build schema declared.target spec = .ok own ∧
      child = own.serving declared.cardinality.isSingular := by
  rcases exists_of_mem_right (buildIncludes_eq_ok_iff.mp built) (Table.mem_of_get? found) with
    ⟨⟨key, spec⟩, _, rfl, declared, own, relationFound, builtOwn, same⟩
  exact ⟨declared, spec, own, relationFound, builtOwn, same⟩

/-- Every filter that is reached from one that was built has been built in its turn, and
may have lost its limit. -/
theorem exists_build_of_at? (built : build schema name spec = .ok filter) {path : Path}
    {own : Filter} (found : filter.at? path = some own) :
    ∃ name spec inner singular, build schema name spec = .ok inner ∧
      own = inner.serving singular := by
  induction path generalizing name spec filter with
  | nil =>
      cases found
      exact ⟨name, spec, _, false, built, rfl⟩
  | cons relation path hypothesis =>
      rw [at?, Option.bind_eq_some_iff] at found
      rcases found with ⟨child, available, found⟩
      rcases build_eq_ok_iff.mp built with ⟨entity, made⟩
      rcases exists_of_buildIncludes made.children available with
        ⟨declared, childSpec, inner, _, builtInner, rfl⟩
      cases path with
      | nil =>
          cases found
          exact ⟨declared.target, childSpec, inner, _, builtInner, rfl⟩
      | cons next path =>
          apply hypothesis builtInner
          rw [← found, at?, at?, include?, include?, includes_serving]

/-- The filter of each relation that may be included has been built for the relation's target,
and serves it according to how many rows the relation leads to. -/
theorem exists_build_of_include? (built : build schema name spec = .ok filter) {path : Path}
    {own : Filter} (found : filter.at? path = some own) {relation : String} {child : Filter}
    (available : own.include? relation = some child) :
    ∃ entity declared spec inner, schema.entity? own.entity = some entity ∧
      entity.relation? relation = some declared ∧
      build schema declared.target spec = .ok inner ∧
      child = inner.serving declared.cardinality.isSingular := by
  rcases exists_build_of_at? built found with ⟨_, _, made, singular, builtMade, rfl⟩
  rcases build_eq_ok_iff.mp builtMade with ⟨entity, parts⟩
  rw [include?, includes_serving] at available
  rcases exists_of_buildIncludes parts.children available with
    ⟨declared, childSpec, inner, known, builtInner, same⟩
  refine ⟨entity, declared, childSpec, inner, ?_, known, builtInner, same⟩
  rw [entity_serving, parts.entity]
  exact parts.found

/-! ## Bounds -/

theorem boundsCounts_of_build (built : build schema name spec = .ok filter) :
    filter.BoundsCounts := by
  rcases build_eq_ok_iff.mp built with ⟨entity, made⟩
  intro clause bound found
  rw [clauseBound?, made.bounds] at found
  exact (checkOwn_eq_ok_iff.mp made.checked).clauses _ (Table.mem_of_get? found)

theorem boundsCounts_serving (counts : filter.BoundsCounts) (singular : Bool) :
    (filter.serving singular).BoundsCounts := by
  intro clause bound found
  rw [clauseBound?, boundsClauses_serving, Table.get?_filter (Clause.serves singular)] at found
  split at found
  · exact counts found
  · cases found

/-- Every filter that is reached from one that was obtained has usable clause bounds. -/
theorem Obtained.boundsCounts (obtained : filter.Obtained) {path : Path} {own : Filter}
    (found : filter.at? path = some own) : own.BoundsCounts := by
  cases obtained with
  | build built =>
      rcases exists_build_of_at? built found with ⟨_, _, inner, singular, builtInner, rfl⟩
      exact boundsCounts_serving (boundsCounts_of_build builtInner) singular
  | ofEntity entity =>
      cases path with
      | nil =>
          cases found
          intro clause bound bounded
          cases clause with
          | limit =>
              cases bounded
              decide
          | skip | order | orderBy => cases bounded
      | cons relation path => cases found

theorem le_of_build (built : build schema name spec = .ok filter) {field : String} {bound : Bound}
    (found : filter.attributeBound? field = some bound) : bound.min ≤ bound.max := by
  rcases build_eq_ok_iff.mp built with ⟨entity, made⟩
  rw [attributeBound?, made.bounds] at found
  exact ((checkOwn_eq_ok_iff.mp made.checked).bounded _ (Table.mem_of_get? found)).2

/-- Every filter that is reached from one that was obtained has bounds that contain numbers. -/
theorem Obtained.boundsOrdered (obtained : filter.Obtained) {path : Path} {own : Filter}
    (reached : filter.at? path = some own) : own.BoundsOrdered where
  clauses := fun found => (obtained.boundsCounts reached found).2
  attributes := by
    intro field bound found
    cases obtained with
    | build built =>
        rcases exists_build_of_at? built reached with ⟨_, _, inner, singular, builtInner, rfl⟩
        rw [attributeBound?, boundsAttributes_serving] at found
        exact le_of_build builtInner found
    | ofEntity entity =>
        cases path with
        | nil =>
            cases reached
            cases found
        | cons relation path => cases reached

end Filter

/-- Posts with their authors, of whom each post has one, and their comments. -/
def Schema.blog : Schema where
  entities := [
    ("comments", { name := "comments", attributes := ["id", "text"] }),
    ("posts", {
      name := "posts"
      attributes := ["id", "title"]
      relations := [⟨"author", .belongsTo, "users"⟩, ⟨"comments", .hasMany, "comments"⟩] }),
    ("users", { name := "users", attributes := ["id", "name"] })]

/-- What may be asked of posts; it limits authors as well as comments. -/
def Spec.posts : Spec where
  attributes := some ["title", "id", "title"]
  includes := [
    ("author", {
      bounds := { clauses := [(.limit, ⟨1, 5⟩)] }
      statics := .ofRows [] [(.limit, .number (.int 1))] }),
    ("comments", { bounds := { clauses := [(.limit, ⟨1, 5⟩)] } })]

end QueryGate
