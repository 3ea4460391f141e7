import Mathlib
import QueryGate.Proofs.Filter.Build

/-!
# Specifications that fit a schema

A filter can be built exactly of a specification that fits the schema, and it realizes what
the specification says. Both are said without the functions that build filters, of the
specification and, along the relations of the schema, of each that it includes.
-/

namespace QueryGate

/-- A specification fits an entity of a schema: what it says about the entity itself does, and
each relation that it includes is one of the entity, whose target fits in turn. -/
inductive Spec.Fits (schema : Schema) : String → Spec → Prop where
  | intro {name : String} {spec : Spec} {entity : Entity} :
      schema.entity? name = some entity → spec.FitsEntity entity →
      (∀ row ∈ spec.includes, ∃ relation, entity.relation? row.1 = some relation) →
      (∀ row ∈ spec.includes, ∀ relation, entity.relation? row.1 = some relation →
        Fits schema relation.target row.2) →
      Fits schema name spec

/-- The names are those of a list without repeats, in the order in which each first stands
there. -/
structure FirstOccurrences (names result : List String) : Prop where
  mem : ∀ name, name ∈ result ↔ name ∈ names
  order : result.Pairwise fun earlier later => names.idxOf earlier < names.idxOf later

namespace Filter

/-- What a filter has of its own is what a specification says of the entity, apart from a
limit where that is of no use. -/
structure RealizesOwn (entity : Entity) (singular : Bool) (spec : Spec) (filter : Filter) :
    Prop where
  attributes : ∀ names, spec.attributes = some names → FirstOccurrences names filter.attributes
  allAttributes : spec.attributes = none → filter.attributes = entity.attributes
  clauses : ∀ clause, clause ∈ filter.clauses ↔
    (∀ clauses, spec.clauses = some clauses → clause ∈ clauses) ∧ clause.serves singular = true
  /-- Clauses are in their order, and none stands there twice. -/
  clauses_sublist : filter.clauses.Sublist Clause.all
  boundedAttributes : filter.bounds.attributes = spec.bounds.attributes
  boundedClauses : filter.bounds.clauses = spec.bounds.clauses.filter (·.1.serves singular)
  forcedAttributes : filter.statics.attributes = spec.statics.attributes
  forcedClauses : filter.statics.clauses = spec.statics.clauses.filter (·.1.serves singular)
  keys : Table.keys filter.includes = Table.keys spec.includes

/-- A filter for the named entity does what a specification says, and so do the filters of its
relations, each for the target of its relation. -/
inductive Realizes (schema : Schema) : String → Bool → Spec → Filter → Prop where
  | intro {name : String} {singular : Bool} {spec : Spec} {filter : Filter} {entity : Entity} :
      schema.entity? name = some entity → filter.entity = name →
      filter.RealizesOwn entity singular spec →
      (∀ {relation : String} {childSpec : Spec} {child : Filter} {declared : Relation},
        Table.get? spec.includes relation = some childSpec →
        filter.include? relation = some child → entity.relation? relation = some declared →
        Realizes schema declared.target declared.cardinality.isSingular childSpec child) →
      Realizes schema name singular spec filter

end Filter

/-! ## Induction on specifications -/

/-- A statement on specifications holds of each if it does wherever it does of the includes. -/
@[elab_as_elim]
theorem Spec.induct {motive : Spec → Prop}
    (step : ∀ spec, (∀ row ∈ spec.includes, motive row.2) → motive spec) (spec : Spec) :
    motive spec := by
  apply step
  rcases spec with ⟨_, _, includes, _, _⟩
  rintro ⟨relation, child⟩ member
  have smaller := List.sizeOf_lt_of_mem member
  exact Spec.induct step child
termination_by sizeOf spec
decreasing_by
  simp only [Spec.mk.sizeOf_spec, Prod.mk.sizeOf_spec] at smaller ⊢
  omega

/-- The values that two lists of paired rows have under a key are related like the rows. -/
theorem Table.related_of_pairs {α β : Type} {related : String × α → String × β → Prop}
    {rows : List (String × α)} {others : List (String × β)}
    (pairs : List.Forall₂ (fun row other => other.1 = row.1 ∧ related row other) rows others)
    {key : String} {value : α} {other : β} (found : Table.get? rows key = some value)
    (paired : Table.get? others key = some other) : related (key, value) (key, other) := by
  induction pairs with
  | nil => cases found
  | @cons row result rest results first _ hypothesis =>
      rcases row with ⟨name, first⟩
      rcases result with ⟨_, second⟩
      rcases first with ⟨rfl, relates⟩
      rw [Table.get?_cons] at found paired
      split at found
      · rename_i same
        cases eq_of_beq same
        cases found
        rw [if_pos same] at paired
        cases paired
        exact relates
      · rename_i other
        rw [if_neg other] at paired
        exact hypothesis found paired

namespace Filter

variable {schema : Schema} {name : String} {spec : Spec} {entity : Entity} {filter : Filter}

/-! ## Which filters can be built -/

/-- A filter can be built exactly of a specification that fits. -/
theorem exists_build_iff :
    (∃ filter, build schema name spec = .ok filter) ↔ spec.Fits schema name := by
  induction spec using Spec.induct generalizing name with
  | step spec hypothesis =>
      simp only [build_eq_ok_iff]
      constructor
      · rintro ⟨filter, entity, made⟩
        have each := exists_forall₂_iff.mp ⟨_, buildIncludes_eq_ok_iff.mp made.children⟩
        refine .intro made.found (checkOwn_eq_ok_iff.mp made.checked) ?_ ?_
        · intro row member
          rcases each row member with ⟨_, _, relation, _, declared, _⟩
          exact ⟨relation, declared⟩
        · intro row member relation declared
          rcases each row member with ⟨_, _, other, own, equal, built, _⟩
          rw [declared] at equal
          cases equal
          exact (hypothesis row member).mp ⟨own, built⟩
      · intro fits
        cases fits with
        | @intro _ _ entity found own declared children =>
            have each : ∀ row ∈ spec.includes, ∃ child : String × Filter, child.1 = row.1 ∧
                ∃ relation own, entity.relation? row.1 = some relation ∧
                  build schema relation.target row.2 = .ok own ∧
                  child.2 = own.serving relation.cardinality.isSingular := by
              intro row member
              rcases declared row member with ⟨relation, known⟩
              have childFits := children row member relation known
              rcases (hypothesis row member).mpr childFits with ⟨child, built⟩
              exact ⟨(row.1, child.serving _), rfl, relation, child, known, built, rfl⟩
            rcases exists_forall₂_iff.mpr each with ⟨includes, pairs⟩
            exact ⟨⟨name, permittedAttributes spec entity, permittedClauses spec, includes,
              spec.bounds, spec.statics⟩, entity, found, checkOwn_eq_ok_iff.mpr own,
              buildIncludes_eq_ok_iff.mpr pairs, rfl, rfl, rfl, rfl, rfl⟩

/-! ## What they are -/

theorem firstOccurrences_eraseDups (names : List String) :
    FirstOccurrences names names.eraseDups := by
  refine ⟨fun name => List.mem_eraseDups, ?_⟩
  -- A name at the end of a list moves no first occurrence, and has its own behind all others.
  induction names using List.reverseRecOn with
  | nil => exact .nil
  | append_singleton names last hypothesis =>
      have kept : names.eraseDups.Pairwise fun earlier later =>
          (names ++ [last]).idxOf earlier < (names ++ [last]).idxOf later := by
        refine hypothesis.imp_of_mem ?_
        intro earlier later first second below
        rwa [List.idxOf_append_of_mem (List.mem_eraseDups.mp first),
          List.idxOf_append_of_mem (List.mem_eraseDups.mp second)]
      rw [List.eraseDups_append]
      by_cases known : last ∈ names
      · have none : ([last].removeAll names).eraseDups = [] := by simp [List.removeAll, known]
        rw [none, List.append_nil]
        exact kept
      · have one : ([last].removeAll names).eraseDups = [last] := by
          simp [List.removeAll, known, List.eraseDups_cons]
        rw [one, List.pairwise_append]
        refine ⟨kept, List.pairwise_singleton _ _, ?_⟩
        intro earlier first later second
        cases List.mem_singleton.mp second
        have inside := List.mem_eraseDups.mp first
        rw [List.idxOf_append_of_mem inside, List.idxOf_append_of_notMem known]
        exact Nat.lt_of_lt_of_le (List.idxOf_lt_length_of_mem inside) (Nat.le_add_right _ _)

theorem mem_permittedClauses {clause : Clause} : clause ∈ permittedClauses spec ↔
    ∀ clauses, spec.clauses = some clauses → clause ∈ clauses := by
  rw [permittedClauses]
  cases spec.clauses with
  | none => simp [Clause.mem_all]
  | some clauses => simp [Clause.mem_all]

theorem permittedClauses_sublist : (permittedClauses spec).Sublist Clause.all := by
  rw [permittedClauses]
  cases spec.clauses with
  | none => exact List.Sublist.refl _
  | some clauses => exact List.filter_sublist

theorem BuiltAs.realizesOwn (made : filter.BuiltAs schema name spec entity) (singular : Bool) :
    (filter.serving singular).RealizesOwn entity singular spec where
  attributes := by
    intro names given
    rw [attributes_serving, made.attributes, permittedAttributes, given]
    exact firstOccurrences_eraseDups names
  allAttributes := by
    intro given
    rw [attributes_serving, made.attributes, permittedAttributes, given]
  clauses := by
    intro clause
    rw [clauses_serving, made.clauses, List.mem_filter, mem_permittedClauses]
  clauses_sublist := by
    rw [clauses_serving, made.clauses]
    exact List.filter_sublist.trans permittedClauses_sublist
  boundedAttributes := by rw [boundsAttributes_serving, made.bounds]
  boundedClauses := by rw [boundsClauses_serving, made.bounds]
  forcedAttributes := by rw [staticsAttributes_serving, made.statics]
  forcedClauses := by rw [staticsClauses_serving, made.statics]
  keys := by
    rw [includes_serving]
    have pairs := buildIncludes_eq_ok_iff.mp made.children
    exact map_eq_map_of_pairs (pairs.imp fun _ _ pair => pair.1)

/-- A filter that was built realizes its specification, whatever relation it serves. -/
theorem realizes_of_build (built : build schema name spec = .ok filter) (singular : Bool) :
    (filter.serving singular).Realizes schema name singular spec := by
  induction spec using Spec.induct generalizing name filter singular with
  | step spec hypothesis =>
      rcases build_eq_ok_iff.mp built with ⟨entity, made⟩
      have pairs := buildIncludes_eq_ok_iff.mp made.children
      refine .intro made.found ?_ (made.realizesOwn singular) ?_
      · rw [entity_serving, made.entity]
      · intro relation childSpec child declared given available known
        rw [include?, includes_serving] at available
        rcases Table.related_of_pairs pairs given available with
          ⟨other, own, equal, builtOwn, rfl⟩
        rw [known] at equal
        cases equal
        exact hypothesis _ (Table.mem_of_get? given) builtOwn _

end Filter

/-- A filter can be built exactly of a specification that fits the schema, and it realizes
what the specification says. -/
theorem exists_build_iff_fits (schema : Schema) (name : String) (spec : Spec) :
    ((∃ filter, Filter.build schema name spec = .ok filter) ↔ spec.Fits schema name) ∧
      ∀ filter, Filter.build schema name spec = .ok filter →
        filter.Realizes schema name false spec :=
  ⟨Filter.exists_build_iff, fun _ built => Filter.realizes_of_build built false⟩

/-- A specification that names an attribute twice and limits the author of a post. -/
theorem exists_build_iff_fits_posts :
    ∃ filter, Filter.build .blog "posts" .posts = .ok filter ∧ Spec.posts.Fits .blog "posts" ∧
      filter.Realizes .blog "posts" false .posts := by
  have facts := exists_build_iff_fits .blog "posts" .posts
  have success : ∃ filter, Filter.build .blog "posts" .posts = .ok filter := ⟨_, rfl⟩
  rcases success with ⟨filter, built⟩
  exact ⟨filter, built, facts.1.mp ⟨filter, built⟩, facts.2 filter built⟩

end QueryGate
