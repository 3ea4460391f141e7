import QueryGate.Proofs.Arena.Tree
import QueryGate.Proofs.Checked.Basic
import QueryGate.Proofs.Filter.Build

/-!
# Planning from an arena

A plan is made of the nodes of an arena, each looked up by its number, and numbers are forced into
bounds. A number can only be forced into a bound that contains one, as every bound does of a filter
that has been built and of the filters that it includes. The children of a node are numbered after
it, so that an arena has not more levels than nodes.
-/

namespace QueryGate

namespace Checked

/-- The number that the text of a clause denotes, forced into the clause's bound. -/
def clauseNumber (filter : Filter) (clause : Clause) (raw : String) : Checked PlanError Nat :=
  match Text.intOfText? raw.toList, filter.clauseBound? clause with
  | some value, some bound => do
      let value ← clamp bound value
      if value < 0 then throw (.invalidValue clause.name raw .negative) else return value.toNat
  | _, _ => of (QueryGate.clauseNumber filter clause raw)

/-- Applies a clause that a request contains. -/
def applyClause (filter : Filter) (paging : Paging) (clause : Clause) (raw : String) :
    Checked PlanError Paging :=
  match clause, filter.allowsClause clause with
  | .limit, true =>
      (fun value => { paging with limit := some value }) <$> clauseNumber filter .limit raw
  | .skip, true =>
      (fun value => { paging with offset := some value }) <$> clauseNumber filter .skip raw
  | clause, _ => of (Paging.applyClause filter paging clause raw)

/-- Applies the clauses of a request, then those that the filter forces. -/
def paging (filter : Filter) (clauses : Table Clause String) : Checked PlanError Paging := do
  let paging ← clauses.foldlM (fun paging row => applyClause filter paging row.1 row.2) {}
  let paging ← of (filter.statics.clauses.foldlM
    (fun paging row => paging.applyStatic row.1 row.2) paging)
  return paging.fillLimit filter

/-- The value of a literal that is about a field, forced into the field's bound. -/
def literal (filter : Filter) (field raw : String) : Checked PlanError Json :=
  match typedLiteral raw, filter.attributeBound? field with
  | .number (.int value), some bound => (fun value => .number (.int value)) <$> clamp bound value
  | _, _ => return filter.literal field raw

mutual

/-- The condition that an expression means in its role. -/
def resolve (filter : Filter) : Expression → Role → Checked PlanError Condition
  | .literal raw, .value field => .equals <$> literal filter field raw
  | .not operand, .value field => .not <$> resolve filter operand (.value field)
  | .and operands, .value field => .and <$> resolveAll filter operands (.value field)
  | .or operands, .value field => .or <$> resolveAll filter operands (.value field)
  | .oneOf items, .value field => .oneOf <$> items.mapM (literal filter field)
  | .between low high, .value field => do
      let low ← literal filter field low
      let high ← literal filter field high
      return .between low high
  | .group fields, .value _ => .fields <$> resolveFields filter fields
  | .and operands, .group key => .operands <$> resolveAll filter operands (.operand key)
  | .or operands, .group key => .operands <$> resolveAll filter operands (.operand key)
  | .not operand, .group key => resolve filter operand (.operand key)
  | .and operands, .operand _ =>
      (fun conditions => Filter.nested .and (.operands conditions)) <$>
        resolveAll filter operands (.operand Connective.and.word)
  | .or operands, .operand _ =>
      (fun conditions => Filter.nested .or (.operands conditions)) <$>
        resolveAll filter operands (.operand Connective.or.word)
  | .not operand, .operand _ =>
      Filter.nested .not <$> resolve filter operand (.operand Connective.not.word)
  | .group fields, .operand _ => .fields <$> resolveFields filter fields
  | expression, role => of (filter.resolve expression role)

/-- The conditions that several expressions mean in one role. -/
def resolveAll (filter : Filter) : List Expression → Role → Checked PlanError (List Condition)
  | [], _ => return []
  | expression :: rest, role => do
      let condition ← resolve filter expression role
      let conditions ← resolveAll filter rest role
      return condition :: conditions

/-- The conditions that expressions mean under their names. -/
def resolveFields (filter : Filter) :
    List (String × Expression) → Checked PlanError (List (String × Condition))
  | [] => return []
  | (name, expression) :: rest => do
      let role ← of (filter.roleOf name)
      let condition ← resolve filter expression role
      let conditions ← resolveFields filter rest
      return (name, condition) :: conditions

end

/-- The predicate of a plan. -/
def predicate (filter : Filter) (predicates : Table String Expression) :
    Checked PlanError (Option (Table String Condition)) := do
  let demanded ← resolveFields filter predicates
  let rows := filter.force demanded
  return if rows.isEmpty then none else some rows

/-- The relations of some nodes, each with its node and the filter that it may be included
under. -/
def relations (arena : Arena) (filter : Filter) (ids : List Nat) :
    Checked PlanError (List (Nat × String × Filter)) :=
  ids.mapM fun id => do
    let entry ← node arena id
    match filter.include? entry.name with
    | none => throw (.relationNotAvailable filter.entity entry.name)
    | some own => return (id, entry.name, own)

/-- The plan of a node that has not more levels below it. -/
def planWithin (options : PlanOptions) (arena : Arena) (levels : Nat) (filter : Filter) (id : Nat) :
    Checked PlanError Plan :=
  match levels with
  | 0 => need none
  | levels + 1 => do
      let entry ← node arena id
      let relations ← relations arena filter entry.includes
      let projection ← of (filter.projection entry.terms.fields)
      let functions ← of (entry.terms.functions.mapM filter.computation)
      let paging ← paging filter entry.terms.clauses
      let order ← of (paging.rowOrder options)
      let children ← relations.mapM fun (child, relation, own) => do
        let plan ← planWithin options arena levels own child
        return (relation, plan)
      let predicate ← predicate filter entry.terms.predicates
      return {
        entity := filter.entity
        projection := projection
        predicate := predicate
        includes := children
        order := order
        limit := paging.limit
        offset := paging.offset
        functions := functions }

/-! ### Bounds -/

section Bounds

variable {filter : Filter} (ordered : filter.BoundsOrdered)
include ordered

theorem clauseNumber_eq_of (clause : Clause) (raw : String) :
    clauseNumber filter clause raw = of (QueryGate.clauseNumber filter clause raw) := by
  unfold clauseNumber
  split
  · rename_i value bound read bounded
    rw [clamp_eq_of (ordered.clauses bounded), ok_bind, QueryGate.clauseNumber, read, bounded]
    simp only
    split <;> rfl
  · rfl

theorem applyClause_eq_of (paging : Paging) (clause : Clause) (raw : String) :
    applyClause filter paging clause raw = of (Paging.applyClause filter paging clause raw) := by
  unfold applyClause
  split
  · rename_i allowed
    rw [Paging.applyClause.eq_def, allowed]
    exact map_eq_of (clauseNumber_eq_of ordered _ _) _
  · rename_i allowed
    rw [Paging.applyClause.eq_def, allowed]
    exact map_eq_of (clauseNumber_eq_of ordered _ _) _
  · rfl

theorem paging_eq_of (clauses : Table Clause String) :
    paging filter clauses = of (Paging.ofClauses filter clauses) := by
  rw [paging, Paging.ofClauses]
  apply bind_eq_of
    (foldlM_eq_of (fun paging row _ => applyClause_eq_of ordered paging row.1 row.2) {})
  intro asked _
  apply bind_eq_of rfl
  intro forced _
  rfl

theorem literal_eq_of (field raw : String) :
    literal filter field raw = of (.ok (filter.literal field raw)) := by
  unfold literal
  split
  · rename_i value bound typed bounded
    rw [clamp_eq_of (ordered.attributes bounded), Filter.literal, bounded, typed]
    rfl
  · rfl

theorem items_eq_of (field : String) (items : List String) :
    items.mapM (literal filter field) = of (.ok (items.map (filter.literal field))) := by
  have each : items.mapM (literal filter field) =
      of (items.mapM fun raw => .ok (filter.literal field raw)) :=
    mapM_eq_of fun raw _ => literal_eq_of ordered field raw
  rw [each]
  exact congrArg of List.mapM_pure

end Bounds

/-! ### Predicates -/

mutual

theorem resolve_eq_of {filter : Filter} (ordered : filter.BoundsOrdered)
    (expression : Expression) (role : Role) :
    resolve filter expression role = of (filter.resolve expression role) := by
  cases expression with
  | literal raw =>
      cases role with
      | value field => exact map_eq_of (literal_eq_of ordered field raw) _
      | group | operand => rfl
  | not operand =>
      cases role with
      | value field => exact map_eq_of (resolve_eq_of ordered operand _) _
      | group key => exact resolve_eq_of ordered operand _
      | operand key => exact map_eq_of (resolve_eq_of ordered operand _) _
  | and operands | or operands =>
      cases role with
      | value | group | operand => exact map_eq_of (resolveAll_eq_of ordered operands _) _
  | like | notLike => cases role <;> rfl
  | oneOf items =>
      cases role with
      | value field => exact map_eq_of (items_eq_of ordered field items) _
      | group | operand => rfl
  | between low high =>
      cases role with
      | value field =>
          rw [resolve, literal_eq_of ordered, ok_bind, literal_eq_of ordered]
          rfl
      | group | operand => rfl
  | group fields =>
      cases role with
      | value | operand => exact map_eq_of (resolveFields_eq_of ordered fields) _
      | group => rfl

theorem resolveAll_eq_of {filter : Filter} (ordered : filter.BoundsOrdered)
    (operands : List Expression) (role : Role) :
    resolveAll filter operands role = of (filter.resolveAll operands role) := by
  cases operands with
  | nil => rfl
  | cons expression rest =>
      apply bind_eq_of (resolve_eq_of ordered expression role)
      intro condition _
      apply bind_eq_of (resolveAll_eq_of ordered rest role)
      intro conditions _
      rfl

theorem resolveFields_eq_of {filter : Filter} (ordered : filter.BoundsOrdered)
    (fields : List (String × Expression)) :
    resolveFields filter fields = of (filter.resolveFields fields) := by
  match fields with
  | [] => rfl
  | (name, expression) :: rest =>
      apply bind_eq_of rfl
      intro role _
      apply bind_eq_of (resolve_eq_of ordered expression role)
      intro condition _
      apply bind_eq_of (resolveFields_eq_of ordered rest)
      intro conditions _
      rfl

end

theorem predicate_eq_of {filter : Filter} (ordered : filter.BoundsOrdered)
    (predicates : Table String Expression) :
    predicate filter predicates = of (filter.predicate predicates) := by
  apply bind_eq_of (resolveFields_eq_of ordered predicates)
  intro demanded _
  rfl

/-! ### Relations -/

/-- The relation that a child stands for, with the filter that it may be included under. -/
def target (filter : Filter) (child : Request) : Except PlanError (Nat × String × Filter) :=
  match filter.include? child.name with
  | none => .error (.relationNotAvailable filter.entity child.name)
  | some own => .ok (child.number, child.name, own)

theorem checkIncludes_eq (filter : Filter) (includes : List Request) :
    filter.checkIncludes includes = (includes.mapM (target filter)).map fun _ => () := by
  induction includes with
  | nil => rfl
  | cons child rest hypothesis =>
      rw [Filter.checkIncludes, hypothesis, List.mapM_cons, target]
      cases filter.include? child.name with
      | none => rfl
      | some own => cases rest.mapM (target filter) <;> rfl

theorem relations_eq_of {arena : Arena} {includes : List Request} (filter : Filter)
    (shown : ∀ child ∈ includes, arena.Shows child) :
    relations arena filter (includes.map Request.number) = of (includes.mapM (target filter)) := by
  rw [relations, List.mapM_map]
  apply mapM_eq_of
  intro child member
  obtain ⟨_, entry⟩ := shown child member
  rw [Function.comp_apply, node_eq_of entry, ok_bind, target]
  cases filter.include? child.name <;> rfl

/-- Relations whose filters have been found are planned one by one. -/
theorem planIncludes_eq_of {options : PlanOptions} {filter : Filter} {includes : List Request}
    {targets : List (Nat × String × Filter)} {next : Filter → Nat → Checked PlanError Plan}
    (found : includes.mapM (target filter) = .ok targets)
    (each : ∀ child ∈ includes, ∀ own, filter.include? child.name = some own →
      next own child.number = of (child.plan options own)) :
    (targets.mapM fun (child, relation, own) => do
      let plan ← next own child
      return (relation, plan)) = of (Request.planIncludes options filter includes) := by
  induction includes generalizing targets with
  | nil =>
      cases found
      rfl
  | cons child rest hypothesis =>
      rw [List.forall_mem_cons] at each
      simp only [List.mapM_cons, bind_eq_ok_iff, pure_eq_ok_iff] at found
      obtain ⟨first, foundFirst, others, foundOthers, rfl⟩ := found
      rw [target] at foundFirst
      rw [Request.planIncludes, List.mapM_cons]
      cases available : filter.include? child.name with
      | none => simp [available] at foundFirst
      | some own =>
          simp only [available, Except.ok.injEq] at foundFirst
          subst foundFirst
          simp only [bind_assoc, pure_bind]
          apply bind_eq_of (each.1 own available)
          intro plan _
          apply bind_eq_of (hypothesis foundOthers each.2)
          intro plans _
          rfl

/-- The nodes of a request are planned as the request is, where their bounds contain numbers. The
numbers of nodes are greater than those of the nodes above them, so that there are enough levels. -/
theorem planWithin_eq_of (options : PlanOptions) {arena : Arena} {request node : Request}
    {path : Path} (stores : arena.Stores request) (linked : arena.Linked)
    (found : request.at? path = some node) {filter : Filter}
    (ordered : ∀ path own, filter.at? path = some own → own.BoundsOrdered) {levels : Nat}
    (enough : arena.nodes.length ≤ levels + node.number) :
    planWithin options arena levels filter node.number = of (node.plan options filter) := by
  induction levels generalizing path node filter with
  | zero =>
      obtain ⟨parent, entry⟩ := stores.nodes found
      have inside := Arena.lt_length_of_node? entry
      omega
  | succ levels hypothesis =>
      obtain ⟨number, name, terms, includes⟩ := node
      obtain ⟨parent, entry⟩ := stores.nodes found
      have shown : ∀ child ∈ includes, arena.Shows child :=
        fun child member => stores.nodes (stores.at?_of_mem found member)
      have own : filter.BoundsOrdered := ordered [] filter rfl
      rw [planWithin, node_eq_of entry, ok_bind, relations_eq_of filter shown, Request.plan,
        checkIncludes_eq]
      cases foundTargets : includes.mapM (target filter) with
      | error fault => rfl
      | ok targets =>
          rw [ok_bind]
          apply bind_eq_of rfl
          intro projection _
          apply bind_eq_of rfl
          intro functions _
          apply bind_eq_of (paging_eq_of own terms.clauses)
          intro paging _
          apply bind_eq_of rfl
          intro order _
          have below : ∀ child ∈ includes, ∀ inner, filter.include? child.name = some inner →
              planWithin options arena levels inner child.number =
                of (child.plan options inner) := by
            intro child member inner available
            have greater := linked.lt_child entry (List.mem_map_of_mem member)
            apply hypothesis (stores.at?_of_mem found member)
            · intro path own reached
              apply ordered (child.name :: path)
              rw [Filter.at?, available]
              exact reached
            · omega
          apply bind_eq_of (planIncludes_eq_of foundTargets below)
          intro children _
          apply bind_eq_of (predicate_eq_of own terms.predicates)
          intro predicate _
          rfl

end Checked

end QueryGate
