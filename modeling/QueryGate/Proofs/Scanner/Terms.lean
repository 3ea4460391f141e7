import QueryGate.Proofs.Request.Every
import QueryGate.Proofs.Result
import QueryGate.Query.Scanner

/-!
# What scanning keeps

A character changes the terms of at most one node, and only in the ways listed in
`Terms.Kept`. A property that these keep holds therefore at every node of whatever
request is scanned, under all options.
-/

namespace QueryGate

/-- A property of the terms of a node that a scanner can begin with and that every
parameter keeps. -/
structure Terms.Kept (holds : Terms → Prop) : Prop where
  empty : holds {}
  clause : ∀ {terms : Terms} {raw : String} (directive : Clause), holds terms → raw ≠ "" →
    holds { terms with clauses := Table.insert directive raw terms.clauses }
  fields : ∀ {terms : Terms} {position : Nat} {text : List Char} {fields : List String},
    holds terms → readFields position text = .ok fields → holds { terms with fields := fields }
  functions : ∀ {terms : Terms} {position : Nat} {text : List Char}
    {functions : List FunctionCall},
    holds terms → readFunctions position text = .ok functions →
    holds { terms with functions := terms.functions ++ functions }
  literal : ∀ {terms : Terms} (name text : String), holds terms →
    holds { terms with predicates := Table.insert name (.literal text) terms.predicates }
  value : ∀ {terms : Terms} {position : Nat} {text : List Char} {condition : Expression}
    (name : String), holds terms → readValue position text = .ok condition →
    holds { terms with predicates := Table.insert name condition terms.predicates }
  group : ∀ {terms : Terms} {position : Nat} {text : List Char} {joining : Connective}
    {condition : Expression},
    holds terms → readGroup position text = .ok (joining, condition) →
    holds { terms with predicates := Table.insert joining.word condition terms.predicates }

namespace ScanState

variable {options : ScanOptions} {state next : ScanState} {holds : Terms → Prop}

theorem request_closeRelation (closed : state.closeRelation = .ok next) :
    next.request = state.request := by
  rw [closeRelation] at closed
  split at closed
  · simp [unexpected] at closed
  · cases closed
    rfl

theorem every_updateTerms {change : Terms → Terms}
    (kept : ∀ terms, holds terms → holds (change terms)) (every : state.request.Every holds) :
    (state.updateTerms change).request.Every holds :=
  every.updateTerms kept state.cursor

theorem every_addRelation (empty : holds {}) (parent : Path) (name : String)
    (every : state.request.Every holds) :
    (state.addRelation parent name).request.Every holds := by
  apply every.update
  intro node nodeEvery
  exact nodeEvery.addChild (.blank empty state.made name)

theorem every_attach (empty : holds {}) {parent path : Path}
    (every : state.request.Every holds)
    (attached : state.attach options parent = .ok (next, path)) :
    next.request.Every holds := by
  -- All branches but one place the relation and go on with the check of the depth.
  have checked : ∀ placed : ScanState, placed.request.Every holds →
      (if options.maxDepth < parent.length + 1 then
        .error ⟨placed.tokenStart, .tooDeep options.maxDepth⟩
      else pure (placed, parent ++ [state.token])) =
        (.ok (next, path) : Except QueryError (ScanState × Path)) →
      next.request.Every holds := by
    intro placed placedEvery fits
    split at fits
    · cases fits
    · cases fits
      exact placedEvery
  have dropped : state.dropToken.request.Every holds := every
  rw [attach] at attached
  split at attached
  · exact checked _ (every_addRelation empty parent state.token dropped) attached
  · exact checked _ dropped attached
  · apply checked _ _ attached
    apply every_addRelation empty
    apply dropped.update
    intro node nodeEvery
    exact nodeEvery.removeChild state.token
  · cases attached

theorem every_endRelation (empty : holds {}) {place : Place}
    (every : state.request.Every holds)
    (ended : state.endRelation options place = .ok next) : next.request.Every holds := by
  rw [endRelation] at ended
  split at ended
  · rcases map_eq_ok_iff.mp ended with ⟨⟨attached, path⟩, found, rfl⟩
    exact every_attach empty every found
  · split at ended
    · cases ended
    · cases ended
      exact every

theorem every_endValue (kept : Terms.Kept holds) {parameter : Parameter}
    (every : state.request.Every holds) (ended : state.endValue parameter = .ok next) :
    next.request.Every holds := by
  have dropped : state.dropToken.request.Every holds := every
  cases parameter with
  | clause directive =>
      simp only [endValue] at ended
      split at ended
      · cases ended
      · rename_i written
        cases ended
        apply every_updateTerms _ dropped
        intro terms own
        exact kept.clause directive own (by simpa using written)
  | fields =>
      simp only [endValue, bind_eq_ok_iff, pure_eq_ok_iff] at ended
      rcases ended with ⟨fields, read, rfl⟩
      exact every_updateTerms (fun _ own => kept.fields own read) dropped
  | functions =>
      simp only [endValue, bind_eq_ok_iff, pure_eq_ok_iff] at ended
      rcases ended with ⟨functions, read, rfl⟩
      exact every_updateTerms (fun _ own => kept.functions own read) dropped
  | predicate name =>
      cases ended
      exact every_updateTerms (fun _ own => kept.literal name state.token own) dropped

theorem every_endCall (kept : Terms.Kept holds) {capture : Capture}
    (every : state.request.Every holds) (ended : state.endCall capture = .ok next) :
    next.request.Every holds := by
  rw [endCall] at ended
  split at ended
  · rename_i name _
    simp only [bind_eq_ok_iff, pure_eq_ok_iff] at ended
    rcases ended with ⟨condition, read, rfl⟩
    exact every_updateTerms (fun _ own => kept.value name own read) every
  · simp only [bind_eq_ok_iff, pure_eq_ok_iff] at ended
    rcases ended with ⟨⟨joining, condition⟩, read, rfl⟩
    exact every_updateTerms (fun _ own => kept.group own read) every
  · cases ended
    exact every

theorem every_nameChar {char : Char} (every : state.request.Every holds)
    (stepped : state.nameChar char = .ok next) : next.request.Every holds := by
  unfold nameChar at stepped
  split at stepped
  · split at stepped
    · cases stepped
    · cases stepped
      exact every
  · split at stepped
    · cases stepped
      exact every
    · cases stepped
  · split at stepped
    · cases stepped
      exact every
    · cases stepped
  · split at stepped
    · rw [request_closeRelation stepped]
      exact every
    · cases stepped
  iterate 4 cases stepped
  · cases stepped
    exact every

theorem every_valueChar (kept : Terms.Kept holds) {parameter : Parameter} {char : Char}
    (every : state.request.Every holds) (stepped : state.valueChar parameter char = .ok next) :
    next.request.Every holds := by
  unfold valueChar at stepped
  split at stepped
  · simp only [bind_eq_ok_iff, pure_eq_ok_iff] at stepped
    rcases stepped with ⟨ended, ends, rfl⟩
    have endedEvery := every_endValue kept every ends
    exact endedEvery
  · rw [bind_eq_ok_iff] at stepped
    rcases stepped with ⟨ended, ends, closed⟩
    have endedEvery := every_endValue kept every ends
    rw [request_closeRelation closed]
    exact endedEvery
  · split at stepped
    · cases stepped
      exact every
    · cases stepped
  · split at stepped
    · split at stepped
      · cases stepped
        exact every
      · cases stepped
    · cases stepped
  iterate 2 cases stepped
  · cases stepped
    exact every

theorem every_relationChar (empty : holds {}) {place : Place} {char : Char}
    (every : state.request.Every holds)
    (stepped : state.relationChar options place char = .ok next) :
    next.request.Every holds := by
  unfold relationChar at stepped
  split at stepped
  · split at stepped
    · split at stepped <;> cases stepped
    · simp only [bind_eq_ok_iff, pure_eq_ok_iff] at stepped
      rcases stepped with ⟨⟨attached, relation⟩, found, rfl⟩
      have attachedEvery := every_attach empty every found
      exact attachedEvery
  · split at stepped
    · simp only [bind_eq_ok_iff, pure_eq_ok_iff] at stepped
      rcases stepped with ⟨⟨attached, relation⟩, found, rfl⟩
      have attachedEvery := every_attach empty every found
      exact attachedEvery
    · split at stepped
      · cases stepped
        exact every
      · cases stepped
  · simp only [bind_eq_ok_iff, pure_eq_ok_iff] at stepped
    rcases stepped with ⟨ended, ends, rfl⟩
    have endedEvery := every_endRelation empty every ends
    exact endedEvery
  · simp only [bind_eq_ok_iff, pure_eq_ok_iff] at stepped
    rcases stepped with ⟨ended, ends, rfl⟩
    have endedEvery := every_endRelation empty every ends
    exact endedEvery
  · rw [bind_eq_ok_iff] at stepped
    rcases stepped with ⟨ended, ends, closed⟩
    have endedEvery := every_endRelation empty every ends
    rw [request_closeRelation closed]
    exact endedEvery
  iterate 3 cases stepped
  · split at stepped
    · cases stepped
    · cases stepped
      exact every

theorem every_callChar (kept : Terms.Kept holds) {capture : Capture} {char : Char}
    (every : state.request.Every holds)
    (stepped : state.callChar options capture char = .ok next) : next.request.Every holds := by
  rw [callChar] at stepped
  split at stepped
  · split at stepped
    · cases stepped
    · cases stepped
      exact every
  · split at stepped
    · split at stepped
      · cases stepped
      · split at stepped
        · exact every_endCall kept every stepped
        · cases stepped
          exact every
    · cases stepped
      exact every

theorem every_afterCallChar {char : Char} (every : state.request.Every holds)
    (stepped : state.afterCallChar char = .ok next) : next.request.Every holds := by
  unfold afterCallChar at stepped
  split at stepped
  · cases stepped
    exact every
  · rw [request_closeRelation stepped]
    exact every
  · cases stepped

theorem every_act (kept : Terms.Kept holds) {char : Char} (every : state.request.Every holds)
    (acted : state.act options char = .ok next) : next.request.Every holds := by
  rw [act] at acted
  split at acted
  · exact every_nameChar every acted
  · exact every_valueChar kept every acted
  · exact every_relationChar kept.empty every acted
  · exact every_callChar kept every acted
  · exact every_afterCallChar every acted

/-- A character keeps what every parameter keeps. -/
theorem every_step (kept : Terms.Kept holds) {char : Char} (every : state.request.Every holds)
    (stepped : state.step options char = .ok next) : next.request.Every holds := by
  rcases map_eq_ok_iff.mp stepped with ⟨acted, acts, rfl⟩
  have actedEvery := every_act kept every acts
  exact actedEvery

/-- A run keeps what every character keeps. -/
theorem every_run (kept : Terms.Kept holds) {text : List Char}
    (every : state.request.Every holds) (ran : run options state text = .ok next) :
    next.request.Every holds := by
  induction text generalizing state with
  | nil =>
      cases ran
      exact every
  | cons char rest hypothesis =>
      rw [run, bind_eq_ok_iff] at ran
      rcases ran with ⟨stepped, steps, ran⟩
      exact hypothesis (every_step kept every steps) ran

theorem every_endText (kept : Terms.Kept holds) (every : state.request.Every holds)
    (ended : state.endText options = .ok next) : next.request.Every holds := by
  rw [endText] at ended
  split at ended
  · split at ended
    · cases ended
      exact every
    · cases ended
  · exact every_endValue kept every ended
  · exact every_endRelation kept.empty every ended
  · cases ended
  · cases ended
    exact every

end ScanState

/-- What every parameter keeps holds at every node of a request that was scanned. -/
theorem scan_every {holds : Terms → Prop} (kept : Terms.Kept holds) {options : ScanOptions}
    {text : String} {request : Request} (scanned : scan options text = .ok request) :
    request.Every holds := by
  rw [scan, bind_eq_ok_iff] at scanned
  rcases scanned with ⟨state, ran, finished⟩
  rw [ScanState.finish, bind_eq_ok_iff] at finished
  rcases finished with ⟨last, ended, finished⟩
  have begun : (ScanState.request {}).Every holds := .blank kept.empty 0 Request.rootName
  have lastEvery := ScanState.every_endText kept (ScanState.every_run kept begun ran) ended
  split at finished
  · cases finished
    exact lastEvery
  · cases finished

end QueryGate
