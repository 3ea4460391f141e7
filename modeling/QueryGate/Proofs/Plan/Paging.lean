import QueryGate.Plan.Paging
import QueryGate.Proofs.Result

/-!
# Where the settings of a plan come from

Each clause has a setting in the paging of a node: a number for `limit` and `skip`,
a text for `order` and `order_by`. A clause that is applied changes its own setting
and no other, so that after all clauses a setting is the one that is forced, or else
the one that a permitted clause of the request asks for.
-/

namespace QueryGate

/-- What a clause is set to. -/
inductive Setting where
  | number (value : Nat)
  | text (value : String)
  deriving DecidableEq, Repr

namespace Paging

/-- What a clause is set to so far. -/
def setting? (paging : Paging) : Clause → Option Setting
  | .limit => paging.limit.map .number
  | .skip => paging.offset.map .number
  | .order => paging.order.map .text
  | .orderBy => paging.orderBy.map .text

/-- One clause of a paging got a setting, and the others kept theirs. -/
def Sets (clause : Clause) (setting : Setting) (before after : Paging) : Prop :=
  ∀ other, after.setting? other = if other = clause then some setting else before.setting? other

end Paging

/-- What a value that is forced on a clause sets it to. -/
def forcedSetting? (clause : Clause) (value : Json) : Option Setting :=
  match clause with
  | .limit | .skip => (staticCount? value).map .number
  | .order | .orderBy => some (.text (staticText value))

/-- What a permitted clause of a request is set to. -/
def Filter.askedSetting? (filter : Filter) (clause : Clause) (raw : String) : Option Setting :=
  match clause with
  | .limit | .skip => (clauseNumber filter clause raw).toOption.map .number
  | .order => some (.text raw)
  | .orderBy => if filter.allowsAttribute raw then some (.text raw) else none

/-- The clauses that a filter does not pass over. -/
def Filter.heeded (filter : Filter) (clauses : Table Clause String) : Table Clause String :=
  clauses.filter fun row => filter.allowsClause row.1

theorem Filter.get?_heeded (filter : Filter) (clauses : Table Clause String) (clause : Clause) :
    Table.get? (filter.heeded clauses) clause =
      if filter.allowsClause clause then Table.get? clauses clause else none :=
  Table.get?_filter filter.allowsClause clauses clause

namespace Paging

variable {filter : Filter} {paging next : Paging} {clause : Clause}

theorem staticCount?_of_staticNumber {value : Json} {count : Nat}
    (counted : staticNumber clause value = .ok count) : staticCount? value = some count := by
  rw [staticNumber] at counted
  split at counted
  · rename_i found
    cases counted
    exact found
  · cases counted

theorem sets_of_applyStatic {value : Json} (applied : paging.applyStatic clause value = .ok next) :
    ∃ setting, forcedSetting? clause value = some setting ∧ Sets clause setting paging next := by
  cases clause with
  | limit | skip =>
      rcases map_eq_ok_iff.mp applied with ⟨count, counted, rfl⟩
      refine ⟨.number count, by rw [forcedSetting?, staticCount?_of_staticNumber counted]; rfl, ?_⟩
      intro other
      cases other <;> rfl
  | order | orderBy =>
      cases applied
      refine ⟨.text (staticText value), rfl, ?_⟩
      intro other
      cases other <;> rfl

/-- A permitted clause of a request sets what it is about. -/
theorem sets_of_applyClause {raw : String} (allowed : filter.allowsClause clause = true)
    (applied : applyClause filter paging clause raw = .ok next) :
    ∃ setting, filter.askedSetting? clause raw = some setting ∧
      Sets clause setting paging next := by
  unfold applyClause at applied
  rw [allowed] at applied
  cases clause with
  | limit | skip =>
      rcases map_eq_ok_iff.mp applied with ⟨count, counted, rfl⟩
      refine ⟨.number count, by rw [Filter.askedSetting?, counted]; rfl, ?_⟩
      intro other
      cases other <;> rfl
  | order =>
      cases applied
      refine ⟨.text raw, rfl, ?_⟩
      intro other
      cases other <;> rfl
  | orderBy =>
      simp only [Bool.not_true, Bool.false_eq_true, ↓reduceIte] at applied
      split at applied
      · rename_i available
        cases applied
        refine ⟨.text raw, if_pos available, ?_⟩
        intro other
        cases other <;> rfl
      · cases applied

/-- After a fold over a table whose rows set their clauses, a clause is set as its row
says; one without a row is set as it was before. -/
theorem setting?_foldlM {α : Type} {step : Paging → Clause × α → Except PlanError Paging}
    {settingOf : Clause → α → Option Setting} {rows : Table Clause α} (sorted : rows.Sorted)
    (sets : ∀ row ∈ rows, ∀ before after, step before row = .ok after →
      ∃ setting, settingOf row.1 row.2 = some setting ∧ Sets row.1 setting before after)
    {start last : Paging} (folded : rows.foldlM step start = .ok last) (clause : Clause) :
    match Table.get? rows clause with
    | some value => ∃ setting, settingOf clause value = some setting ∧
        last.setting? clause = some setting
    | none => last.setting? clause = start.setting? clause := by
  induction rows generalizing start with
  | nil =>
      rw [List.foldlM_nil, pure_eq_ok_iff] at folded
      rw [folded]
      rfl
  | cons row rest hypothesis =>
      rcases List.pairwise_cons.mp sorted with ⟨before, sortedRest⟩
      rw [List.foldlM_cons, bind_eq_ok_iff] at folded
      rcases folded with ⟨next, stepped, folded⟩
      rcases sets row List.mem_cons_self start next stepped with ⟨setting, found, set⟩
      have later := hypothesis sortedRest
        (fun row member => sets row (List.mem_cons_of_mem _ member)) folded
      rw [Table.get?_cons]
      by_cases same : clause = row.1
      · rw [same, Table.get?_eq_none_of_before before] at later
        rw [same, beq_self_eq_true, if_pos rfl]
        refine ⟨setting, found, ?_⟩
        rw [later, set, if_pos rfl]
      · rw [beq_false_of_ne same]
        have kept : next.setting? clause = start.setting? clause := by
          rw [set, if_neg same]
        rw [kept] at later
        exact later

theorem foldlM_heeded (clauses : Table Clause String) (start : Paging) :
    (clauses.foldlM (fun paging row => applyClause filter paging row.1 row.2) start) =
      (filter.heeded clauses).foldlM
        (fun paging row => applyClause filter paging row.1 row.2) start := by
  induction clauses generalizing start with
  | nil => rfl
  | cons row rest hypothesis =>
      rw [Filter.heeded, List.filter_cons, List.foldlM_cons]
      split
      · rw [List.foldlM_cons]
        apply bind_congr
        intro next
        exact hypothesis next
      · rename_i passed
        have skipped : applyClause filter start row.1 row.2 = .ok start := by
          simp [applyClause, passed]
        rw [skipped]
        exact hypothesis start

/-- Paging is made in three steps: what is asked for, what is forced, and a limit. -/
theorem ofClauses_eq_ok_iff {clauses : Table Clause String} :
    ofClauses filter clauses = .ok paging ↔
      ∃ asked forced,
        (filter.heeded clauses).foldlM
          (fun paging row => applyClause filter paging row.1 row.2) {} = .ok asked ∧
        filter.statics.clauses.foldlM
          (fun paging row => paging.applyStatic row.1 row.2) asked = .ok forced ∧
        forced.fillLimit filter = paging := by
  rw [← foldlM_heeded]
  simp only [ofClauses, bind_eq_ok_iff, pure_eq_ok_iff]
  constructor
  · rintro ⟨asked, askedFold, forced, forcedFold, filled⟩
    exact ⟨asked, forced, askedFold, forcedFold, filled⟩
  · rintro ⟨asked, forced, askedFold, forcedFold, filled⟩
    exact ⟨asked, askedFold, forced, forcedFold, filled⟩

theorem setting?_fillLimit {setting : Setting} (set : paging.setting? clause = some setting) :
    (paging.fillLimit filter).setting? clause = some setting := by
  rw [fillLimit]
  split
  · rename_i unset _
    cases clause with
    | limit => simp [setting?, unset] at set
    | skip | order | orderBy => exact set
  · exact set

theorem setting?_fillLimit_of_ne (other : clause ≠ .limit) :
    (paging.fillLimit filter).setting? clause = paging.setting? clause := by
  rw [fillLimit]
  split
  · cases clause with
    | limit => exact absurd rfl other
    | skip | order | orderBy => rfl
  · rfl

variable {clauses : Table Clause String}

/-- A forced value wins over whatever the request asks for. -/
theorem setting?_of_forced (made : ofClauses filter clauses = .ok paging) {value : Json}
    (forced : Table.get? filter.statics.clauses clause = some value) :
    paging.setting? clause = forcedSetting? clause value := by
  rcases ofClauses_eq_ok_iff.mp made with ⟨asked, last, _, folded, filled⟩
  have found := setting?_foldlM filter.statics.clauses_sorted
    (fun row _ before after => sets_of_applyStatic) folded clause
  rw [forced] at found
  rcases found with ⟨setting, computed, set⟩
  rw [computed, ← filled]
  exact setting?_fillLimit set

theorem limit_of_forced (made : ofClauses filter clauses = .ok paging) {value : Json}
    (forced : Table.get? filter.statics.clauses .limit = some value) :
    paging.limit = staticCount? value :=
  Option.map_injective (fun _ _ => Setting.number.inj) (setting?_of_forced made forced)

theorem offset_of_forced (made : ofClauses filter clauses = .ok paging) {value : Json}
    (forced : Table.get? filter.statics.clauses .skip = some value) :
    paging.offset = staticCount? value :=
  Option.map_injective (fun _ _ => Setting.number.inj) (setting?_of_forced made forced)

theorem order_of_forced (made : ofClauses filter clauses = .ok paging) {value : Json}
    (forced : Table.get? filter.statics.clauses .order = some value) :
    paging.order = some (staticText value) :=
  Option.map_injective (fun _ _ => Setting.text.inj) (setting?_of_forced made forced)

theorem orderBy_of_forced (made : ofClauses filter clauses = .ok paging) {value : Json}
    (forced : Table.get? filter.statics.clauses .orderBy = some value) :
    paging.orderBy = some (staticText value) :=
  Option.map_injective (fun _ _ => Setting.text.inj) (setting?_of_forced made forced)

/-- Where nothing is forced, a setting is the one that a permitted clause asks for, until a
limit that is missing is filled in. -/
theorem exists_unfilled (sorted : clauses.Sorted) (made : ofClauses filter clauses = .ok paging)
    (unforced : Table.get? filter.statics.clauses clause = none) :
    ∃ last : Paging, last.fillLimit filter = paging ∧
      match Table.get? (filter.heeded clauses) clause with
      | some raw => ∃ setting, filter.askedSetting? clause raw = some setting ∧
          last.setting? clause = some setting
      | none => last.setting? clause = none := by
  rcases ofClauses_eq_ok_iff.mp made with ⟨asked, last, askedFold, folded, filled⟩
  have kept := setting?_foldlM filter.statics.clauses_sorted
    (fun row _ before after => sets_of_applyStatic) folded clause
  rw [unforced] at kept
  have heededSorted : (filter.heeded clauses).Sorted := List.Pairwise.filter _ sorted
  have found := setting?_foldlM heededSorted
    (fun row member before after => sets_of_applyClause (List.mem_filter.mp member).2)
    askedFold clause
  refine ⟨last, filled, ?_⟩
  split at found
  · rename_i raw asks
    rcases found with ⟨setting, computed, set⟩
    rw [asks]
    exact ⟨setting, computed, by rw [kept, set]⟩
  · rename_i unasked
    rw [unasked]
    dsimp only
    rw [kept, found]
    cases clause <;> rfl

/-- Where nothing is forced, a setting is the one that a permitted clause asks for. -/
theorem setting?_of_asked (sorted : clauses.Sorted) (made : ofClauses filter clauses = .ok paging)
    (unforced : Table.get? filter.statics.clauses clause = none) :
    match Table.get? (filter.heeded clauses) clause with
    | some raw => ∃ setting, filter.askedSetting? clause raw = some setting ∧
        paging.setting? clause = some setting
    | none => clause ≠ .limit → paging.setting? clause = none := by
  rcases exists_unfilled sorted made unforced with ⟨last, rfl, found⟩
  split at found
  · rcases found with ⟨setting, computed, set⟩
    exact ⟨setting, computed, setting?_fillLimit set⟩
  · intro other
    rw [setting?_fillLimit_of_ne other, found]

/-- Where neither the filter nor the request sets a limit, it is the greatest one that the
bound allows. -/
theorem limit_of_unset (sorted : clauses.Sorted) (made : ofClauses filter clauses = .ok paging)
    (unforced : Table.get? filter.statics.clauses .limit = none)
    (unasked : Table.get? (filter.heeded clauses) .limit = none) :
    paging.limit = (filter.clauseBound? .limit).bind fun bound =>
      if 0 ≤ bound.max then some bound.max.toNat else none := by
  rcases exists_unfilled sorted made unforced with ⟨last, rfl, found⟩
  rw [unasked] at found
  have missing : last.limit = none := Option.map_eq_none_iff.mp found
  rw [fillLimit, missing]
  cases filter.clauseBound? .limit with
  | none => exact missing
  | some bound => rfl

end Paging

end QueryGate
