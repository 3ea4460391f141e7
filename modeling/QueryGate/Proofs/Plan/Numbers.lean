import Mathlib
import QueryGate.Proofs.Arena.Scanned
import QueryGate.Proofs.Plan.Acceptance
import QueryGate.Proofs.Text.Word

/-!
# Limits and offsets

The limit and the offset of a node are computed with integers of any size: what the filter
forces, or else what the request asks for, as near to it as the bound allows. A machine that
computes with 64 bits has to tell apart the numerals that it cannot read, and comes to the
same numbers and the same errors.
-/

namespace QueryGate

open Text

/-- The number that a value stands for when a filter forces it on a clause: a natural number,
or a text that is a numeral of one of 64 bits. -/
inductive DenotesCount : Json → Nat → Prop where
  | number (count : Nat) : DenotesCount (.number (.int count)) count
  | text {text : String} {count : Nat} :
      DenotesNat text.toList count → count ≤ greatestNat64 → DenotesCount (.string text) count

theorem staticCount?_eq_some_iff {value : Json} {count : Nat} :
    staticCount? value = some count ↔ DenotesCount value count := by
  constructor
  · intro found
    unfold staticCount? at found
    split at found
    · rename_i integer
      obtain ⟨natural, same⟩ := Option.ite_none_right_eq_some.mp found
      obtain ⟨number, rfl⟩ := Int.eq_ofNat_of_zero_le natural
      cases same
      exact .number number
    · obtain ⟨read, fits⟩ := Option.filter_eq_some_iff.mp found
      exact .text (natOfText?_eq_some_iff.mp read) (by simpa [fitsNat64] using fits)
    · cases found
  · intro denotes
    cases denotes with
    | number => simp [staticCount?]
    | text denotes fits =>
        rw [staticCount?, natOfText?_eq_some_iff.mpr denotes, Option.filter_some,
          if_pos (by simpa [fitsNat64] using fits)]

/-- The integer of a range that is nearest to a value. -/
theorem clamp_eq_max_min {bound : Bound} (ordered : bound.min ≤ bound.max) (value : Int) :
    bound.clamp value = max bound.min (min value bound.max) := by
  rw [Bound.clamp]
  split
  · omega
  · split
    · omega
    · omega

namespace Filter

variable {filter : Filter} {clauses : Table Clause String} {clause : Clause} {count : Option Nat}
  {bound : Bound}

/-- The number of a clause that neither the filter nor the request sets. -/
def unsetNumber? (filter : Filter) : Clause → Option Nat
  | .limit => (filter.clauseBound? .limit).map fun bound => bound.max.toNat
  | _ => none

/-- What the number of a clause comes to, in the arithmetic of all integers. -/
inductive Settles (filter : Filter) (clauses : Table Clause String) (clause : Clause) :
    Option Nat → Prop where
  | forced {value : Json} {count : Nat} :
      Table.get? filter.statics.clauses clause = some value → DenotesCount value count →
      Settles filter clauses clause (some count)
  | bounded {raw : String} {asked : Int} {bound : Bound} {count : Nat} :
      Table.get? filter.statics.clauses clause = none → filter.allowsClause clause = true →
      Table.get? clauses clause = some raw → DenotesInt raw.toList asked →
      filter.clauseBound? clause = some bound →
      (count : Int) = max bound.min (min asked bound.max) →
      Settles filter clauses clause (some count)
  | unbounded {raw : String} {count : Nat} :
      Table.get? filter.statics.clauses clause = none → filter.allowsClause clause = true →
      Table.get? clauses clause = some raw → DenotesInt raw.toList count →
      filter.clauseBound? clause = none → Settles filter clauses clause (some count)
  | unset :
      Table.get? filter.statics.clauses clause = none →
      (filter.allowsClause clause = true → Table.get? clauses clause = none) →
      Settles filter clauses clause (filter.unsetNumber? clause)

/-- A bound that nothing overrides has the limit in its range, whatever is asked for. -/
theorem Settles.within (settles : filter.Settles clauses .limit count)
    (counts : filter.BoundsCounts) (bounded : filter.clauseBound? .limit = some bound)
    (unforced : Table.get? filter.statics.clauses .limit = none) :
    ∃ limit : Nat, count = some limit ∧ bound.min ≤ limit ∧ limit ≤ bound.max := by
  have ⟨natural, ordered⟩ := counts bounded
  cases settles with
  | forced forced => rw [unforced] at forced; cases forced
  | @bounded _ _ other limit _ _ _ _ found settled =>
      rw [bounded] at found
      cases found
      exact ⟨limit, rfl, by omega, by omega⟩
  | unbounded _ _ _ _ unbounded => rw [bounded] at unbounded; cases unbounded
  | unset =>
      refine ⟨bound.max.toNat, ?_, by omega, by omega⟩
      rw [unsetNumber?, bounded, Option.map_some]

end Filter

section Clause

variable {filter : Filter} {clause : Clause} {raw : String}

/-- Within usable bounds, the number of a clause is the integer of the range that is nearest
to the one that the text denotes; where there is no bound it is that integer itself. -/
theorem clauseNumber_eq_ok_iff (counts : filter.BoundsCounts) {count : Nat} :
    clauseNumber filter clause raw = .ok count ↔
      ∃ asked : Int, DenotesInt raw.toList asked ∧
        match filter.clauseBound? clause with
        | some bound => (count : Int) = max bound.min (min asked bound.max)
        | none => (count : Int) = asked ∧ count ≤ greatestNat64 := by
  simp only [← intOfText?_eq_some_iff]
  rw [clauseNumber]
  cases intOfText? raw.toList with
  | none => simp
  | some value =>
      simp only [Option.some.injEq, exists_eq_left']
      cases bounded : filter.clauseBound? clause with
      | some bound =>
          have ordered := (counts bounded).2
          have natural := bound.clamp_nonneg (counts bounded) value
          rw [clamp_eq_max_min ordered] at natural
          simp only [clamp_eq_max_min ordered, Int.not_lt.mpr natural, if_false, Except.ok.injEq]
          omega
      | none =>
          dsimp only
          split
          · simp only [reduceCtorEq, false_iff]
            omega
          · split
            · rename_i natural fits
              simp only [fitsNat64, decide_eq_true_eq] at fits
              simp only [Except.ok.injEq]
              omega
            · rename_i natural wide
              simp only [fitsNat64, decide_eq_true_eq] at wide
              simp only [reduceCtorEq, false_iff]
              omega

namespace Paging

theorem number_injective : Function.Injective (Option.map Setting.number) :=
  Option.map_injective fun _ _ => Setting.number.inj

variable {clauses : Table Clause String} {paging : Paging} {count : Option Nat}
  (counts : filter.BoundsCounts) (sorted : clauses.Sorted)
  (made : ofClauses filter clauses = .ok paging) (numeric : clause = .limit ∨ clause = .skip)
  (set : paging.setting? clause = count.map .number)
include numeric set

include counts made in
theorem settles_of_forced {value : Json}
    (forced : Table.get? filter.statics.clauses clause = some value) :
    filter.Settles clauses clause count := by
  have taken := ((exists_ofClauses_iff counts).mp ⟨_, made⟩).2 _ (Table.mem_of_get? forced)
  have isCount : IsCount value := by obtain rfl | rfl := numeric <;> exact taken
  obtain ⟨number, found⟩ := Option.isSome_iff_exists.mp (staticCount?_isSome_iff.mpr isCount)
  have same := setting?_of_forced made forced
  have counted : count = staticCount? value := by
    rw [set] at same
    obtain rfl | rfl := numeric <;> exact number_injective same
  rw [counted, found]
  exact .forced forced (staticCount?_eq_some_iff.mp found)

include counts in
theorem settles_of_asked {setting : Setting}
    (unforced : Table.get? filter.statics.clauses clause = none)
    (allowed : filter.allowsClause clause = true) (given : Table.get? clauses clause = some raw)
    (computed : filter.askedSetting? clause raw = some setting)
    (same : paging.setting? clause = some setting) : filter.Settles clauses clause count := by
  have asked : (clauseNumber filter clause raw).toOption = count := by
    rw [← same, set] at computed
    obtain rfl | rfl := numeric <;> exact number_injective computed
  cases read : clauseNumber filter clause raw with
  | error fault =>
      rw [read] at asked
      rw [← asked] at set
      rw [same] at set
      cases set
  | ok number =>
      rw [read] at asked
      subst asked
      obtain ⟨integer, denotes, settled⟩ := (clauseNumber_eq_ok_iff counts).mp read
      cases bounded : filter.clauseBound? clause with
      | some bound =>
          rw [bounded] at settled
          exact .bounded unforced allowed given denotes bounded settled
      | none =>
          rw [bounded] at settled
          exact .unbounded unforced allowed given (settled.1 ▸ denotes) bounded

include counts sorted made in
theorem settles_of_unset (unforced : Table.get? filter.statics.clauses clause = none)
    (unasked : Table.get? (filter.heeded clauses) clause = none) :
    filter.Settles clauses clause count := by
  have silent : filter.allowsClause clause = true → Table.get? clauses clause = none := by
    intro allowed
    rw [Filter.get?_heeded, if_pos allowed] at unasked
    exact unasked
  have same : count = filter.unsetNumber? clause := by
    obtain rfl | rfl := numeric
    · have filled := limit_of_unset sorted made unforced unasked
      rw [number_injective set] at filled
      rw [filled, Filter.unsetNumber?]
      cases bounded : filter.clauseBound? .limit with
      | none => rfl
      | some bound =>
          have natural := counts bounded
          exact if_pos (natural.1.trans natural.2)
    · have asked := setting?_of_asked sorted made unforced
      rw [unasked] at asked
      rw [asked (by decide)] at set
      exact Option.map_eq_none_iff.mp set.symm
  rw [same]
  exact .unset unforced silent

include counts sorted made in
/-- What the limit or the offset of a node is set to. -/
theorem settles : filter.Settles clauses clause count := by
  cases forced : Table.get? filter.statics.clauses clause with
  | some value => exact settles_of_forced counts made numeric set forced
  | none =>
      have asked := setting?_of_asked sorted made forced
      cases heeded : Table.get? (filter.heeded clauses) clause with
      | none => exact settles_of_unset counts sorted made numeric set forced heeded
      | some raw =>
          rw [heeded] at asked
          obtain ⟨setting, computed, same⟩ := asked
          rw [Filter.get?_heeded] at heeded
          obtain ⟨allowed, given⟩ := Option.ite_none_right_eq_some.mp heeded
          exact settles_of_asked counts numeric set forced allowed given computed same

end Paging

/-- The bounds on clauses are of integers of 64 bits. -/
def Filter.BoundsFit (filter : Filter) : Prop :=
  ∀ {clause bound}, filter.clauseBound? clause = some bound →
    leastInt64 ≤ bound.min ∧ bound.max ≤ greatestInt64

/-- The number of a clause computed in 64 bits: integers with a sign for all that can be read so,
an end of the bound for what lies beyond, and where there is none, numbers without a sign. -/
def clauseNumber64 (filter : Filter) (clause : Clause) (raw : String) : Except PlanError Nat :=
  let narrow (value : Int) : Except PlanError Nat :=
    if value < 0 then .error (.invalidValue clause.name raw .negative) else .ok value.toNat
  match int64OfText? raw.toList, filter.clauseBound? clause with
  | some value, some bound => narrow (bound.clamp value)
  | some value, none => narrow value
  | none, bound? =>
      if !isInteger raw.toList then .error (.invalidValue clause.name raw .notInteger)
      else
        match bound?, startsMinus raw.toList with
        | some bound, true => narrow bound.min
        | some bound, false => narrow bound.max
        | none, true => .error (.invalidValue clause.name raw .negative)
        | none, false =>
            match nat64OfText? raw.toList with
            | some value => .ok value
            | none => .error (.invalidValue clause.name raw .outOfRange)

/-- A text that denotes no integer is no numeral for a machine either. -/
theorem clauseNumber64_eq_of_none (read : intOfText? raw.toList = none) :
    clauseNumber64 filter clause raw = clauseNumber filter clause raw := by
  have unreadable : ∀ {value}, ¬DenotesInt raw.toList value := by
    intro value denotes
    rw [intOfText?_eq_some_iff.mpr denotes] at read
    cases read
  have unread : int64OfText? raw.toList = none := by
    apply Option.eq_none_iff_forall_ne_some.mpr
    intro value found
    exact unreadable (int64OfText?_eq_some_iff.mp found).1
  have noInteger : isInteger raw.toList = false := by
    apply Bool.eq_false_iff.mpr
    intro integer
    obtain ⟨value, denotes⟩ := isInteger_iff.mp integer
    exact unreadable denotes
  rw [clauseNumber64, clauseNumber, unread, read, noInteger]
  rfl

theorem clauseNumber64_eq_of_narrow {value : Int} (denotes : DenotesInt raw.toList value)
    (atLeast : leastInt64 ≤ value) (atMost : value ≤ greatestInt64) :
    clauseNumber64 filter clause raw = clauseNumber filter clause raw := by
  rw [clauseNumber64, clauseNumber, int64OfText?_eq_some_iff.mpr ⟨denotes, atLeast, atMost⟩,
    intOfText?_eq_some_iff.mpr denotes]
  cases filter.clauseBound? clause with
  | some bound => rfl
  | none =>
      have fits : value.toNat ≤ greatestNat64 := by
        simp only [greatestInt64, greatestNat64] at atMost ⊢
        omega
      simp [fitsNat64, fits]

/-- Beyond the integers of 64 bits, the nearest integer of a bound is one of its ends, which the
sign tells; without a bound, what is not negative may still fit into 64 bits without a sign. -/
theorem clauseNumber64_eq_of_wide {value : Int} (counts : filter.BoundsCounts)
    (fits : filter.BoundsFit) (denotes : DenotesInt raw.toList value)
    (wide : ¬(leastInt64 ≤ value ∧ value ≤ greatestInt64)) :
    clauseNumber64 filter clause raw = clauseNumber filter clause raw := by
  have unread : int64OfText? raw.toList = none := by
    apply Option.eq_none_iff_forall_ne_some.mpr
    intro other found
    obtain ⟨denotesOther, narrow⟩ := int64OfText?_eq_some_iff.mp found
    exact wide (denotes.unique denotesOther ▸ narrow)
  have integer : isInteger raw.toList = true := isInteger_iff.mpr ⟨value, denotes⟩
  rw [clauseNumber64, clauseNumber, unread, intOfText?_eq_some_iff.mpr denotes, integer]
  cases sign : startsMinus raw.toList with
  | true =>
      have negative := nonpos_of_startsMinus denotes sign
      simp only [leastInt64, greatestInt64] at wide
      cases bounded : filter.clauseBound? clause with
      | some bound =>
          have within := fits bounded
          have ordered := (counts bounded).2
          simp only [leastInt64] at within
          have clamped : bound.clamp value = bound.min := by
            rw [clamp_eq_max_min ordered]
            omega
          dsimp only
          rw [clamped]
          rfl
      | none => simp [show value < 0 by omega]
  | false =>
      obtain ⟨natural, denotesNat, rfl⟩ := exists_denotesNat_of_startsMinus denotes sign
      simp only [leastInt64, greatestInt64] at wide
      cases bounded : filter.clauseBound? clause with
      | some bound =>
          have within := fits bounded
          have ordered := (counts bounded).2
          simp only [greatestInt64] at within
          have clamped : bound.clamp natural = bound.max := by
            rw [clamp_eq_max_min ordered]
            omega
          dsimp only
          rw [clamped]
          rfl
      | none =>
          by_cases fitsNat : natural ≤ greatestNat64
          · simp [nat64OfText?_eq_some_iff.mpr ⟨denotesNat, fitsNat⟩, fitsNat64, fitsNat]
          · have unreadNat : nat64OfText? raw.toList = none := by
              apply Option.eq_none_iff_forall_ne_some.mpr
              intro other found
              obtain ⟨denotesOther, fitsOther⟩ := nat64OfText?_eq_some_iff.mp found
              exact fitsNat (denotesNat.unique denotesOther ▸ fitsOther)
            simp [unreadNat, fitsNat64, fitsNat]

/-- A computation in 64 bits has the same results and the same errors. -/
theorem clauseNumber64_eq (counts : filter.BoundsCounts) (fits : filter.BoundsFit)
    (clause : Clause) (raw : String) :
    clauseNumber64 filter clause raw = clauseNumber filter clause raw := by
  cases read : intOfText? raw.toList with
  | none => exact clauseNumber64_eq_of_none read
  | some value =>
      have denotes := intOfText?_eq_some_iff.mp read
      by_cases narrow : leastInt64 ≤ value ∧ value ≤ greatestInt64
      · exact clauseNumber64_eq_of_narrow denotes narrow.1 narrow.2
      · exact clauseNumber64_eq_of_wide counts fits denotes narrow

end Clause

/-- The limit and the offset of every node of a plan are what the filter and the node of the
request at the same path come to in the arithmetic of all integers, and so they are in that of
64 bits. Where a limit is bounded and not forced there is one, and it lies within the bound. -/
theorem settles_of_plan {filter : Filter} (obtained : filter.Obtained) {scanning : ScanOptions}
    {text : String} {request : Request} (scanned : scan scanning text = .ok request)
    {planning : PlanOptions} {plan : Plan} (planned : request.plan planning filter = .ok plan)
    {path : Path} {node : Plan} (reached : plan.Node path node) :
    ∃ own source, filter.at? path = some own ∧ request.at? path = some source ∧
      own.Settles source.terms.clauses .limit node.limit ∧
      own.Settles source.terms.clauses .skip node.offset ∧
      (∀ bound, own.clauseBound? .limit = some bound →
        Table.get? own.statics.clauses .limit = none →
        ∃ limit : Nat, node.limit = some limit ∧ bound.min ≤ limit ∧ limit ≤ bound.max) ∧
      (own.BoundsFit → ∀ clause raw,
        clauseNumber64 own clause raw = clauseNumber own clause raw) := by
  obtain ⟨own, source, found, reachedSource, made⟩ := origin_of_node planned reached
  obtain ⟨paging, clausesMade, -, sameLimit, sameOffset⟩ := (plan_eq_ok_iff.mp made).paging
  have counts : own.BoundsCounts := obtained.boundsCounts found
  have wellFormed := ((scan_every Terms.WellFormed.kept scanned).at_node reachedSource).terms
  have limit := Paging.settles counts wellFormed.clauses_sorted clausesMade (.inl rfl)
    (congrArg (Option.map Setting.number) sameLimit)
  have offset := Paging.settles counts wellFormed.clauses_sorted clausesMade (.inr rfl)
    (congrArg (Option.map Setting.number) sameOffset)
  refine ⟨own, source, found, (distinct_of_scan scanned).at?_of_node reachedSource, limit, offset,
    ?_, fun fits => clauseNumber64_eq counts fits⟩
  intro bound bounded unforced
  exact limit.within counts bounded unforced

set_option maxRecDepth 4096 in
/-- A query with the greatest number of 64 bits where there is no bound, and with the next one
where there is. -/
theorem settles_of_plan_wide :
    ∃ filter request plan comments, Filter.build .blog "posts" .posts = .ok filter ∧
      scan {} "skip=18446744073709551615&includes=comments(limit=18446744073709551616)" =
        .ok request ∧
      request.plan {} filter = .ok plan ∧ plan.Node ["comments"] comments ∧
      plan.offset = some greatestNat64 ∧ comments.limit = some 5 ∧
      ∃ own source, filter.at? ["comments"] = some own ∧
        request.at? ["comments"] = some source ∧
        own.Settles source.terms.clauses .limit comments.limit ∧
        own.Settles source.terms.clauses .skip comments.offset := by
  let bounded : Bounds := { clauses := [(.limit, ⟨1, 5⟩)] }
  let filter : Filter :=
    ⟨"posts", ["title", "id"], Clause.all,
      [("author", ⟨"users", ["id", "name"], [.skip, .order, .orderBy], [], {}, .none⟩),
        ("comments", ⟨"comments", ["id", "text"], Clause.all, [], bounded, .none⟩)], {}, .none⟩
  let request : Request :=
    ⟨0, "root", { clauses := [(.skip, "18446744073709551615")] },
      [⟨1, "comments", { clauses := [(.limit, "18446744073709551616")] }, []⟩]⟩
  let comments : Plan := ⟨"comments", ["id", "text"], none, [], none, some 5, none, []⟩
  let plan : Plan :=
    ⟨"posts", ["title", "id"], none, [("comments", comments)], none, none,
      some greatestNat64, []⟩
  have built : Filter.build .blog "posts" .posts = .ok filter := by rfl
  have scanned : scan {} "skip=18446744073709551615&includes=comments(limit=18446744073709551616)" =
      .ok request := by rfl
  have planned : request.plan {} filter = .ok plan := by cbv
  have reached : plan.Node ["comments"] comments := .child List.mem_cons_self (.root comments)
  obtain ⟨own, source, found, foundSource, limit, offset, -⟩ :=
    settles_of_plan (.build built) scanned planned reached
  exact ⟨filter, request, plan, comments, built, scanned, planned, reached, rfl, rfl, own,
    source, found, foundSource, limit, offset⟩

end QueryGate
