import QueryGate.Proofs.Arena.Scanned

/-!
# Policies for relations that are included twice

What the scanner does with a relation that its node includes already is the policy's business, and
nothing else is: as long as no relation comes a second time, all policies take the same steps.
So each agrees with the one that rejects a second mention, up to the place where that one gives
up, and a text that it does not give up on has one reading, with one arena or one error.
-/

namespace QueryGate

/-- The options under which no node includes a relation twice. -/
def ScanOptions.strict (options : ScanOptions) : ScanOptions :=
  { options with duplicates := .reject }

/-- Two results that are the same, unless the first is the error of a second mention. -/
def SameUnlessRepeated {α : Type} (strict result : Except QueryError α) : Prop :=
  (∃ position name, strict = .error ⟨position, .repeatedInclude name⟩) ∨ result = strict

namespace SameUnlessRepeated

variable {α β : Type} {strict result : Except QueryError α}

theorem of_eq (result : Except QueryError α) : SameUnlessRepeated result result := .inr rfl

theorem bind {next nextStrict : α → Except QueryError β} (same : SameUnlessRepeated strict result)
    (later : ∀ value, SameUnlessRepeated (nextStrict value) (next value)) :
    SameUnlessRepeated (strict >>= nextStrict) (result >>= next) := by
  obtain ⟨position, name, repeated⟩ | same := same
  · exact .inl ⟨position, name, by rw [repeated]; rfl⟩
  · subst same
    cases result with
    | error fault => exact of_eq _
    | ok value => exact later value

theorem map (same : SameUnlessRepeated strict result) (image : α → β) :
    SameUnlessRepeated (strict.map image) (result.map image) := by
  obtain ⟨position, name, repeated⟩ | same := same
  · exact .inl ⟨position, name, by rw [repeated]; rfl⟩
  · exact .inr (congrArg (Except.map image) same)

end SameUnlessRepeated

namespace ArenaState

variable (options : ScanOptions) (state : ArenaState)

/-- The one place where the policy is asked. -/
theorem attachTo_strict (parent : Nat) (name : String) :
    SameUnlessRepeated (state.attachTo options.strict parent name)
      (state.attachTo options parent name) := by
  unfold attachTo
  cases state.arena.findInclude? parent name with
  | none => exact .of_eq _
  | some existing => exact .inl ⟨state.tokenStart, name, rfl⟩

theorem attach_strict (parent : Nat) :
    SameUnlessRepeated (state.attach options.strict parent) (state.attach options parent) :=
  (attachTo_strict options state parent state.token).bind fun _ => .of_eq _

theorem endRelation_strict (place : ArenaPlace) :
    SameUnlessRepeated (state.endRelation options.strict place)
      (state.endRelation options place) := by
  unfold endRelation
  split
  · exact (attach_strict options state place.chain).map Prod.fst
  · exact .of_eq _

theorem relationChar_strict (place : ArenaPlace) (char : Char) :
    SameUnlessRepeated (state.relationChar options.strict place char)
      (state.relationChar options place char) := by
  unfold relationChar
  split
  case h_1 =>
    split
    · exact .of_eq _
    · exact (attach_strict options state place.chain).bind fun _ => .of_eq _
  case h_2 =>
    split
    · exact (attach_strict options state place.chain).bind fun _ => .of_eq _
    · exact .of_eq _
  case h_3 => exact (endRelation_strict options state place).bind fun _ => .of_eq _
  case h_4 => exact (endRelation_strict options state place).bind fun _ => .of_eq _
  case h_5 => exact (endRelation_strict options state place).bind fun _ => .of_eq _
  all_goals exact .of_eq _

theorem act_strict (char : Char) :
    SameUnlessRepeated (state.act options.strict char) (state.act options char) := by
  unfold act
  cases state.mode with
  | relations place => exact relationChar_strict options state place char
  | _ => exact .of_eq _

theorem step_strict (char : Char) :
    SameUnlessRepeated (state.step options.strict char) (state.step options char) :=
  (act_strict options state char).map _

/-- Up to the first second mention, the runs of all policies are one. -/
theorem run_strict (rest : List Char) :
    SameUnlessRepeated (run options.strict state rest) (run options state rest) := by
  induction rest generalizing state with
  | nil => exact .of_eq _
  | cons char rest hypothesis => exact (step_strict options state char).bind hypothesis

theorem endText_strict :
    SameUnlessRepeated (state.endText options.strict) (state.endText options) := by
  unfold endText
  cases state.mode with
  | relations place => exact endRelation_strict options state place
  | _ => exact .of_eq _

theorem finish_strict :
    SameUnlessRepeated (state.finish options.strict) (state.finish options) :=
  (endText_strict options state).bind fun _ => .of_eq _

end ArenaState

theorem scanArena_strict (options : ScanOptions) (text : String) :
    SameUnlessRepeated (scanArena options.strict text) (scanArena options text) :=
  (ArenaState.run_strict options {} text.toList).bind fun state =>
    ArenaState.finish_strict options state

/-- The request of a text, where its arena is known. -/
theorem scan_eq_of_scanArena_eq {options other : ScanOptions} {text : String}
    (same : scanArena options text = scanArena other text) :
    scan options text = scan other text := by
  have together := together_scan options text
  have togetherOther := together_scan other text
  rw [same] at together
  generalize scan options text = result, scan other text = resultOther,
    scanArena other text = arena at *
  cases together with
  | error fault =>
      cases togetherOther with
      | error => rfl
  | ok represents =>
      cases togetherOther with
      | ok representsOther =>
          have request := represents.request?_root.symm.trans representsOther.request?_root
          exact congrArg Except.ok (Option.some.inj request)

/-- The policy matters only for a text that includes a relation twice: either it is rejected for
that under the strict policy, or all policies have the same arena for it and the same request, or
the same error. -/
theorem repeated_or_same_of_policy (maxDepth : Nat) (text : String) :
    (∃ position name, scanArena ⟨.reject, maxDepth⟩ text =
        .error ⟨position, .repeatedInclude name⟩ ∧
      scan ⟨.reject, maxDepth⟩ text = .error ⟨position, .repeatedInclude name⟩) ∨
    ∀ policy, scanArena ⟨policy, maxDepth⟩ text = scanArena ⟨.reject, maxDepth⟩ text ∧
      scan ⟨policy, maxDepth⟩ text = scan ⟨.reject, maxDepth⟩ text := by
  by_cases repeated : ∃ position name, scanArena ⟨.reject, maxDepth⟩ text =
      .error ⟨position, .repeatedInclude name⟩
  · obtain ⟨position, name, failed⟩ := repeated
    refine .inl ⟨position, name, failed, ?_⟩
    have together := together_scan ⟨.reject, maxDepth⟩ text
    rw [failed] at together
    generalize scan ⟨.reject, maxDepth⟩ text = result at together ⊢
    cases together with
    | error fault => rfl
  · refine .inr fun policy => ?_
    have same := (scanArena_strict ⟨policy, maxDepth⟩ text).resolve_left repeated
    exact ⟨same, scan_eq_of_scanArena_eq same⟩

end QueryGate
