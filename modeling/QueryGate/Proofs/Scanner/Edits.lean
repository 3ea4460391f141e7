import QueryGate.Proofs.Expression.Brackets
import QueryGate.Proofs.Expression.Position
import QueryGate.Proofs.Scanner.Control

/-!
# Scanning makes the edits of a text

A scanner does with a request what its text says: a text that makes some edits is
scanned into the request that these edits make of a blank one, and it is in error
exactly if the options forbid one of them. Every text that is scanned without an
error makes some edits.
-/

namespace QueryGate

open Control

/-- A scanner comes to a control, and its request is the given one but for numbers;
or it is in error, and there is no request. -/
inductive Reaches (control : Control) : Except QueryError ScanState → Option Request → Prop where
  | state {state : ScanState} :
      state.control = control → Reaches control (.ok state) (some state.request.unnumbered)
  | error (fault : QueryError) : Reaches control (.error fault) none

/-- A result is built of a request, the given one but for numbers, and of how many nodes
have been made; or it is an error, and there is no request. -/
inductive Attains {α : Type} (build : Request → Nat → α) :
    Except QueryError α → Option Request → Prop where
  | built (request : Request) (made : Nat) :
      Attains build (.ok (build request made)) (some request.unnumbered)
  | error (fault : QueryError) : Attains build (.error fault) none

namespace Attains

variable {α β : Type} {build : Request → Nat → α} {result : Except QueryError α}
  {outcome : Option Request}

theorem of_eq {request value : Request} (made : Nat) (same : request.unnumbered = value) :
    Attains build (.ok (build request made)) (some value) := by
  rw [← same]
  exact .built request made

theorem map (attains : Attains build result outcome) (change : α → β) :
    Attains (fun request made => change (build request made)) (result.map change) outcome := by
  cases attains with
  | built request made => exact .built request made
  | error fault => exact .error fault

/-- What goes on from a result comes to a control if it does so from each that can be built. -/
theorem reaches {control : Control} {next : α → Except QueryError ScanState}
    (attains : Attains build result outcome)
    (reached : ∀ request made,
      Reaches control (next (build request made)) (some request.unnumbered)) :
    Reaches control (result >>= next) outcome := by
  cases attains with
  | built request made => exact reached request made
  | error fault => exact .error fault

end Attains

theorem readFields_ne_nil {position : Nat} {text : List Char} {names : List String}
    (read : readFields position text = .ok names) : names ≠ [] := by
  rw [readFields] at read
  split at read
  · cases read
  · simp only [bind_eq_ok_iff, pure_eq_ok_iff] at read
    rcases read with ⟨slices, cut, found, all, rfl⟩
    have total := totalLength_arguments cut
    have same := length_mapM all
    cases found with
    | nil =>
        rw [List.length_nil, eq_comm, List.length_eq_zero_iff] at same
        simp [same] at total
    | cons name rest => simp [List.eraseDups_cons]

namespace ScanState

variable {options : ScanOptions} {state next : ScanState} {control last : Control}
  {char : Char} {edits : List Edit}

/-- A relation is attached as the edit does it. -/
theorem attains_attach (options : ScanOptions) (distinct : state.request.unnumbered.Distinct)
    (parent : Path) :
    Attains
      (fun request made =>
        ({ state with token := "", request := request, made := made }, parent ++ [state.token]))
      (state.attach options parent)
      ((Edit.attach parent state.token).apply options state.request.unnumbered) := by
  -- Without numbers, the node at the path has the same relations.
  have seen : ((state.request.unnumbered.at? parent).bind fun node => node.child? state.token) =
      ((state.request.at? parent).bind fun node => node.child? state.token).map
        Request.unnumbered := by
    rw [Request.at?_unnumbered, Option.bind_map, Option.map_bind]
    congr 1
    funext node
    exact Request.child?_unnumbered node state.token
  have added : ∀ request made,
      (Request.update (Request.addChild (.blank made state.token)) parent request).unnumbered =
        request.unnumbered.update (Request.addChild (.blank 0 state.token)) parent := by
    intro request made
    apply Request.unnumbered_update
    intro node
    rw [Request.unnumbered_addChild, Request.unnumbered_blank]
  by_cases deep : options.maxDepth < parent.length + 1
  · simp only [attach, dropToken, Edit.apply, if_pos deep]
    split <;> exact .error _
  · simp only [attach, dropToken, Edit.apply, if_neg deep]
    cases existing : (state.request.at? parent).bind fun node => node.child? state.token with
    | none =>
        rw [existing, Option.map_none] at seen
        rw [seen, distinct.update_ensureChild_of_none seen,
          distinct.update_replaceChild_of_none seen]
        cases options.duplicates <;> exact .of_eq (state.made + 1) (added state.request state.made)
    | some child =>
        rw [existing, Option.map_some] at seen
        rw [seen, distinct.update_ensureChild_of_some seen]
        cases options.duplicates with
        | merge => exact .built state.request state.made
        | replace =>
            have replaced :
                ((state.request.update (Request.removeChild state.token) parent).update
                  (Request.addChild (.blank state.made state.token)) parent).unnumbered =
                state.request.unnumbered.update (Request.replaceChild state.token) parent := by
              rw [added, Request.unnumbered_update state.request
                (fun node => node.unnumbered_removeChild state.token) parent]
              exact Request.update_comp (Request.removeChild state.token)
                (Request.addChild (.blank 0 state.token)) (fun _ => rfl) parent
                state.request.unnumbered
            exact .of_eq (state.made + 1) replaced
        | reject => exact .error _

theorem endValue_of_reads {parameter : Parameter} {change : Terms.Change}
    (reads : parameter.Reads state.token change) :
    state.endValue parameter = .ok (state.dropToken.updateTerms change.apply) := by
  cases reads with
  | clause directive written => simp [endValue, written]; rfl
  | fields written read =>
      simp only [endValue, readFields_anywhere _ read]
      rfl
  | functions read =>
      simp only [endValue, readFunctions_anywhere _ read]
      rfl
  | predicate name token => rfl

theorem exists_reads_of_endValue {parameter : Parameter}
    (ends : state.endValue parameter = .ok next) :
    ∃ change, parameter.Reads state.token change := by
  cases parameter with
  | clause directive =>
      simp only [endValue] at ends
      split at ends
      · cases ends
      · rename_i written
        exact ⟨_, .clause directive (by simpa using written)⟩
  | fields =>
      simp only [endValue, bind_eq_ok_iff] at ends
      rcases ends with ⟨names, read, _⟩
      have readStart : readFields 0 state.token.toList = .ok names := readFields_anywhere _ read
      exact ⟨_, .fields (readFields_ne_nil read) readStart⟩
  | functions =>
      simp only [endValue, bind_eq_ok_iff] at ends
      rcases ends with ⟨calls, read, _⟩
      exact ⟨_, .functions (readFunctions_anywhere _ read)⟩
  | predicate name => exact ⟨_, .predicate name state.token⟩

theorem cursor_of_endValue {parameter : Parameter} (ends : state.endValue parameter = .ok next) :
    next.cursor = state.cursor := by
  rcases exists_reads_of_endValue ends with ⟨change, reads⟩
  rw [endValue_of_reads reads] at ends
  cases ends
  rfl

/-- The node that parameters belong to when what has been begun is ended. -/
def home (state : ScanState) : Path :=
  match state.mode with
  | .relations place => place.anchor
  | _ => state.cursor

theorem home_eq_cursor (sound : state.control.Sound) : state.home = state.cursor := by
  have fits := sound.fits
  rcases state with ⟨position, request, made, cursor, token, tokenStart, mode, frames⟩
  cases mode with
  | relations place => exact fits.1
  | name | value | call | afterCall => rfl

/-- A separator ends what the end of the text would end. -/
theorem act_separator (notCall : ∀ capture, state.mode ≠ .call capture) :
    state.act options '&' =
      state.endText options >>= fun ended =>
        .ok { ended with cursor := state.home, mode := .name } := by
  rcases state with ⟨position, request, made, cursor, token, tokenStart, mode, frames⟩
  cases mode with
  | name =>
      simp only [act, nameChar, endText, home]
      split <;> rfl
  | value parameter =>
      simp only [act, valueChar, endText, home]
      cases ends : endValue _ parameter with
      | error fault => rfl
      | ok ended =>
          have kept : ended.cursor = cursor := cursor_of_endValue ends
          rw [← kept]
          rfl
  | relations place =>
      simp only [act, relationChar, endText, home]
      cases endRelation options _ place <;> rfl
  | call capture => exact absurd rfl (notCall capture)
  | afterCall => rfl

/-- So does a closing parenthesis, before it leaves the relation around. -/
theorem act_closer (notCall : ∀ capture, state.mode ≠ .call capture) :
    state.act options ')' = state.endText options >>= closeRelation := by
  -- Where the relation is left to does not depend on where it is left from.
  have leaves : ∀ (cursor : Path) (mode : Mode) (ended : ScanState),
      closeRelation { ended with cursor := cursor, mode := mode } = closeRelation ended := by
    intro cursor mode ended
    rw [closeRelation, closeRelation]
    cases ended.frames <;> rfl
  rcases state with ⟨position, request, made, cursor, token, tokenStart, mode, frames⟩
  cases mode with
  | name =>
      simp only [act, nameChar, endText]
      split <;> rfl
  | value parameter =>
      simp only [act, valueChar, endText]
      cases endValue _ parameter with
      | error fault => rfl
      | ok ended => exact leaves ended.cursor .name ended
  | relations place =>
      simp only [act, relationChar, endText]
      cases endRelation options _ place with
      | error fault => rfl
      | ok ended => exact leaves place.anchor .name ended
  | call capture => exact absurd rfl (notCall capture)
  | afterCall => exact leaves cursor .name _

/-- What has been begun ends with its edits. -/
theorem attains_endText (options : ScanOptions) (ends : Ends state.control edits)
    (distinct : state.request.unnumbered.Distinct) :
    Attains (fun request made => { state with token := "", request := request, made := made })
      (state.endText options) (Edit.applyAll options state.request.unnumbered edits) := by
  rcases state with ⟨position, request, made, cursor, token, tokenStart, mode, frames⟩
  cases mode with
  | name =>
      cases ends with
      | name => exact .built request made
  | value parameter =>
      cases ends with
      | value _ reads =>
          simp only [Edit.applyAll_single, Edit.apply, endText]
          rw [endValue_of_reads reads]
          exact .of_eq made (Request.unnumbered_updateTerms _ _ _)
  | relations place =>
      cases ends with
      | relation _ _ _ written =>
          have given : (!token.isEmpty) = true := by simpa using written
          simp only [Edit.applyAll_single, endText, endRelation, given, if_true]
          exact (attains_attach options distinct place.chain).map Prod.fst
      | closed _ _ found =>
          simp only [endText, endRelation, found]
          exact .built request made
  | call capture => cases ends
  | afterCall =>
      cases ends with
      | call => exact .built request made

theorem frames_of_endText (ends : Ends state.control edits)
    (distinct : state.request.unnumbered.Distinct) (ended : state.endText options = .ok next) :
    next.frames = state.frames := by
  have attains := attains_endText options ends distinct
  rw [ended] at attains
  generalize Edit.applyAll options state.request.unnumbered edits = outcome at attains
  cases attains
  rfl

/-- The text can only end where what has been begun can be ended. -/
theorem exists_ends_of_endText (sound : state.control.Sound)
    (ended : state.endText options = .ok next) : ∃ edits, Ends state.control edits := by
  have fits := sound.fits
  rcases state with ⟨position, request, made, cursor, token, tokenStart, mode, frames⟩
  cases mode with
  | name =>
      simp only [endText] at ended
      split at ended
      · rename_i empty
        have nothing : token = "" := by simpa using empty
        subst nothing
        exact ⟨[], .name cursor frames⟩
      · cases ended
  | value parameter =>
      rcases exists_reads_of_endValue ended with ⟨change, reads⟩
      exact ⟨_, .value frames reads⟩
  | relations place =>
      simp only [endText, endRelation] at ended
      split at ended
      · rename_i written
        exact ⟨_, .relation cursor place frames (by simpa using written)⟩
      · rename_i empty
        have nothing : token = "" := by simpa using empty
        subst nothing
        split at ended
        · cases ended
        · rename_i behind
          rcases Option.ne_none_iff_exists'.mp (by simpa using behind) with ⟨relation, found⟩
          exact ⟨[], .closed cursor frames found⟩
  | call capture => cases ended
  | afterCall =>
      have nothing : token = "" := fits
      subst nothing
      exact ⟨[], .call cursor frames⟩

theorem modeOfName_eq (name : String) :
    state.modeOfName name =
      match Parameter.ofName? name with
      | some parameter => .value parameter
      | none => .relations (Place.start state.cursor) := by
  rw [modeOfName, Parameter.ofName?]
  rcases Reserved.ofName? name with _ | _ | _ | _ | _ <;> rfl

theorem not_call_of_ends (ends : Ends state.control edits) (capture : Capture) :
    state.mode ≠ .call capture := by
  rcases state with ⟨position, request, made, cursor, token, tokenStart, mode, frames⟩
  intro same
  cases same
  cases ends

theorem act_comma {place : Place} (mode : state.mode = .relations place) :
    state.act options ',' =
      state.endText options >>= fun ended =>
        .ok (ended.enter (.relations (Place.start place.anchor))) := by
  simp only [act, endText, mode, relationChar]
  cases state.endRelation options place <;> rfl

/-- The closer of the innermost open bracket of a call ends the call, or a bracket in it. -/
theorem act_innermost {start : Nat} {text : String} {innermost : Char} {outer : List Char}
    {target : CallTarget} (mode : state.mode = .call ⟨start, text, innermost, outer, target⟩)
    (closes : isCloser innermost = true) :
    state.act options innermost =
      match outer with
      | [] => state.endCall ⟨start, text.push innermost, innermost, [], target⟩
      | next :: outer =>
          .ok (state.enter (.call ⟨start, text.push innermost, next, outer, target⟩)) := by
  cases outer <;> simp [act, mode, callChar, isOpener_of_isCloser closes, closes]

theorem act_of_push (takes : state.mode.Takes char) :
    state.act options char = .ok (state.push char) := by
  rcases state with ⟨position, request, made, cursor, token, tokenStart, mode, frames⟩
  cases mode with
  | name =>
      simp only [act, nameChar]
      split <;> first | rfl | cases takes
  | value parameter =>
      simp only [act, valueChar]
      split <;> simp_all [Mode.Takes, isBracket, isOpener, isCloser]
  | relations place =>
      simp only [act, relationChar, takes.2]
      split <;> first | rfl | cases takes.1
  | call | afterCall => exact takes.elim

theorem takes_of_unplaced {mode : Mode} (takes : mode.unplaced.Takes char) : mode.Takes char := by
  cases mode with
  | call => exact takes.elim
  | name | value | relations | afterCall => exact takes

theorem endCall_of_reads {target : CallTarget} {text : String} {change : Terms.Change}
    (reads : target.Reads text change) (start : Nat) (innermost : Char) (outer : List Char) :
    state.endCall ⟨start, text, innermost, outer, target⟩ =
      .ok ((state.updateTerms change.apply).enter .afterCall) := by
  cases reads with
  | predicate name read =>
      simp only [endCall, readValue_anywhere _ read]
      rfl
  | group read =>
      simp only [endCall, readGroup_anywhere _ read]
      rfl

/-- A character does what its step says. -/
theorem act_of_step (options : ScanOptions) (step : Step control char edits last)
    (same : state.control = control) (sound : control.Sound)
    (distinct : state.request.unnumbered.Distinct) :
    Reaches last (state.act options char)
      (Edit.applyAll options state.request.unnumbered edits) := by
  rcases state with ⟨position, request, made, cursor, token, tokenStart, mode, frames⟩
  cases step with
  | push _ _ _ takes =>
      cases same
      rw [act_of_push (takes_of_unplaced takes)]
      exact .state rfl
  | separate ends =>
      cases same
      rw [act_separator (not_call_of_ends ends), home_eq_cursor sound]
      exact (attains_endText options ends distinct).reaches fun _ _ => .state rfl
  | leave ends =>
      cases same
      rw [act_closer (not_call_of_ends ends)]
      exact (attains_endText options ends distinct).reaches fun _ _ => .state rfl
  | parameter _ _ written found =>
      cases mode <;> cases same
      have given : token.isEmpty = false := by simpa using written
      simp only [act, nameChar, given, modeOfName_eq, found]
      exact .state rfl
  | includes _ _ found =>
      cases mode <;> cases same
      have given : token.isEmpty = false := by
        by_contra empty
        have nothing : token = "" := by simpa using empty
        subst nothing
        cases found
      simp only [act, nameChar, given, modeOfName_eq, found]
      exact .state rfl
  | group _ _ found =>
      cases mode <;> cases same
      simp only [act, nameChar, found]
      exact .state rfl
  | operator _ name _ found =>
      cases mode <;> cases same
      simp only [act, valueChar, callTarget?, found, Option.map_some]
      exact .state rfl
  | list =>
      cases mode <;> cases same
      exact .state rfl
  | function _ _ written =>
      cases mode <;> cases same
      have given : token.isEmpty = false := by simpa using written
      simp only [act, valueChar, callTarget?, given]
      exact .state rfl
  | nest _ capture _ opens =>
      cases mode <;> cases same
      simp only [act, callChar, opens, if_true, Edit.applyAll_single, Edit.apply]
      split
      · exact .error _
      · exact .state rfl
  | inside _ capture _ plain =>
      cases mode <;> cases same
      rw [isBracket, Bool.or_eq_false_iff] at plain
      simp only [act, callChar, plain]
      exact .state rfl
  | unnest _ start text outer target _ closes =>
      cases mode with
      | call capture =>
          rcases capture with ⟨start, text, innermost, outer, target⟩
          cases same
          rw [act_innermost rfl closes]
          exact .state rfl
      | _ => cases same
  | read _ start _ closes reads =>
      cases mode with
      | call capture =>
          rcases capture with ⟨start, text, innermost, outer, target⟩
          cases same
          rw [act_innermost rfl closes, Edit.applyAll_single, Edit.apply,
            ← Request.unnumbered_updateTerms]
          dsimp only at reads ⊢
          rw [endCall_of_reads reads]
          exact .state rfl
      | _ => cases same
  | called _ start text _ closes =>
      cases mode with
      | call capture =>
          rcases capture with ⟨start, text, innermost, outer, target⟩
          cases same
          rw [act_innermost rfl closes]
          exact .state rfl
      | _ => cases same
  | enter _ place _ written =>
      cases mode <;> cases same
      have given : token.isEmpty = false := by simpa using written
      simp only [act, relationChar, given, Edit.applyAll_single]
      exact (attains_attach options distinct place.chain).reaches fun _ _ => .state rfl
  | descend _ place _ written =>
      cases mode <;> cases same
      have given : (!token.isEmpty) = true := by simpa using written
      simp only [act, relationChar, given, if_true, Edit.applyAll_single]
      exact (attains_attach options distinct place.chain).reaches fun _ _ => .state rfl
  | descendClosed _ _ found =>
      cases mode <;> cases same
      simp only [act, relationChar, found]
      exact .state rfl
  | next ends =>
      cases mode <;> cases same
      rw [act_comma rfl]
      exact (attains_endText options ends distinct).reaches fun _ _ => .state rfl

/-! ### Every character that is read makes a step -/

theorem step_of_separate (sound : state.control.Sound)
    (notCall : ∀ capture, state.mode ≠ .call capture) (acted : state.act options '&' = .ok next) :
    ∃ edits last, Step state.control '&' edits last := by
  rw [act_separator notCall, bind_eq_ok_iff] at acted
  rcases acted with ⟨ended, ends, _⟩
  rcases exists_ends_of_endText sound ends with ⟨edits, ends⟩
  exact ⟨edits, _, .separate ends⟩

theorem step_of_leave (sound : state.control.Sound) (distinct : state.request.unnumbered.Distinct)
    (notCall : ∀ capture, state.mode ≠ .call capture) (acted : state.act options ')' = .ok next) :
    ∃ edits last, Step state.control ')' edits last := by
  rw [act_closer notCall, bind_eq_ok_iff] at acted
  rcases acted with ⟨ended, endsText, left⟩
  rcases exists_ends_of_endText sound endsText with ⟨edits, ends⟩
  have same := frames_of_endText ends distinct endsText
  rcases state with ⟨position, request, made, cursor, token, tokenStart, mode, frames⟩
  cases frames with
  | nil =>
      rw [closeRelation, same] at left
      cases left
  | cons frame frames => exact ⟨edits, _, .leave ends⟩

theorem step_of_nameChar (mode : state.mode = .name) (sound : state.control.Sound)
    (distinct : state.request.unnumbered.Distinct) (acted : state.act options char = .ok next) :
    ∃ edits last, Step state.control char edits last := by
  have notCall : ∀ capture, state.mode ≠ .call capture := by simp [mode]
  rcases state with ⟨position, request, made, cursor, token, tokenStart, _, frames⟩
  cases mode
  have read := acted
  simp only [act, nameChar] at read
  split at read
  · split at read
    · cases read
    · rename_i given
      cases found : Parameter.ofName? token with
      | some parameter => exact ⟨_, _, .parameter cursor frames (by simpa using given) found⟩
      | none => exact ⟨_, _, .includes cursor frames found⟩
  · split at read
    · rename_i joining found
      exact ⟨_, _, .group cursor frames found⟩
    · cases read
  · exact step_of_separate sound notCall acted
  · exact step_of_leave sound distinct notCall acted
  iterate 4 cases read
  · refine ⟨_, _, .push cursor token frames ?_⟩
    simp_all [Mode.unplaced, Mode.Takes, isSeparator, isBracket, isOpener, isCloser]

theorem step_of_valueChar {parameter : Parameter} (mode : state.mode = .value parameter)
    (sound : state.control.Sound) (distinct : state.request.unnumbered.Distinct)
    (acted : state.act options char = .ok next) :
    ∃ edits last, Step state.control char edits last := by
  have notCall : ∀ capture, state.mode ≠ .call capture := by simp [mode]
  rcases state with ⟨position, request, made, cursor, token, tokenStart, _, frames⟩
  cases mode
  have read := acted
  simp only [act, valueChar] at read
  split at read
  · exact step_of_separate sound notCall acted
  · exact step_of_leave sound distinct notCall acted
  · split at read
    · rename_i target found
      cases parameter with
      | clause | fields => cases found
      | functions =>
          simp only [callTarget?] at found
          split at found
          · cases found
          · rename_i given
            exact ⟨_, _, .function cursor frames (by simpa using given)⟩
      | predicate name =>
          rcases Option.map_eq_some_iff.mp found with ⟨operator, word, _⟩
          exact ⟨_, _, .operator cursor name frames word⟩
    · cases read
  · split at read
    · split at read
      · rename_i name empty
        have nothing : token = "" := by simpa using empty
        subst nothing
        exact ⟨_, _, .list cursor name frames⟩
      · cases read
    · cases read
  iterate 2 cases read
  · refine ⟨_, _, .push cursor token frames ?_⟩
    simp_all [Mode.unplaced, Mode.Takes, isBracket, isOpener, isCloser]

theorem step_of_relationChar {place : Place} (mode : state.mode = .relations place)
    (sound : state.control.Sound) (distinct : state.request.unnumbered.Distinct)
    (acted : state.act options char = .ok next) :
    ∃ edits last, Step state.control char edits last := by
  have notCall : ∀ capture, state.mode ≠ .call capture := by simp [mode]
  rcases state with ⟨position, request, made, cursor, token, tokenStart, _, frames⟩
  cases mode
  have read := acted
  simp only [act, relationChar] at read
  split at read
  · split at read
    · split at read <;> cases read
    · rename_i given
      exact ⟨_, _, .enter cursor place frames (by simpa using given)⟩
  · split at read
    · rename_i given
      exact ⟨_, _, .descend cursor place frames (by simpa using given)⟩
    · rename_i empty
      have nothing : token = "" := by simpa using empty
      subst nothing
      split at read
      · rename_i relation found
        exact ⟨_, _, .descendClosed cursor frames found⟩
      · cases read
  · rw [act_comma rfl, bind_eq_ok_iff] at acted
    rcases acted with ⟨ended, ends, _⟩
    rcases exists_ends_of_endText sound ends with ⟨edits, ends⟩
    exact ⟨edits, _, .next ends⟩
  · exact step_of_separate sound notCall acted
  · exact step_of_leave sound distinct notCall acted
  iterate 3 cases read
  · split at read
    · cases read
    · refine ⟨_, _, .push cursor token frames ?_⟩
      simp_all [Mode.unplaced, Mode.Takes, isSeparator, isBracket, isOpener, isCloser]

theorem exists_reads_of_endCall {target : CallTarget} {text : String} {start : Nat}
    {innermost : Char} {outer : List Char}
    (ended : state.endCall ⟨start, text, innermost, outer, target⟩ = .ok next) :
    target = .functions ∨ ∃ change, target.Reads text change := by
  cases target with
  | predicate name =>
      simp only [endCall, bind_eq_ok_iff] at ended
      rcases ended with ⟨condition, read, _⟩
      exact .inr ⟨_, .predicate name (readValue_anywhere _ read)⟩
  | group =>
      simp only [endCall, bind_eq_ok_iff] at ended
      rcases ended with ⟨⟨joining, condition⟩, read, _⟩
      exact .inr ⟨_, .group (readGroup_anywhere _ read)⟩
  | functions => exact .inl rfl

theorem step_of_callChar {capture : Capture} (mode : state.mode = .call capture)
    (sound : state.control.Sound) (acted : state.act options char = .ok next) :
    ∃ edits last, Step state.control char edits last := by
  have fits := sound.fits
  rcases state with ⟨position, request, made, cursor, token, tokenStart, _, frames⟩
  cases mode
  have nothing : token = "" := fits
  subst nothing
  simp only [act, callChar] at acted
  split at acted
  · rename_i opens
    exact ⟨_, _, .nest cursor _ frames opens⟩
  · split at acted
    · rename_i closes
      split at acted
      · cases acted
      · rename_i matched
        rcases capture with ⟨start, text, innermost, outer, target⟩
        have same : char = innermost := by simpa using matched
        subst same
        cases outer with
        | nil =>
            rcases exists_reads_of_endCall acted with rfl | ⟨change, reads⟩
            · exact ⟨_, _, .called cursor 0 text frames closes⟩
            · exact ⟨_, _, .read cursor 0 frames closes reads⟩
        | cons next outer => exact ⟨_, _, .unnest cursor 0 text outer target frames closes⟩
    · rename_i opens closes
      exact ⟨_, _, .inside cursor _ frames (by simp [isBracket, opens, closes])⟩

theorem step_of_afterCallChar (mode : state.mode = .afterCall) (sound : state.control.Sound)
    (distinct : state.request.unnumbered.Distinct) (acted : state.act options char = .ok next) :
    ∃ edits last, Step state.control char edits last := by
  have notCall : ∀ capture, state.mode ≠ .call capture := by simp [mode]
  have read := acted
  simp only [act, mode, afterCallChar] at read
  split at read
  · exact step_of_separate sound notCall acted
  · exact step_of_leave sound distinct notCall acted
  · cases read

/-- Every character that is read makes a step. -/
theorem exists_step_of_act (sound : state.control.Sound)
    (distinct : state.request.unnumbered.Distinct) (acted : state.act options char = .ok next) :
    ∃ edits last, Step state.control char edits last := by
  cases mode : state.mode with
  | name => exact step_of_nameChar mode sound distinct acted
  | value parameter => exact step_of_valueChar mode sound distinct acted
  | relations place => exact step_of_relationChar mode sound distinct acted
  | call capture => exact step_of_callChar mode sound acted
  | afterCall => exact step_of_afterCallChar mode sound distinct acted

/-! ### Texts -/

theorem step_of_reaches {request : Option Request}
    (acted : Reaches last (state.act options char) request) :
    Reaches last (state.step options char) request := by
  rw [step]
  cases acts : state.act options char with
  | error fault =>
      rw [acts] at acted
      cases acted
      exact .error fault
  | ok next =>
      rw [acts] at acted
      cases acted with
      | state same => exact .state same

/-- A text does what its characters say. -/
theorem run_of_runs {text : List Char} (runs : Runs control text edits last)
    (same : state.control = control) (sound : control.Sound)
    (distinct : state.request.unnumbered.Distinct) :
    Reaches last (run options state text)
      (Edit.applyAll options state.request.unnumbered edits) := by
  induction runs generalizing state with
  | nil => exact .state same
  | @cons control middle last char rest first later step _ hypothesis =>
      have stepped := step_of_reaches (act_of_step options step same sound distinct)
      rw [run, Edit.applyAll_append]
      generalize applied : Edit.applyAll options state.request.unnumbered first = outcome
        at stepped ⊢
      generalize state.step options char = result at stepped ⊢
      cases stepped with
      | error fault => exact .error fault
      | state sameNext =>
          have kept := Edit.kept_of_applyAll Edit.distinct_of_apply distinct applied
          exact hypothesis sameNext (step.sound sound) kept

/-- Every text that is read makes some edits. -/
theorem exists_runs_of_run {text : List Char} (sound : state.control.Sound)
    (distinct : state.request.unnumbered.Distinct) (ran : run options state text = .ok next) :
    ∃ edits, Runs state.control text edits next.control ∧
      next.request.unnumbered.Distinct := by
  induction text generalizing state with
  | nil =>
      cases ran
      exact ⟨[], .nil _, distinct⟩
  | cons char rest hypothesis =>
      rw [run, bind_eq_ok_iff] at ran
      rcases ran with ⟨middle, stepped, ran⟩
      rcases map_eq_ok_iff.mp stepped with ⟨acted, acts, _⟩
      rcases exists_step_of_act sound distinct acts with ⟨first, control, step⟩
      have reached := step_of_reaches (act_of_step options step rfl sound distinct)
      rw [stepped] at reached
      generalize applied : Edit.applyAll options state.request.unnumbered first = outcome
        at reached
      cases reached with
      | state same =>
          subst same
          have kept := Edit.kept_of_applyAll Edit.distinct_of_apply distinct applied
          rcases hypothesis (step.sound sound) kept ran with ⟨later, runs, lastDistinct⟩
          exact ⟨first ++ later, .cons step runs, lastDistinct⟩

/-- Outside all relations the text ends with the edits of what has been begun. -/
theorem finish_of_ends (ends : Ends state.control edits)
    (distinct : state.request.unnumbered.Distinct) (outermost : state.frames = []) :
    (state.finish options).toOption.map Request.unnumbered =
      Edit.applyAll options state.request.unnumbered edits := by
  have attains := attains_endText options ends distinct
  rw [finish]
  generalize state.endText options = result at attains ⊢
  generalize Edit.applyAll options state.request.unnumbered edits = outcome at attains ⊢
  cases attains with
  | built request made =>
      simp only [outermost]
      rfl
  | error fault => rfl

/-- The text can only end outside all relations. -/
theorem frames_of_finish {request : Request} (ends : Ends state.control edits)
    (distinct : state.request.unnumbered.Distinct)
    (finished : state.finish options = .ok request) : state.frames = [] := by
  rw [finish, bind_eq_ok_iff] at finished
  rcases finished with ⟨ended, endsText, finished⟩
  rw [← frames_of_endText ends distinct endsText]
  split at finished
  · rename_i empty
    exact List.isEmpty_iff.mp empty
  · cases finished

end ScanState

section Scan

variable {options : ScanOptions} {text : String}

theorem distinct_start : (ScanState.request {}).unnumbered.Distinct :=
  .blank 0 Request.rootName

/-- A text that makes some edits is scanned into what they make of a blank request, and
is in error if they make nothing of it. -/
theorem scan_of_writes (options : ScanOptions) {edits : List Edit}
    (writes : Writes text.toList edits) :
    (scan options text).toOption.map Request.unnumbered =
      Edit.applyAll options (.blank 0 Request.rootName) edits := by
  cases writes with
  | @intro before after last runs ends outermost =>
      have ran : Reaches last (ScanState.run options {} text.toList)
          (Edit.applyAll options (.blank 0 Request.rootName) before) :=
        ScanState.run_of_runs runs rfl .start distinct_start
      rw [scan, Edit.applyAll_append]
      generalize applied : Edit.applyAll options (.blank 0 Request.rootName) before = outcome
        at ran ⊢
      generalize ScanState.run options {} text.toList = result at ran ⊢
      cases ran with
      | error fault => rfl
      | state same =>
          have distinct := Edit.kept_of_applyAll Edit.distinct_of_apply distinct_start applied
          subst same
          exact ScanState.finish_of_ends ends distinct outermost

theorem applyAll_of_scan {edits : List Edit} {request : Request}
    (writes : Writes text.toList edits) (scanned : scan options text = .ok request) :
    Edit.applyAll options (.blank 0 Request.rootName) edits = some request.unnumbered := by
  rw [← scan_of_writes options writes, scanned]
  rfl

theorem exists_scan_of_applyAll {edits : List Edit} {result : Request}
    (writes : Writes text.toList edits)
    (applied : Edit.applyAll options (.blank 0 Request.rootName) edits = some result) :
    ∃ request, scan options text = .ok request ∧ request.unnumbered = result := by
  have made := scan_of_writes options writes
  rw [applied] at made
  cases scanned : scan options text with
  | error fault =>
      rw [scanned] at made
      cases made
  | ok request =>
      rw [scanned] at made
      cases made
      exact ⟨request, rfl, rfl⟩

/-- Every text that is scanned makes some edits. -/
theorem exists_writes_of_scan {request : Request} (scanned : scan options text = .ok request) :
    ∃ edits, Writes text.toList edits := by
  rw [scan, bind_eq_ok_iff] at scanned
  rcases scanned with ⟨last, ran, finished⟩
  have sound : (ScanState.control {}).Sound := .start
  rcases ScanState.exists_runs_of_run sound distinct_start ran with ⟨before, runs, distinct⟩
  have endsText := finished
  rw [ScanState.finish, bind_eq_ok_iff] at endsText
  rcases endsText with ⟨ended, endsText, _⟩
  rcases ScanState.exists_ends_of_endText (runs.sound sound) endsText with ⟨after, ends⟩
  exact ⟨before ++ after, .intro runs ends (ScanState.frames_of_finish ends distinct finished)⟩

end Scan

end QueryGate
