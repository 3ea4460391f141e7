import QueryGate.Proofs.Arena.Scanned
import QueryGate.Proofs.Expression.Filled
import QueryGate.Proofs.Expression.Text
import QueryGate.Proofs.Scanner.WellFormed

/-!
# What every node asks for

All that a scanned text names has a name, and all that it gives a value to has one that the name
asks for: this holds of every node that the scanner makes, of those it has detached as well. What
carries it through a run is the token. It is a piece of a name wherever a name is read, it has no
brackets where a literal is read, and it is empty where neither is.
-/

namespace QueryGate

open Expression

/-- Nothing that a node asks for lacks a name or a text. -/
structure Terms.Filled (terms : Terms) : Prop extends terms.WellFormed where
  clauses : ∀ row ∈ terms.clauses, row.2 ≠ ""
  fields : ∀ field ∈ terms.fields, IsName field
  distinct : terms.fields.Nodup
  functions : ∀ call ∈ terms.functions, call.Writable
  names : ∀ row ∈ terms.predicates, IsName row.1
  predicates : ∀ row ∈ terms.predicates, row.2.Filled

/-! ### Lists of fields and of functions -/

theorem isName_of_readFields {position : Nat} {text : List Char} {fields : List String}
    (read : readFields position text = .ok fields) :
    (∀ field ∈ fields, IsName field) ∧ fields.Nodup := by
  rw [readFields] at read
  split at read
  · cases read
  · simp only [bind_eq_ok_iff, pure_eq_ok_iff] at read
    obtain ⟨slices, -, names, all, rfl⟩ := read
    refine ⟨fun field member => ?_, nodup_eraseDups names⟩
    obtain ⟨slice, -, found⟩ := exists_of_mem_mapM all (List.mem_eraseDups.mp member)
    exact isName_of_readName found

theorem FunctionCall.writable_of_read {position : Nat} {text : List Char} {call : FunctionCall}
    (read : FunctionCall.read position text = .ok call) : call.Writable := by
  rw [FunctionCall.read] at read
  split at read
  · obtain ⟨name, named, rfl⟩ := map_eq_ok_iff.mp read
    exact ⟨isName_of_readName named, List.forall_mem_nil _⟩
  · split at read
    · cases read
    · simp only [bind_eq_ok_iff] at read
      obtain ⟨name, named, inner, -, read⟩ := read
      split at read
      · cases read
        exact ⟨isName_of_readName named, List.forall_mem_nil _⟩
      · simp only [bind_eq_ok_iff, pure_eq_ok_iff] at read
        obtain ⟨slices, -, names, all, rfl⟩ := read
        refine ⟨isName_of_readName named, fun argument member => ?_⟩
        obtain ⟨slice, -, found⟩ := exists_of_mem_mapM all member
        exact isName_of_readName found

theorem writable_of_readFunctions {position : Nat} {text : List Char}
    {functions : List FunctionCall} (read : readFunctions position text = .ok functions) :
    ∀ call ∈ functions, call.Writable := by
  rw [readFunctions] at read
  split at read
  · cases read
  · obtain ⟨slices, -, all⟩ := bind_eq_ok_iff.mp read
    intro call member
    obtain ⟨slice, -, found⟩ := exists_of_mem_mapM all member
    exact FunctionCall.writable_of_read found

/-! ### Terms -/

namespace Terms.Filled

variable {terms : Terms}

theorem empty : Terms.Filled {} where
  toWellFormed := WellFormed.kept.empty
  clauses := nofun
  fields := nofun
  distinct := .nil
  functions := nofun
  names := nofun
  predicates := nofun

theorem insertClause (filled : terms.Filled) (directive : Clause) {raw : String}
    (written : raw ≠ "") :
    Terms.Filled { terms with clauses := Table.insert directive raw terms.clauses } where
  toWellFormed := WellFormed.kept.clause directive filled.toWellFormed written
  clauses := by
    intro row member
    obtain rfl | old := Table.mem_insert member
    · exact written
    · exact filled.clauses row old
  fields := filled.fields
  distinct := filled.distinct
  functions := filled.functions
  names := filled.names
  predicates := filled.predicates

theorem setFields (filled : terms.Filled) {position : Nat} {text : List Char}
    {fields : List String} (read : readFields position text = .ok fields) :
    Terms.Filled { terms with fields := fields } where
  toWellFormed := WellFormed.kept.fields filled.toWellFormed read
  clauses := filled.clauses
  fields := (isName_of_readFields read).1
  distinct := (isName_of_readFields read).2
  functions := filled.functions
  names := filled.names
  predicates := filled.predicates

theorem addFunctions (filled : terms.Filled) {position : Nat} {text : List Char}
    {functions : List FunctionCall} (read : readFunctions position text = .ok functions) :
    Terms.Filled { terms with functions := terms.functions ++ functions } where
  toWellFormed := WellFormed.kept.functions filled.toWellFormed read
  clauses := filled.clauses
  fields := filled.fields
  distinct := filled.distinct
  functions := List.forall_mem_append.mpr ⟨filled.functions, writable_of_readFunctions read⟩
  names := filled.names
  predicates := filled.predicates

theorem insertPredicate (filled : terms.Filled) {name : String} {condition : Expression}
    (named : IsName name) (form : HasForm (.entry name) condition) (whole : condition.Filled) :
    Terms.Filled
      { terms with predicates := Table.insert name condition terms.predicates } where
  toWellFormed := filled.toWellFormed.insertPredicate form
  clauses := filled.clauses
  fields := filled.fields
  distinct := filled.distinct
  functions := filled.functions
  names := by
    intro row member
    obtain rfl | old := Table.mem_insert member
    · exact named
    · exact filled.names row old
  predicates := by
    intro row member
    obtain rfl | old := Table.mem_insert member
    · exact whole
    · exact filled.predicates row old

end Terms.Filled

/-! ### Arenas -/

namespace Arena

/-- Every node has a name, and nothing that it asks for lacks one. -/
def Filled (arena : Arena) : Prop := ∀ node ∈ arena.nodes, IsName node.name ∧ node.terms.Filled

variable {arena : Arena}

theorem Filled.start : Arena.start.Filled := by
  intro node member
  cases List.mem_singleton.mp member
  exact ⟨by decide, .empty⟩

theorem Filled.update (filled : arena.Filled) (change : ArenaNode → ArenaNode)
    (kept : ∀ node : ArenaNode, IsName node.name → node.terms.Filled →
      IsName (change node).name ∧ (change node).terms.Filled) (id : Nat) :
    (arena.update change id).Filled := by
  intro node member
  obtain ⟨place, found⟩ := List.mem_iff_getElem?.mp member
  change (arena.update change id).node? place = some node at found
  rw [node?_update] at found
  split at found
  · obtain ⟨old, foundOld, rfl⟩ := Option.map_eq_some_iff.mp found
    obtain ⟨named, terms⟩ := filled old (List.mem_of_getElem? foundOld)
    exact kept old named terms
  · exact filled node (List.mem_of_getElem? found)

theorem Filled.updateTerms {change : Terms → Terms} (filled : arena.Filled)
    (kept : ∀ terms : Terms, terms.Filled → (change terms).Filled) (id : Nat) :
    (arena.updateTerms change id).Filled := by
  refine filled.update _ ?_ id
  exact fun node named terms => ⟨named, kept node.terms terms⟩

theorem Filled.addInclude (filled : arena.Filled) {name : String} (named : IsName name)
    (parent : Nat) : (arena.addInclude parent name).1.Filled := by
  have pushed : (arena.push ⟨name, some parent, {}, []⟩).Filled := by
    refine List.forall_mem_append.mpr ⟨filled, ?_⟩
    intro node member
    cases List.mem_singleton.mp member
    exact ⟨named, .empty⟩
  refine pushed.update _ ?_ parent
  exact fun _ named terms => ⟨named, terms⟩

theorem Filled.detachInclude (filled : arena.Filled) (parent child : Nat) :
    (arena.detachInclude parent child).Filled := by
  refine filled.update _ ?_ parent
  exact fun _ named terms => ⟨named, terms⟩

end Arena

/-! ### Scanning -/

/-- The token can be what the mode reads. -/
def ArenaMode.Admits (token : String) : ArenaMode → Prop
  | .name | .relations _ => ∀ char ∈ token.toList, isSeparator char = false
  | .value (.predicate field) => IsName field ∧ IsPlain token.toList
  | .value _ => True
  | .call capture => token = "" ∧ ∀ field, capture.target = .predicate field → IsName field
  | .afterCall => token = ""

namespace ArenaState

/-- All nodes are filled, and the token goes with the mode. -/
structure Filled (state : ArenaState) : Prop where
  nodes : state.arena.Filled
  token : state.mode.Admits state.token

/-- All nodes are filled, and nothing has been begun. -/
structure Rested (state : ArenaState) : Prop where
  nodes : state.arena.Filled
  token : state.token = ""

variable {options : ScanOptions} {state next : ArenaState} {char : Char}

theorem Filled.start : ArenaState.Filled {} := ⟨.start, by simp [ArenaMode.Admits]⟩

theorem Rested.admits_name (rested : state.Rested) : ArenaMode.name.Admits state.token := by
  simp [ArenaMode.Admits, rested.token]

theorem isName_of_admits (admits : ∀ char ∈ state.token.toList, isSeparator char = false)
    (written : ¬state.token.isEmpty = true) : IsName state.token :=
  ⟨by simpa using written, admits⟩

theorem admits_push {test : Char → Bool}
    (admits : ∀ char ∈ state.token.toList, test char = false) (plain : test char = false) :
    ∀ other ∈ (state.token.push char).toList, test other = false := by
  rw [String.toList_push]
  exact List.forall_mem_append.mpr ⟨admits, by simpa using plain⟩

theorem Rested.enterName (rested : state.Rested) : (state.enter .name).Filled :=
  ⟨rested.nodes, rested.admits_name⟩

theorem Rested.closeRelation (rested : state.Rested) (closed : state.closeRelation = .ok next) :
    next.Filled := by
  rw [ArenaState.closeRelation] at closed
  split at closed
  · cases closed
  · cases closed
    exact ⟨rested.nodes, rested.admits_name⟩

theorem rested_of_attach {parent child : Nat} (nodes : state.arena.Filled)
    (named : IsName state.token) (attached : state.attach options parent = .ok (next, child)) :
    next.Rested := by
  rw [attach, bind_eq_ok_iff] at attached
  obtain ⟨⟨arena, id⟩, found, attached⟩ := attached
  have filled : arena.Filled := by
    rw [attachTo] at found
    split at found
    · cases found
      exact nodes.addInclude named parent
    · cases found
      exact nodes
    · cases found
      exact (nodes.detachInclude parent _).addInclude named parent
    · cases found
  dsimp only at attached
  split at attached
  · cases attached
  · cases attached
    exact ⟨filled, rfl⟩

theorem rested_of_endRelation {place : ArenaPlace} (nodes : state.arena.Filled)
    (admits : (ArenaMode.relations place).Admits state.token)
    (ended : state.endRelation options place = .ok next) : next.Rested := by
  rw [endRelation] at ended
  split at ended
  · rename_i written
    obtain ⟨⟨attached, child⟩, found, rfl⟩ := map_eq_ok_iff.mp ended
    exact rested_of_attach nodes (isName_of_admits admits (by simpa using written)) found
  · rename_i empty
    split at ended
    · cases ended
    · cases ended
      exact ⟨nodes, by simpa using empty⟩

theorem rested_of_endValue {parameter : Parameter} (nodes : state.arena.Filled)
    (admits : (ArenaMode.value parameter).Admits state.token)
    (ended : state.endValue parameter = .ok next) : next.Rested := by
  cases parameter with
  | clause directive =>
      simp only [endValue] at ended
      split at ended
      · cases ended
      · rename_i written
        cases ended
        refine ⟨nodes.updateTerms (fun terms filled => ?_) _, rfl⟩
        exact filled.insertClause directive (by simpa using written)
  | fields =>
      simp only [endValue, bind_eq_ok_iff, pure_eq_ok_iff] at ended
      obtain ⟨fields, read, rfl⟩ := ended
      exact ⟨nodes.updateTerms (fun terms filled => filled.setFields read) _, rfl⟩
  | functions =>
      simp only [endValue, bind_eq_ok_iff, pure_eq_ok_iff] at ended
      obtain ⟨functions, read, rfl⟩ := ended
      exact ⟨nodes.updateTerms (fun terms filled => filled.addFunctions read) _, rfl⟩
  | predicate name =>
      obtain ⟨named, plain⟩ := admits
      cases ended
      refine ⟨nodes.updateTerms (fun terms filled => ?_) _, rfl⟩
      exact filled.insertPredicate named (.ofValue name (.literal state.token)) (.literal plain)

theorem filled_of_endCall {capture : Capture} (nodes : state.arena.Filled)
    (admits : (ArenaMode.call capture).Admits state.token)
    (ended : state.endCall capture = .ok next) : next.Filled := by
  obtain ⟨empty, target⟩ := admits
  rw [endCall] at ended
  split at ended
  case h_1 name same =>
    simp only [bind_eq_ok_iff, pure_eq_ok_iff] at ended
    obtain ⟨condition, read, rfl⟩ := ended
    refine ⟨nodes.updateTerms (fun terms filled => ?_) _, empty⟩
    exact filled.insertPredicate (target name same) (.ofValue name (hasForm_readValue read))
      (filled_readValue read)
  case h_2 =>
    simp only [bind_eq_ok_iff, pure_eq_ok_iff] at ended
    obtain ⟨⟨joining, condition⟩, read, rfl⟩ := ended
    refine ⟨nodes.updateTerms (fun terms filled => ?_) _, empty⟩
    exact filled.insertPredicate joining.isName_word (.ofGroup (hasForm_readGroup read))
      (filled_readGroup read)
  case h_3 =>
    cases ended
    exact ⟨nodes, trivial⟩

theorem admits_modeOfName (state : ArenaState) {name : String} (named : IsName name) :
    (state.modeOfName name).Admits "" := by
  rw [modeOfName]
  split
  · simp [ArenaMode.Admits]
  · trivial
  · trivial
  · trivial
  · exact ⟨named, by simp [IsPlain]⟩

theorem filled_of_nameChar (nodes : state.arena.Filled)
    (admits : ArenaMode.name.Admits state.token) (reading : state.mode = .name)
    (stepped : state.nameChar char = .ok next) : next.Filled := by
  unfold nameChar at stepped
  split at stepped
  case h_1 =>
    split at stepped
    · cases stepped
    · rename_i written
      cases stepped
      exact ⟨nodes, admits_modeOfName state (isName_of_admits admits written)⟩
  case h_2 =>
    split at stepped
    · cases stepped
      exact ⟨nodes, rfl, nofun⟩
    · cases stepped
  case h_3 =>
    split at stepped
    · cases stepped
      rw [← reading] at admits
      exact ⟨nodes, admits⟩
    · cases stepped
  case h_4 =>
    split at stepped
    · rename_i empty
      exact Rested.closeRelation ⟨nodes, by simpa using empty⟩ stepped
    · cases stepped
  iterate 4 cases stepped
  case h_9 =>
    cases stepped
    refine ⟨nodes, ?_⟩
    rw [push, reading]
    exact admits_push admits (by grind [isSeparator, isBracket, isOpener, isCloser])

theorem filled_of_valueChar {parameter : Parameter} (filled : state.Filled)
    (reading : state.mode = .value parameter)
    (stepped : state.valueChar parameter char = .ok next) : next.Filled := by
  have admits := filled.token
  rw [reading] at admits
  unfold valueChar at stepped
  split at stepped
  case h_1 =>
    simp only [bind_eq_ok_iff, pure_eq_ok_iff] at stepped
    obtain ⟨ended, ends, rfl⟩ := stepped
    exact (rested_of_endValue filled.nodes admits ends).enterName
  case h_2 =>
    obtain ⟨ended, ends, closed⟩ := bind_eq_ok_iff.mp stepped
    obtain ⟨nodes, empty⟩ := rested_of_endValue filled.nodes admits ends
    exact Rested.closeRelation ⟨nodes, empty⟩ closed
  case h_3 =>
    split at stepped
    · rename_i target found
      cases stepped
      refine ⟨filled.nodes, rfl, ?_⟩
      intro name same
      cases same
      cases parameter with
      | predicate other =>
          obtain ⟨_, -, same⟩ := Option.map_eq_some_iff.mp found
          cases same
          exact admits.1
      | functions =>
          rw [callTarget?] at found
          split at found <;> cases found
      | _ => cases found
    · cases stepped
  case h_4 =>
    split at stepped
    · split at stepped
      · cases stepped
        refine ⟨filled.nodes, rfl, ?_⟩
        intro name same
        cases same
        exact admits.1
      · cases stepped
    · cases stepped
  iterate 2 cases stepped
  case h_7 =>
    cases stepped
    refine ⟨filled.nodes, ?_⟩
    rw [push, reading]
    cases parameter with
    | predicate name =>
        exact ⟨admits.1, admits_push admits.2 (by grind [isBracket, isOpener, isCloser])⟩
    | _ => trivial

theorem filled_of_relationChar {place : ArenaPlace} (nodes : state.arena.Filled)
    (admits : (ArenaMode.relations place).Admits state.token)
    (reading : state.mode = .relations place)
    (stepped : state.relationChar options place char = .ok next) : next.Filled := by
  unfold relationChar at stepped
  split at stepped
  case h_1 =>
    split at stepped
    · split at stepped <;> cases stepped
    · rename_i written
      simp only [bind_eq_ok_iff, pure_eq_ok_iff] at stepped
      obtain ⟨⟨attached, relation⟩, found, rfl⟩ := stepped
      have rested := rested_of_attach nodes (isName_of_admits admits written) found
      exact ⟨rested.nodes, rested.admits_name⟩
  case h_2 =>
    split at stepped
    · rename_i written
      simp only [bind_eq_ok_iff, pure_eq_ok_iff] at stepped
      obtain ⟨⟨attached, relation⟩, found, rfl⟩ := stepped
      have rested := rested_of_attach nodes (isName_of_admits admits (by simpa using written)) found
      exact ⟨rested.nodes, rested.admits_name⟩
    · split at stepped
      · cases stepped
        exact ⟨nodes, admits⟩
      · cases stepped
  case h_3 =>
    simp only [bind_eq_ok_iff, pure_eq_ok_iff] at stepped
    obtain ⟨ended, ends, rfl⟩ := stepped
    have rested := rested_of_endRelation nodes admits ends
    exact ⟨rested.nodes, rested.admits_name⟩
  case h_4 =>
    simp only [bind_eq_ok_iff, pure_eq_ok_iff] at stepped
    obtain ⟨ended, ends, rfl⟩ := stepped
    have rested := rested_of_endRelation nodes admits ends
    exact ⟨rested.nodes, rested.admits_name⟩
  case h_5 =>
    obtain ⟨ended, ends, closed⟩ := bind_eq_ok_iff.mp stepped
    obtain ⟨nodes, empty⟩ := rested_of_endRelation nodes admits ends
    exact Rested.closeRelation ⟨nodes, empty⟩ closed
  iterate 3 cases stepped
  case h_9 =>
    split at stepped
    · cases stepped
    · cases stepped
      refine ⟨nodes, ?_⟩
      rw [push, reading]
      exact admits_push admits (by grind [isSeparator, isBracket, isOpener, isCloser])

theorem filled_of_callChar {capture : Capture} (nodes : state.arena.Filled)
    (admits : (ArenaMode.call capture).Admits state.token)
    (stepped : state.callChar options capture char = .ok next) : next.Filled := by
  rw [callChar] at stepped
  split at stepped
  · split at stepped
    · cases stepped
    · cases stepped
      exact ⟨nodes, admits⟩
  · split at stepped
    · split at stepped
      · cases stepped
      · split at stepped
        · have admitsText : (ArenaMode.call { capture with
              text := capture.text.push char }).Admits state.token := admits
          exact filled_of_endCall nodes admitsText stepped
        · cases stepped
          exact ⟨nodes, admits⟩
    · cases stepped
      exact ⟨nodes, admits⟩

theorem filled_of_afterCallChar (rested : state.Rested)
    (stepped : state.afterCallChar char = .ok next) : next.Filled := by
  unfold afterCallChar at stepped
  split at stepped
  · cases stepped
    exact rested.enterName
  · exact Rested.closeRelation ⟨rested.nodes, rested.token⟩ stepped
  · cases stepped

theorem Filled.act (filled : state.Filled) (acted : state.act options char = .ok next) :
    next.Filled := by
  have admits := filled.token
  rw [ArenaState.act] at acted
  split at acted
  case h_1 mode =>
    rw [mode] at admits
    exact filled_of_nameChar filled.nodes admits mode acted
  case h_2 parameter mode => exact filled_of_valueChar filled mode acted
  case h_3 place mode =>
    rw [mode] at admits
    exact filled_of_relationChar filled.nodes admits mode acted
  case h_4 capture mode =>
    rw [mode] at admits
    exact filled_of_callChar filled.nodes admits acted
  case h_5 mode =>
    rw [mode] at admits
    exact filled_of_afterCallChar ⟨filled.nodes, admits⟩ acted

theorem Filled.step (filled : state.Filled) (stepped : state.step options char = .ok next) :
    next.Filled := by
  obtain ⟨acted, acts, rfl⟩ := map_eq_ok_iff.mp stepped
  obtain ⟨nodes, token⟩ := filled.act acts
  exact ⟨nodes, token⟩

/-- What holds of the nodes and the token holds after every text. -/
theorem Filled.run {rest : List Char} (filled : state.Filled)
    (ran : run options state rest = .ok next) : next.Filled := by
  induction rest generalizing state with
  | nil =>
      cases ran
      exact filled
  | cons char rest hypothesis =>
      obtain ⟨stepped, steps, ran⟩ := bind_eq_ok_iff.mp ran
      exact hypothesis (filled.step steps) ran

theorem Filled.endText (filled : state.Filled) (ended : state.endText options = .ok next) :
    next.arena.Filled := by
  have admits := filled.token
  rw [ArenaState.endText] at ended
  split at ended
  case h_1 =>
    split at ended
    · cases ended
      exact filled.nodes
    · cases ended
  case h_2 parameter mode =>
    rw [mode] at admits
    exact (rested_of_endValue filled.nodes admits ended).nodes
  case h_3 place mode =>
    rw [mode] at admits
    exact (rested_of_endRelation filled.nodes admits ended).nodes
  case h_4 => cases ended
  case h_5 =>
    cases ended
    exact filled.nodes

end ArenaState

theorem filled_scanArena {options : ScanOptions} {text : String} {arena : Arena}
    (scanned : scanArena options text = .ok arena) : arena.Filled := by
  rw [scanArena, bind_eq_ok_iff] at scanned
  obtain ⟨state, ran, finished⟩ := scanned
  rw [ArenaState.finish, bind_eq_ok_iff] at finished
  obtain ⟨last, ended, finished⟩ := finished
  have nodes := (ArenaState.Filled.start.run ran).endText ended
  split at finished
  · cases finished
    exact nodes
  · cases finished

/-! ### Requests -/

/-- What is reached in a request that an arena stores is found along its path. -/
theorem Arena.Stores.at?_of_node {arena : Arena} {request start node : Request} {base path : Path}
    (stores : arena.Stores request) (found : request.at? base = some start)
    (reached : start.Node path node) : request.at? (base ++ path) = some node := by
  induction reached generalizing base with
  | root => rwa [List.append_nil]
  | @child start child node path member _ hypothesis =>
      have below := hypothesis (stores.at?_of_mem found member)
      rwa [List.append_assoc] at below

/-- What a text is scanned into is filled: every node of the request, and every node of the arena
that the request is stored in. -/
theorem filled_of_scan {options : ScanOptions} {text : String} {request : Request}
    (scanned : scan options text = .ok request) :
    (∃ arena, scanArena options text = .ok arena ∧ arena.request? 0 = some request ∧
      arena.Filled) ∧
    ∀ path node, request.Node path node → IsName node.name ∧ node.terms.Filled := by
  have together := together_scan options text
  rw [scanned] at together
  generalize scannedArena : scanArena options text = result at together
  cases together with
  | @ok _ arena represents =>
      have filled := filled_scanArena scannedArena
      refine ⟨⟨arena, rfl, represents.request?_root, filled⟩, ?_⟩
      intro path node reached
      have root : request.at? [] = some request := rfl
      have found := represents.stores.at?_of_node root reached
      obtain ⟨parent, entry⟩ := represents.stores.nodes found
      exact filled _ (List.mem_of_getElem? entry)

theorem filled_of_scan_nested :
    let text := "includes=tags(not(a=&b=like(x)))&x=and(in(1),!(y))"
    let negated : Expression := .not (.group [("a", .literal ""), ("b", .like "x")])
    let both : Expression := .and [.oneOf ["1"], .not (.literal "y")]
    let tags : Request := ⟨1, "tags", { predicates := [("not", negated)] }, []⟩
    let request : Request := ⟨0, "root", { predicates := [("x", both)] }, [tags]⟩
    scan {} text = .ok request ∧ request.terms.Filled ∧ IsName tags.name ∧ tags.terms.Filled := by
  intro text negated both tags request
  have scanned : scan {} text = .ok request := by cbv
  obtain ⟨-, each⟩ := filled_of_scan scanned
  have below : request.Node ["tags"] tags := .child List.mem_cons_self (.root tags)
  exact ⟨scanned, (each [] request (.root request)).2, each ["tags"] tags below⟩

end QueryGate
