import Mathlib
import QueryGate.Proofs.Request.Turns
import QueryGate.Proofs.Scanner.Chain
import QueryGate.Proofs.Scanner.Concatenation
import QueryGate.Proofs.Scanner.Parameters

/-!
# Writing requests

Every request whose names and texts can be written has a query: its parameters between `&`, one
list of relations among them, and in the parentheses of a relation the query of that relation.
The query is scanned into the request, whatever is to happen to relations that are repeated.
-/

namespace QueryGate

open Control

/-- A parameter with its value. -/
def parameterText (name : String) (value : List Char) : List Char := name.toList ++ '=' :: value

/-- A parameter whose value is a list, if there is anything in the list. -/
def listParameter (name : String) (items : List (List Char)) : List (List Char) :=
  if items = [] then [] else [parameterText name (commas items)]

namespace Terms

/-- What can be asked of one entity in a query with so many brackets open at a time. -/
structure Writable (depth : Nat) (terms : Terms) : Prop where
  sorted : terms.Sorted
  clauses : ∀ row ∈ terms.clauses, IsName row.2
  fields : ∀ field ∈ terms.fields, IsName field
  distinct : terms.fields.Nodup
  functions : ∀ call ∈ terms.functions, call.Writable
  predicates : ∀ row ∈ terms.predicates,
    Reserved.ofName? row.1 = none ∧ row.2.Writable depth (.entry row.1)

/-- The parameters as they are written. -/
def texts (terms : Terms) : List (List Char) :=
  terms.clauses.map (fun row => parameterText row.1.name row.2.toList) ++
    listParameter "fields" (terms.fields.map String.toList) ++
    terms.predicates.map (fun row => entryText (Expression.entry row)) ++
    listParameter "functions" (terms.functions.map FunctionCall.text)

end Terms

/-- A relation, and in parentheses what is asked of it, if anything is. -/
def relationText (name : String) (query : List Char) : List Char :=
  if query = [] then name.toList else called name query

namespace Request

mutual

/-- What is written for a request. -/
def query : Request → List Char
  | ⟨_, _, terms, includes⟩ =>
      joined (terms.texts ++ listParameter "includes" (relationTexts includes))

/-- What is written for each of several relations. -/
def relationTexts : List Request → List (List Char)
  | [] => []
  | child :: rest => relationText child.name child.query :: relationTexts rest

end

/-- The requests that can be written with so many brackets of a call open at a time and with so
many levels of relations. -/
inductive Writable (depth : Nat) : Nat → Request → Prop where
  | leaf {number : Nat} {name : String} {terms : Terms} (room : Nat) :
      terms.Writable depth → Writable depth room ⟨number, name, terms, []⟩
  | node {room number : Nat} {name : String} {terms : Terms} {includes : List Request} :
      terms.Writable depth → (includes.map Request.name).Nodup →
      (∀ child ∈ includes, IsName child.name) →
      (∀ child ∈ includes, Writable depth room child) →
      Writable depth (room + 1) ⟨number, name, terms, includes⟩

end Request

/-- Brackets that are not too deep are no hindrance to a change of the terms. -/
theorem Control.Nests.turns_assign {options : ScanOptions} {edits : List Edit}
    (nests : Nests options.maxDepth edits) (room : Nat) (before : Request)
    (change : Terms.Change) :
    Edit.Turns options (edits ++ [.assign [] change]) room before
      { before with terms := change.apply before.terms } := by
  have shallow : ∀ edit ∈ edits, ∃ depth ≤ options.maxDepth, edit = .nest depth := by
    intro edit member
    obtain ⟨depth, -, small, same⟩ := nests edit member
    exact ⟨depth, small, same⟩
  exact (Edit.Turns.nests room before shallow).append (.assign options room before change)

/-- The parameters with these texts make one request of another, where there is room for so
many levels of relations. -/
inductive Builds (options : ScanOptions) (room : Nat) :
    List (List Char) → Request → Request → Prop where
  | nil (request : Request) : Builds options room [] request request
  | cons {text : List Char} {edits : List Edit} {texts : List (List Char)}
      {before middle after : Request} :
      Writes text edits → Edit.Turns options edits room before middle →
      Builds options room texts middle after → Builds options room (text :: texts) before after

namespace Builds

variable {options : ScanOptions} {room : Nat} {texts more : List (List Char)}
  {before middle after : Request}

theorem single {text : List Char} {edits : List Edit} (writes : Writes text edits)
    (turns : Edit.Turns options edits room before after) :
    Builds options room [text] before after :=
  .cons writes turns (.nil after)

theorem append (first : Builds options room texts before middle)
    (later : Builds options room more middle after) :
    Builds options room (texts ++ more) before after := by
  induction first with
  | nil => exact later
  | cons writes turns _ hypothesis => exact .cons writes turns (hypothesis later)

/-- With `&` between them the parameters make the same of the request. -/
theorem exists_writes (builds : Builds options room texts before after) :
    ∃ edits, Writes (joined texts) edits ∧ Edit.Turns options edits room before after := by
  induction builds with
  | nil request => exact ⟨[], .intro (.nil _) (.name [] []) rfl, .nil options room request⟩
  | @cons text edits texts before middle after writes turns rest hypothesis =>
      cases rest with
      | nil => exact ⟨edits, by rwa [joined_single], turns⟩
      | cons =>
          obtain ⟨later, writesLater, turnsLater⟩ := hypothesis
          have both := writes.append writesLater
          rw [joined_cons_cons]
          exact ⟨edits ++ later, by simpa using both, turns.append turnsLater⟩

/-- A parameter that makes a change of the terms behind some brackets. -/
theorem change {text : List Char} {edits : List Edit} {change : Terms.Change}
    (nests : Nests options.maxDepth edits) (writes : Writes text (edits ++ [.assign [] change]))
    (before : Request) :
    Builds options room [text] before { before with terms := change.apply before.terms } :=
  single writes (nests.turns_assign room before change)

/-- Parameters that make one change each make all the changes. -/
theorem changes {ρ : Type} {text : ρ → List Char} {change : ρ → Terms.Change} {rows : List ρ}
    (each : ∀ row ∈ rows, ∃ edits, Nests options.maxDepth edits ∧
      Writes (text row) (edits ++ [.assign [] (change row)])) (before : Request) :
    Builds options room (rows.map text) before
      { before with terms := rows.foldl (fun terms row => (change row).apply terms) before.terms } := by
  induction rows generalizing before with
  | nil =>
      cases before
      exact .nil _
  | cons row rest hypothesis =>
      obtain ⟨⟨edits, nests, writes⟩, others⟩ := List.forall_mem_cons.mp each
      exact (Builds.change nests writes before).append (hypothesis others _)

/-- A list of nothing is not written, and changes nothing. -/
theorem list {name : String} {items : List (List Char)} (nothing : items = [] → before = after)
    (something : items ≠ [] →
      Builds options room [parameterText name (commas items)] before after) :
    Builds options room (listParameter name items) before after := by
  rw [listParameter]
  by_cases none : items = []
  · rw [if_pos none, nothing none]
    exact .nil _
  · rw [if_neg none]
    exact something none

/-! ### The parameters of a node -/

theorem foldl_clauses (terms : Terms) (rows : Table Clause String) :
    rows.foldl (fun terms row => (Terms.Change.clause row.1 row.2).apply terms) terms =
      { terms with clauses := Table.override terms.clauses rows } := by
  induction rows generalizing terms with
  | nil => rfl
  | cons row rest hypothesis =>
      rw [List.foldl_cons, hypothesis]
      rfl

theorem foldl_predicates (terms : Terms) (rows : Table String Expression) :
    rows.foldl (fun terms row => (Terms.Change.predicate row.1 row.2).apply terms) terms =
      { terms with predicates := Table.override terms.predicates rows } := by
  induction rows generalizing terms with
  | nil => rfl
  | cons row rest hypothesis =>
      rw [List.foldl_cons, hypothesis]
      rfl

/-- The parameters of a node make its terms of none. -/
theorem terms {terms : Terms} (writable : terms.Writable options.maxDepth) (number : Nat)
    (name : String) :
    Builds options room terms.texts (.blank number name) ⟨number, name, terms, []⟩ := by
  obtain ⟨fields, clauses, predicates, functions⟩ := terms
  have clausesBuilt : Builds options room
      (clauses.map fun row => parameterText row.1.name row.2.toList) ⟨number, name, {}, []⟩
      ⟨number, name, ⟨[], clauses, [], []⟩, []⟩ := by
    have same : Table.override [] clauses = clauses :=
      Table.ofRows_eq_self writable.sorted.clauses
    have folded := foldl_clauses {} clauses
    rw [same] at folded
    rw [← folded]
    apply changes
    intro row member
    exact ⟨[], .nil _, writes_clause row.1 (writable.clauses row member)⟩
  have fieldsBuilt : Builds options room (listParameter "fields" (fields.map String.toList))
      ⟨number, name, ⟨[], clauses, [], []⟩, []⟩
      ⟨number, name, ⟨fields, clauses, [], []⟩, []⟩ := by
    apply list
    · intro none
      rw [List.map_eq_nil_iff.mp none]
    · intro some
      have written : fields ≠ [] := by simpa using some
      exact change (.nil _) (writes_fields written writable.fields writable.distinct) _
  have predicatesBuilt : Builds options room
      (predicates.map fun row => entryText (Expression.entry row))
      ⟨number, name, ⟨fields, clauses, [], []⟩, []⟩
      ⟨number, name, ⟨fields, clauses, predicates, []⟩, []⟩ := by
    have same : Table.override [] predicates = predicates :=
      Table.ofRows_eq_self writable.sorted.predicates
    have folded := foldl_predicates ⟨fields, clauses, [], []⟩ predicates
    simp only [same] at folded
    rw [← folded]
    apply changes
    intro row member
    obtain ⟨free, writableRow⟩ := writable.predicates row member
    exact exists_writes_entry writableRow free
  have functionsBuilt : Builds options room
      (listParameter "functions" (functions.map FunctionCall.text))
      ⟨number, name, ⟨fields, clauses, predicates, []⟩, []⟩
      ⟨number, name, ⟨fields, clauses, predicates, functions⟩, []⟩ := by
    apply list
    · intro none
      rw [List.map_eq_nil_iff.mp none]
    · intro some
      have written : functions ≠ [] := by simpa using some
      exact change (.nil _) (writes_functions written writable.functions) _
  exact ((clausesBuilt.append fieldsBuilt).append predicatesBuilt).append functionsBuilt

end Builds

/-! ### The relations of a node -/

namespace Request

variable {options : ScanOptions} {room : Nat} {before child : Request} {inner : List Edit}

/-- What is put in place of a child that was just added is added in its place. -/
theorem update_addChild (absent : before.child? child.name = none) :
    (addChild (.blank 0 child.name) before).update (put child) [child.name] =
      addChild child before := by
  have others : before.includes.map (onWay (put child) child.name []) = before.includes := by
    rw [child?_eq_none_iff] at absent
    conv_rhs => rw [← List.map_id before.includes]
    apply List.map_congr_left
    intro other member
    rw [onWay, if_neg (by simpa using absent other member)]
    rfl
  have added : onWay (put child) child.name [] (.blank 0 child.name) = child := by
    rw [onWay, if_pos (by simp)]
    exact put_of_name rfl
  rw [update_cons, addChild, addChild, List.map_append, List.map_singleton, others, added]

/-- A relation and its query add the relation. -/
theorem turns_addChild {name : String} (named : child.name = name)
    (absent : before.child? name = none)
    (turns : Edit.Turns options inner room (.blank 0 name) child) :
    Edit.Turns options (.attach [] name :: inner.map (Edit.under [name])) (room + 1)
      before (addChild child before) := by
  subst named
  have found : (addChild (.blank 0 child.name) before).child? child.name =
      some (.blank 0 child.name) := by
    rw [child?, addChild, List.find?_append, ← child?, absent]
    simp
  have filled := Edit.Turns.within found turns
  rw [update_addChild absent] at filled
  exact (Edit.Turns.attach absent).append filled

/-- Where nothing is written, nothing is asked. -/
theorem eq_nil_of_writes (writes : Writes [] inner) : inner = [] := by
  cases writes with
  | intro runs ends outermost =>
      cases runs
      cases ends
      rfl

/-- A relation is spelled with its query, and makes the edits of the query below it. -/
theorem spells_relationText {name : String} {query : List Char} (named : IsName name)
    (writes : Writes query inner) :
    Spells [] [] [] (relationText name query)
      (.attach [] name :: inner.map (Edit.under [name])) := by
  by_cases nothing : query = []
  · have asked : Link.InnerWrites ⟨name, none⟩ inner := eq_nil_of_writes (nothing ▸ writes)
    have spelled := Link.spells [] [] [] named asked
    rw [relationText, if_pos nothing]
    exact spelled
  · have asked : Link.InnerWrites ⟨name, some (String.ofList query)⟩ inner := by
      change Writes (String.ofList query).toList inner
      rwa [String.toList_ofList]
    have spelled := Link.spells [] [] [] named asked
    have text : (Link.text ⟨name, some (String.ofList query)⟩).toList = called name query := by
      simp [Link.text, called]
    rw [relationText, if_neg nothing, ← text]
    exact spelled

theorem relationTexts_eq_nil {children : List Request} (none : relationTexts children = []) :
    children = [] := by
  cases children with
  | nil => rfl
  | cons child rest => simp [relationTexts] at none

/-- A list of relations adds each of them. -/
theorem exists_spells_relations {children : List Request} (some : children ≠ [])
    (named : ∀ child ∈ children, IsName child.name)
    (distinct : (children.map Request.name).Nodup)
    (absent : ∀ child ∈ children, before.child? child.name = none)
    (each : ∀ child ∈ children, ∃ edits, Writes child.query edits ∧
      Edit.Turns options edits room (.blank 0 child.name) child.unnumbered) :
    ∃ edits, Spells [] [] [] (commas (relationTexts children)) edits ∧
      Edit.Turns options edits (room + 1) before
        { before with includes := before.includes ++ children.map unnumbered } := by
  induction children generalizing before with
  | nil => exact absurd rfl some
  | cons child rest hypothesis =>
      rw [List.forall_mem_cons] at named absent each
      obtain ⟨fresh, distinctRest⟩ := List.nodup_cons.mp distinct
      obtain ⟨inner, writes, turns⟩ := each.1
      have spelled := spells_relationText named.1 writes
      have added := turns_addChild (name_unnumbered child) absent.1 turns
      cases rest with
      | nil =>
          refine ⟨_, by rwa [relationTexts, relationTexts, commas_single], ?_⟩
          simpa [addChild] using added
      | cons next rest =>
          have absentRest : ∀ other ∈ next :: rest,
              (addChild child.unnumbered before).child? other.name = none := by
            intro other member
            rw [child?_eq_none_iff, addChild, List.forall_mem_append]
            refine ⟨child?_eq_none_iff.mp (absent.2 other member), ?_⟩
            rw [List.forall_mem_singleton, name_unnumbered]
            intro same
            exact fresh (same ▸ List.mem_map_of_mem member)
          obtain ⟨edits, spells, turnsRest⟩ := hypothesis (List.cons_ne_nil _ _) named.2
            distinctRest absentRest each.2
          have listed := spells.append spelled.next
          have both := added.append turnsRest
          refine ⟨_, ?_, by simpa [addChild] using both⟩
          rw [relationTexts, relationTexts, commas_cons_cons, ← relationTexts]
          simpa using listed

/-- The query of a request makes the request of a blank one. -/
theorem Writable.exists_writes {request : Request}
    (writable : Writable options.maxDepth room request) :
    ∃ edits, Writes request.query edits ∧
      Edit.Turns options edits room (.blank 0 request.name) request.unnumbered := by
  induction writable with
  | @leaf number name terms room written =>
      obtain ⟨edits, writes, turns⟩ := (Builds.terms written 0 name).exists_writes
      refine ⟨edits, ?_, turns⟩
      rwa [query, relationTexts, listParameter, if_pos rfl, List.append_nil]
  | @node room number name terms includes written distinct named _ hypothesis =>
      have own : Builds options (room + 1) terms.texts (.blank 0 name) ⟨0, name, terms, []⟩ :=
        .terms written 0 name
      have listed : Builds options (room + 1) (listParameter "includes" (relationTexts includes))
          ⟨0, name, terms, []⟩ ⟨0, name, terms, includes.map unnumbered⟩ := by
        apply Builds.list
        · intro none
          rw [relationTexts_eq_nil none, List.map_nil]
        · intro some
          have children : includes ≠ [] := fun none => some (by rw [none, relationTexts])
          obtain ⟨edits, spells, turns⟩ := exists_spells_relations children named distinct
            (fun _ _ => rfl : ∀ child ∈ includes,
              (⟨0, name, terms, []⟩ : Request).child? child.name = none) hypothesis
          have text : parameterText "includes" (commas (relationTexts includes)) =
              ("includes=" ++ String.ofList (commas (relationTexts includes))).toList := by
            simp [parameterText]
          have writes : Writes (parameterText "includes" (commas (relationTexts includes)))
              edits := by
            rw [text]
            exact Spells.writes (by rwa [String.toList_ofList])
          exact .single writes turns
      rw [query, unnumbered, unnumberedAll_eq_map]
      exact (own.append listed).exists_writes

end Request

/-- A request whose names and texts can be written is what its query denotes, whatever is to
happen to relations that are repeated. -/
theorem scan_query {options : ScanOptions} {request : Request}
    (root : request.name = Request.rootName)
    (writable : request.Writable options.maxDepth options.maxDepth) :
    ∃ scanned, scan options (String.ofList request.query) = .ok scanned ∧
      scanned.unnumbered = request.unnumbered ∧ scanned.toJson = request.toJson := by
  obtain ⟨edits, writes, turns⟩ := writable.exists_writes
  have blank : (Request.blank 0 request.name).at? [] = some (.blank 0 request.name) := rfl
  have applied := turns.applied (.blank 0 request.name) blank (by simp)
  have edited : edits.map (Edit.under []) = edits := by
    rw [funext Edit.under_nil, List.map_id']
  rw [edited, Request.update, Request.put_of_name (by simp), root] at applied
  obtain ⟨scanned, accepted, same⟩ :=
    exists_scan_of_applyAll (by rwa [String.toList_ofList]) applied
  exact ⟨scanned, accepted, same, Request.toJson_eq_of_unnumbered same⟩

theorem scan_query_comments :
    let request : Request :=
      ⟨0, "root",
        { fields := ["id", "title"]
          clauses := [(.limit, "2")]
          predicates :=
            [("or", .or [.group [("a", .literal "1")], .group [("b", .not (.literal "2"))]]),
              ("title", .like "x")]
          functions := [⟨"count", ["comments"]⟩] },
        [⟨0, "comments", { predicates := [("text", .oneOf ["p", "q"])] }, []⟩, ⟨0, "tags", {}, []⟩]⟩
    request.query = ("limit=2&fields=id,title&or(a=1,b=not(2))&title=like(x)" ++
        "&functions=count(comments)&includes=comments(text=in(p,q)),tags").toList ∧
      ∃ scanned, scan { duplicates := .reject, maxDepth := 2 } (String.ofList request.query) =
          .ok scanned ∧
        scanned.unnumbered = request.unnumbered ∧ scanned.toJson = request.toJson := by
  intro request
  have equals : Expression.Writable 1 .condition (.group [("a", .literal "1")]) :=
    .fields (by simp) (List.pairwise_singleton _ _) (List.forall_mem_singleton.mpr
      (.ofValue (by decide) (.literal 1 (by decide))))
  have differs : Expression.Writable 1 .condition (.group [("b", .not (.literal "2"))]) :=
    .fields (by simp) (List.pairwise_singleton _ _) (List.forall_mem_singleton.mpr
      (.ofValue (by decide) (.not (.literal 0 (by decide)))))
  have group : Expression.Writable 2 (.entry Connective.or.word)
      (.or [.group [("a", .literal "1")], .group [("b", .not (.literal "2"))]]) := by
    refine .ofGroup (.anyOf (by simp) ?_)
    simp only [List.forall_mem_cons]
    exact ⟨equals, differs, by simp⟩
  have like : Expression.Writable 2 (.entry "title") (.like "x") :=
    .ofValue (by decide) (.like 1 (by decide))
  have oneOf : Expression.Writable 2 (.entry "text") (.oneOf ["p", "q"]) :=
    .ofValue (by decide) (.oneOf 1 (by decide) (by decide))
  have blank : Terms.Writable 2 {} :=
    ⟨.empty, by simp, by simp, by simp, by simp, by simp⟩
  have comments : Terms.Writable 2 { predicates := [("text", .oneOf ["p", "q"])] } :=
    ⟨⟨.nil, List.pairwise_singleton _ _⟩, by simp, by simp, by simp, by simp,
      List.forall_mem_singleton.mpr ⟨by decide, oneOf⟩⟩
  have sorted : request.terms.predicates.Sorted := by
    simp only [request, Table.Sorted, List.pairwise_pair]
    decide
  have terms : Terms.Writable 2 request.terms := by
    refine ⟨⟨List.pairwise_singleton _ _, sorted⟩, by decide, by decide, by decide, ?_, ?_⟩
    · exact List.forall_mem_singleton.mpr ⟨by decide, by decide⟩
    · simp only [request, List.forall_mem_cons]
      exact ⟨⟨by decide, group⟩, ⟨by decide, like⟩, by simp⟩
  have writable : request.Writable 2 2 := by
    refine .node terms (by decide) (by decide) ?_
    simp only [List.forall_mem_cons]
    exact ⟨.leaf 1 comments, .leaf 1 blank, by simp⟩
  exact ⟨by cbv, scan_query rfl writable⟩

end QueryGate
