import QueryGate.Proofs.Request.Numbering
import QueryGate.Query.Scanner

/-!
# Edits of a request

A text does three things to a request on the way: it assigns a parameter to a node,
it attaches a relation to a node, and it opens the brackets of a call. What the
options say matters for these alone. An edit that the options forbid has no result.
-/

namespace QueryGate

/-- What one parameter does to the terms of its node. -/
inductive Terms.Change where
  | clause (directive : Clause) (text : String)
  | fields (names : List String) (written : names ≠ [])
  | functions (calls : List FunctionCall)
  | predicate (name : String) (condition : Expression)

/-- Makes a change. Functions add up, everything else takes the place of what
was given before. -/
def Terms.Change.apply (terms : Terms) : Terms.Change → Terms
  | .clause directive text =>
      { terms with clauses := Table.insert directive text terms.clauses }
  | .fields names _ => { terms with fields := names }
  | .functions calls => { terms with functions := terms.functions ++ calls }
  | .predicate name condition =>
      { terms with predicates := Table.insert name condition terms.predicates }

/-- One thing that a text does to a request. -/
inductive Edit where
  | assign (node : Path) (change : Terms.Change)
  | attach (parent : Path) (name : String)
  /-- Nothing is changed, but so many brackets of a call are open. -/
  | nest (depth : Nat)

namespace Edit

/-- Makes an edit, if the options allow it. -/
def apply (options : ScanOptions) (request : Request) : Edit → Option Request
  | .assign node change => some (request.updateTerms change.apply node)
  | .attach parent name =>
      if options.maxDepth < parent.length + 1 then none
      else
        match options.duplicates with
        | .merge => some (request.update (Request.ensureChild name) parent)
        | .replace => some (request.update (Request.replaceChild name) parent)
        | .reject =>
            if ((request.at? parent).bind fun node => node.child? name).isSome then none
            else some (request.update (Request.ensureChild name) parent)
  | .nest depth => if options.maxDepth < depth then none else some request

/-- Makes one edit after the other. -/
def applyAll (options : ScanOptions) (request : Request) (edits : List Edit) : Option Request :=
  edits.foldlM (apply options) request

/-- The edit made below a node instead of below the root. -/
def under (base : Path) : Edit → Edit
  | .assign node change => .assign (base ++ node) change
  | .attach parent name => .attach (base ++ parent) name
  | .nest depth => .nest depth

variable {options : ScanOptions} {request result : Request}

@[simp] theorem applyAll_nil : applyAll options request [] = some request := rfl

@[simp] theorem applyAll_cons (edit : Edit) (edits : List Edit) :
    applyAll options request (edit :: edits) =
      (edit.apply options request).bind fun next => applyAll options next edits := rfl

@[simp] theorem applyAll_single (edit : Edit) :
    applyAll options request [edit] = edit.apply options request := by
  cases applied : edit.apply options request <;> simp [applied]

theorem applyAll_append (before after : List Edit) :
    applyAll options request (before ++ after) =
      (applyAll options request before).bind fun next => applyAll options next after :=
  List.foldlM_append

/-- What every edit keeps is kept by all edits that a text makes. -/
theorem kept_of_applyAll {holds : Request → Prop}
    (kept : ∀ {edit : Edit} {request result : Request}, holds request →
      edit.apply options request = some result → holds result)
    {edits : List Edit} (start : holds request)
    (applied : applyAll options request edits = some result) : holds result := by
  induction edits generalizing request with
  | nil =>
      cases applied
      exact start
  | cons edit edits hypothesis =>
      rw [applyAll_cons, Option.bind_eq_some_iff] at applied
      rcases applied with ⟨next, first, later⟩
      exact hypothesis (kept start first) later

/-- An edit that is made changes the node at one path: its terms, or its children. -/
theorem exists_of_apply {edit : Edit} (applied : edit.apply options request = some result) :
    (∃ node change, edit = .assign node change ∧
      result = request.updateTerms change.apply node) ∨
    (∃ parent name, edit = .attach parent name ∧
      (result = request.update (Request.ensureChild name) parent ∨
        result = request.update (Request.replaceChild name) parent)) ∨
    (∃ depth, edit = .nest depth ∧ result = request) := by
  cases edit with
  | assign node change =>
      cases applied
      exact .inl ⟨node, change, rfl, rfl⟩
  | attach parent name =>
      refine .inr (.inl ⟨parent, name, rfl, ?_⟩)
      rw [apply] at applied
      split at applied
      · cases applied
      · split at applied
        · cases applied
          exact .inl rfl
        · cases applied
          exact .inr rfl
        · split at applied <;> cases applied
          exact .inl rfl
  | nest depth =>
      rw [apply] at applied
      split at applied <;> cases applied
      exact .inr (.inr ⟨depth, rfl, rfl⟩)

theorem keepsName_terms (change : Terms → Terms) :
    Request.KeepsName fun node => { node with terms := change node.terms } :=
  fun _ => rfl

/-- No edit gives two children of a node one name. -/
theorem distinct_of_apply {edit : Edit} (distinct : request.Distinct)
    (applied : edit.apply options request = some result) : result.Distinct := by
  rcases exists_of_apply applied with ⟨node, change, -, rfl⟩ | ⟨parent, name, -, rfl | rfl⟩ |
    ⟨depth, -, rfl⟩
  · apply distinct.update (keepsName_terms change.apply)
    intro node nodeDistinct
    exact .of_parts nodeDistinct.names nodeDistinct.children
  · exact distinct.update (Request.name_ensureChild name) (fun _ => .ensureChild name) parent
  · exact distinct.update (Request.name_replaceChild name) (fun _ => .replaceChild name) parent
  · exact distinct

end Edit

/-- Clauses and predicates are tables. -/
structure Terms.Sorted (terms : Terms) : Prop where
  clauses : terms.clauses.Sorted
  predicates : terms.predicates.Sorted

theorem Terms.Sorted.empty : Terms.Sorted {} := ⟨.nil, .nil⟩

theorem Terms.Sorted.change {terms : Terms} (sorted : terms.Sorted) (change : Terms.Change) :
    (change.apply terms).Sorted := by
  cases change with
  | clause directive text =>
      exact ⟨Table.sorted_insert sorted.clauses directive text, sorted.predicates⟩
  | fields | functions => exact ⟨sorted.clauses, sorted.predicates⟩
  | predicate name condition =>
      exact ⟨sorted.clauses, Table.sorted_insert sorted.predicates name condition⟩

namespace Edit

/-- Every edit keeps the tables of all nodes. -/
theorem sorted_of_apply {options : ScanOptions} {edit : Edit} {request result : Request}
    (sorted : request.Every Terms.Sorted)
    (applied : edit.apply options request = some result) : result.Every Terms.Sorted := by
  have blank : ∀ name, (Request.blank 0 name).Every Terms.Sorted := .blank .empty 0
  rcases exists_of_apply applied with ⟨node, change, -, rfl⟩ | ⟨parent, name, -, rfl | rfl⟩ |
    ⟨depth, -, rfl⟩
  · exact sorted.updateTerms (fun _ own => own.change change) node
  · apply sorted.update
    intro node nodeSorted
    rw [Request.ensureChild]
    split
    · exact nodeSorted
    · exact nodeSorted.addChild (blank name)
  · apply sorted.update
    intro node nodeSorted
    exact (nodeSorted.removeChild name).addChild (blank name)
  · exact sorted

/-! ### Edits within reach

A scanner makes its edits at one node after the other, and the next one is never far: it
is the node of the edit before, or a node around it. -/

/-- The edit is about the node at a path or a node around it. -/
def Within (focus : Path) : Edit → Prop
  | .assign node _ => node <+: focus
  | .attach parent _ => parent <+: focus
  | .nest _ => True

/-- The path that an edit leads to. -/
def moves (focus : Path) : Edit → Path
  | .attach parent name => parent ++ [name]
  | .assign _ _ | .nest _ => focus

/-- Each edit is about a node around the one that the edits before it have led to, and so
is the last path. -/
def Follows : Path → List Edit → Path → Prop
  | focus, [], last => last <+: focus
  | focus, edit :: edits, last => edit.Within focus ∧ Follows (edit.moves focus) edits last

theorem Within.mono {edit : Edit} {focus outer : Path} (within : edit.Within outer)
    (around : outer <+: focus) : edit.Within focus := by
  cases edit with
  | assign node change => exact within.trans around
  | attach parent name => exact within.trans around
  | nest depth => exact within

theorem Follows.mono {edits : List Edit} {focus outer last : Path}
    (follows : Follows outer edits last) (around : outer <+: focus) :
    Follows focus edits last := by
  induction edits generalizing focus outer with
  | nil => exact follows.trans around
  | cons edit edits hypothesis =>
      refine ⟨follows.1.mono around, ?_⟩
      cases edit with
      | assign node change => exact hypothesis follows.2 around
      | attach parent name => exact follows.2
      | nest depth => exact hypothesis follows.2 around

theorem Follows.append {before after : List Edit} {focus middle last : Path}
    (first : Follows focus before middle) (later : Follows middle after last) :
    Follows focus (before ++ after) last := by
  induction before generalizing focus with
  | nil => exact later.mono first
  | cons edit edits hypothesis => exact ⟨first.1, hypothesis first.2⟩

variable {options : ScanOptions} {request result : Request}

/-- A change that makes sure of a child leads to it. -/
theorem isSome_at?_child {change : Request → Request} {parent : Path} {name : String}
    (keeps : Request.KeepsName change) (made : ∀ node, ((change node).child? name).isSome)
    (reached : (request.at? parent).isSome) :
    ((request.update change parent).at? (parent ++ [name])).isSome := by
  obtain ⟨node, found⟩ := Option.isSome_iff_exists.mp reached
  obtain ⟨child, foundChild⟩ := Option.isSome_iff_exists.mp (made node)
  rw [Request.at?_update_append keeps, found, Option.bind_some, Request.at?, foundChild]
  rfl

/-- An edit within reach leads to a node that is there. -/
theorem isSome_at?_moves {edit : Edit} {focus : Path} (within : edit.Within focus)
    (reached : (request.at? focus).isSome) (applied : edit.apply options request = some result) :
    (result.at? (edit.moves focus)).isSome := by
  rcases exists_of_apply applied with ⟨node, change, rfl, rfl⟩ | ⟨parent, name, rfl, changed⟩ |
    ⟨depth, rfl, rfl⟩
  · obtain ⟨rest, rfl⟩ := within
    rw [Request.at?_append] at reached
    obtain ⟨own, found⟩ := Option.isSome_iff_exists.mp (Option.isSome_of_isSome_bind reached)
    rw [found] at reached
    rw [moves, Request.updateTerms, Request.at?_update_append (keepsName_terms change.apply), found]
    cases rest with
    | nil => rfl
    | cons name rest => exact reached
  · obtain ⟨rest, rfl⟩ := within
    have parentReached := Request.isSome_at?_of_append reached
    rcases changed with rfl | rfl
    · exact isSome_at?_child (Request.name_ensureChild name)
        (Request.isSome_child?_ensureChild name) parentReached
    · exact isSome_at?_child (Request.name_replaceChild name)
        (Request.isSome_child?_replaceChild name) parentReached
  · exact reached

end Edit

end QueryGate
