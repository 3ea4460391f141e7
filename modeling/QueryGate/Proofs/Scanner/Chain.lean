import Mathlib
import QueryGate.Proofs.Scanner.Edits
import QueryGate.Proofs.Scanner.Spelling

/-!
# Chains of relations

A relation of a relation can be written behind a period, or as a list of relations in
the parentheses of the first. The two spellings of a chain make the same edits at
whatever node the chain begins, and so do lists of chains.
-/

namespace QueryGate

open Control

/-- One relation of a chain: its name, and the query in its parentheses, if there are any. -/
structure Link where
  name : String
  inner : Option String

namespace Link

/-- A relation of a chain as it is written. -/
def text (link : Link) : String :=
  match link.inner with
  | none => link.name
  | some inner => link.name ++ "(" ++ inner ++ ")"

/-- A chain written with periods. -/
def dotted : List Link → String
  | [] => ""
  | [link] => link.text
  | link :: rest => link.text ++ "." ++ dotted rest

/-- The text between the parenthesis behind a relation's name and its list of relations. -/
def before (link : Link) : String :=
  match link.inner with
  | none => ""
  | some inner => inner ++ "&"

/-- A chain written with the list of relations in the parentheses of each relation but
the last, behind the query that may be there. -/
def nested : List Link → String
  | [] => ""
  | [link] => link.text
  | link :: rest => link.name ++ "(" ++ link.before ++ "includes=" ++ nested rest ++ ")"

/-- The query that includes the given chains. -/
def query (chains : List String) : String := "includes=" ++ ",".intercalate chains

/-- A relation of a chain has a name, and what is in its parentheses is a query. -/
structure Valid (link : Link) : Prop where
  named : IsName link.name
  accepted : ∀ inner, link.inner = some inner →
    ∃ options request, scan options inner = .ok request

/-- A name alone is a relation of a chain. -/
theorem Valid.of_name {name : String} (named : IsName name) : Valid ⟨name, none⟩ := by
  refine ⟨named, ?_⟩
  intro inner written
  cases written

/-- The edits of the query in the parentheses of a relation. -/
def InnerWrites (link : Link) (edits : List Edit) : Prop :=
  match link.inner with
  | none => edits = []
  | some inner => Writes inner.toList edits

theorem Valid.exists_innerWrites {link : Link} (valid : link.Valid) :
    ∃ edits, link.InnerWrites edits := by
  rcases link with ⟨name, _ | inner⟩
  · exact ⟨[], rfl⟩
  · obtain ⟨options, request, scanned⟩ := valid.accepted inner rfl
    exact exists_writes_of_scan scanned

end Link

/-- A text is the rest of an entry of a list of relations, and makes some edits. -/
inductive Spells (cursor chain : Path) (frames : List Frame) : List Char → List Edit → Prop where
  | intro {text : List Char} {before after : List Edit} {token : String} {place : Place} :
      Runs (entry cursor chain frames) text before ⟨cursor, token, .relations place, frames⟩ →
      place.anchor = cursor → Ends ⟨cursor, token, .relations place, frames⟩ after →
      Spells cursor chain frames text (before ++ after)

namespace Link

/-- The edits of a relation that stands behind others, given those of its query. -/
def edits (chain : Path) (link : Link) (inner : List Edit) : List Edit :=
  .attach chain link.name :: inner.map (Edit.under (chain ++ [link.name]))

variable {link : Link} {inner : List Edit} (cursor chain : Path) (frames : List Frame)

/-- A relation can stand last in its chain. -/
theorem spells (named : IsName link.name) (writes : link.InnerWrites inner) :
    Spells cursor chain frames link.text.toList (link.edits chain inner) := by
  rcases link with ⟨name, _ | text⟩
  · cases writes
    exact .intro (Runs.name cursor chain frames named) rfl (.relation cursor _ frames named.1)
  · have run := Runs.enclosed cursor chain frames named writes
    have spelled := Spells.intro run rfl (.closed cursor frames rfl)
    rwa [List.append_nil] at spelled

/-- Behind a relation and a period the chain goes on below the relation. -/
theorem descends (named : IsName link.name) (writes : link.InnerWrites inner) :
    Runs (entry cursor chain frames) (link.text.toList ++ ['.']) (link.edits chain inner)
      (entry cursor (chain ++ [link.name]) frames) := by
  rcases link with ⟨name, _ | text⟩
  · cases writes
    exact (Runs.name cursor chain frames named).snoc (.descend cursor _ frames named.1)
  · have run := Runs.enclosed cursor chain frames named writes
    have descended := run.snoc (.descendClosed cursor frames rfl)
    rwa [List.append_nil] at descended

/-- Behind a relation, a parenthesis and its query a list of relations can begin. -/
theorem enters (named : IsName link.name) (writes : link.InnerWrites inner) :
    Runs (entry cursor chain frames)
      (link.name ++ "(" ++ link.before ++ "includes=").toList (link.edits chain inner)
      (entry (chain ++ [link.name]) (chain ++ [link.name])
        (⟨chain ++ [link.name], ⟨cursor, chain, none⟩⟩ :: frames)) := by
  have opened := Runs.opened cursor chain frames named
  have listed := Runs.includes (chain ++ [link.name])
    (⟨chain ++ [link.name], ⟨cursor, chain, none⟩⟩ :: frames)
  rcases link with ⟨name, _ | text⟩
  · cases writes
    simpa [before, edits] using opened.append listed
  · have asked := writes.separate (chain ++ [name])
      (⟨chain ++ [name], ⟨cursor, chain, none⟩⟩ :: frames)
    simpa [before, edits] using (opened.append asked).append listed

end Link

namespace Spells

variable {cursor chain below : Path} {frames : List Frame} {text rest : List Char}
  {first later : List Edit}

/-- An entry is the text up to a place further down and what follows there. -/
theorem append (run : Runs (entry cursor chain frames) text first (entry cursor below frames))
    (spells : Spells cursor below frames rest later) :
    Spells cursor chain frames (text ++ rest) (first ++ later) := by
  cases spells with
  | intro runs anchored ends =>
      rw [← List.append_assoc]
      exact .intro (run.append runs) anchored ends

/-- An entry may end with a list of relations in the parentheses of its relation. -/
theorem enclose
    (run : Runs (entry cursor chain frames) text first
      (entry below below (⟨below, ⟨cursor, chain, none⟩⟩ :: frames)))
    (spells : Spells below below (⟨below, ⟨cursor, chain, none⟩⟩ :: frames) rest later) :
    Spells cursor chain frames (text ++ rest ++ [')']) (first ++ later) := by
  cases spells with
  | intro runs _ ends =>
      have left := (run.append runs).snoc (.leave ends)
      have spelled := Spells.intro left rfl (.closed cursor frames rfl)
      rwa [List.append_nil, List.append_assoc first] at spelled

/-- A comma behind an entry starts the next one. -/
theorem next (spells : Spells cursor chain frames text first) :
    Runs (entry cursor chain frames) (text ++ [',']) first (entry cursor cursor frames) := by
  cases spells with
  | intro runs anchored ends =>
      subst anchored
      exact runs.snoc (.next ends)

/-- A list of relations is a query. -/
theorem writes {text : String} (spells : Spells [] [] [] text.toList first) :
    Writes ("includes=" ++ text).toList first := by
  cases spells with
  | intro runs _ ends =>
      rw [String.toList_append]
      exact .intro ((Runs.includes [] []).append runs) ends rfl

end Spells

namespace Link

/-- The two spellings of a chain make the same edits, wherever the chain begins. -/
theorem exists_spells {links : List Link} (written : links ≠ [])
    (valid : ∀ link ∈ links, link.Valid) (chain : Path) :
    ∃ edits, ∀ cursor frames, Spells cursor chain frames (dotted links).toList edits ∧
      Spells cursor chain frames (nested links).toList edits := by
  induction links generalizing chain with
  | nil => exact absurd rfl written
  | cons link rest hypothesis =>
      rw [List.forall_mem_cons] at valid
      have named := valid.1.named
      obtain ⟨inner, writes⟩ := valid.1.exists_innerWrites
      cases rest with
      | nil =>
          refine ⟨link.edits chain inner, ?_⟩
          intro cursor frames
          have spelled := link.spells cursor chain frames named writes
          exact ⟨spelled, spelled⟩
      | cons next rest =>
          obtain ⟨later, spells⟩ := hypothesis (by simp) valid.2 (chain ++ [link.name])
          refine ⟨link.edits chain inner ++ later, ?_⟩
          intro cursor frames
          constructor
          · have spelled := Spells.append (link.descends cursor chain frames named writes)
              (spells cursor frames).1
            simpa [dotted] using spelled
          · have spelled := Spells.enclose (link.enters cursor chain frames named writes)
              (spells _ _).2
            simpa [nested] using spelled

/-- So do the two spellings of a list of chains. -/
theorem exists_spells_chains {chains : List (List Link)} (written : chains ≠ [])
    (valid : ∀ chain ∈ chains, chain ≠ [] ∧ ∀ link ∈ chain, link.Valid) (cursor : Path)
    (frames : List Frame) :
    ∃ edits, Spells cursor cursor frames (",".intercalate (chains.map dotted)).toList edits ∧
      Spells cursor cursor frames (",".intercalate (chains.map nested)).toList edits := by
  induction chains with
  | nil => exact absurd rfl written
  | cons chain rest hypothesis =>
      rw [List.forall_mem_cons] at valid
      obtain ⟨first, spells⟩ := exists_spells valid.1.1 valid.1.2 cursor
      cases rest with
      | nil =>
          refine ⟨first, ?_⟩
          simpa using spells cursor frames
      | cons next rest =>
          obtain ⟨later, dottedRest, nestedRest⟩ := hypothesis (by simp) valid.2
          obtain ⟨dottedFirst, nestedFirst⟩ := spells cursor frames
          refine ⟨first ++ later, ?_, ?_⟩
          · have spelled := dottedRest.append dottedFirst.next
            simpa [List.intercalate_cons_cons] using spelled
          · have spelled := nestedRest.append nestedFirst.next
            simpa [List.intercalate_cons_cons] using spelled

end Link

/-- A list of chains written with periods is scanned like the same list written with the
relations of each relation in its parentheses: both queries are in error, or both are
accepted and denote the same request. -/
theorem scan_dotted {chains : List (List Link)} (written : chains ≠ [])
    (valid : ∀ chain ∈ chains, chain ≠ [] ∧ ∀ link ∈ chain, link.Valid) (options : ScanOptions) :
    (scan options (Link.query (chains.map Link.dotted))).toOption.map Request.toJson =
      (scan options (Link.query (chains.map Link.nested))).toOption.map Request.toJson := by
  obtain ⟨edits, dotted, nested⟩ := Link.exists_spells_chains written valid [] []
  have same := (scan_of_writes options dotted.writes).trans
    (scan_of_writes options nested.writes).symm
  have shown := congrArg (Option.map Request.toJson) same
  simp only [Option.map_map, Function.comp_def, Request.toJson_unnumbered] at shown
  exact shown

theorem scan_dotted_comments :
    let chains : List (List Link) :=
      [[⟨"comments", some "text=a"⟩, ⟨"author", none⟩], [⟨"tags", none⟩]]
    Link.query (chains.map Link.dotted) = "includes=comments(text=a).author,tags" ∧
      Link.query (chains.map Link.nested) = "includes=comments(text=a&includes=author),tags" ∧
      (scan {} (Link.query (chains.map Link.dotted))).toOption.map Request.toJson =
        (scan {} (Link.query (chains.map Link.nested))).toOption.map Request.toJson := by
  intro chains
  have scanned : scan {} "text=a" =
      .ok ⟨0, "root", { predicates := [("text", .literal "a")] }, []⟩ := by cbv
  have comments : Link.Valid ⟨"comments", some "text=a"⟩ := by
    refine ⟨by decide, ?_⟩
    intro inner written
    cases written
    exact ⟨{}, _, scanned⟩
  have author : Link.Valid ⟨"author", none⟩ := .of_name (by decide)
  have tags : Link.Valid ⟨"tags", none⟩ := .of_name (by decide)
  have valid : ∀ chain ∈ chains, chain ≠ [] ∧ ∀ link ∈ chain, link.Valid := by
    simp [chains, comments, author, tags]
  exact ⟨by decide, by decide, scan_dotted (by simp [chains]) valid {}⟩

end QueryGate
