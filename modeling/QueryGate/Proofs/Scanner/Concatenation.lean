import Mathlib
import QueryGate.Proofs.Request.Combine
import QueryGate.Proofs.Scanner.Edits

/-!
# Two queries in one

A separator between two queries makes one query of them. It is accepted where both
are, and asks for what the two ask for together. At the separator the scanner stands
at the root again with nothing begun, so the edits of the second query are made on the
request of the first; and each of them is about a node that the second query itself
has made sure of, wherever its list of relations has led.
-/

namespace QueryGate

namespace Edit

theorem under_nil (edit : Edit) : edit.under [] = edit := by
  cases edit <;> rfl

end Edit

namespace Control

variable {control next : Control} {char : Char} {edits : List Edit} {text rest : List Char}

/-- The deepest node that the control has a hold on. -/
def focus (control : Control) : Path :=
  match control.mode with
  | .relations place => place.closed.getD place.chain
  | _ => control.cursor

theorem focus_relations (cursor : Path) (token : String) (place : Place) (frames : List Frame) :
    focus ⟨cursor, token, .relations place, frames⟩ = place.closed.getD place.chain := rfl

theorem chain_prefix_focus {cursor : Path} {token : String} {place : Place}
    (fits : Mode.Fits cursor token (.relations place)) (frames : List Frame) :
    place.chain <+: focus ⟨cursor, token, .relations place, frames⟩ := by
  rw [focus_relations]
  cases found : place.closed with
  | none => exact List.prefix_refl _
  | some relation => exact fits.2.2 relation found

/-- What is begun ends within reach, and then parameters belong to the node again. -/
theorem Ends.follows (ends : Ends control edits) (sound : control.Sound) :
    Edit.Follows control.focus edits control.cursor := by
  have fits := sound.fits
  cases ends with
  | name cursor frames => exact List.prefix_refl cursor
  | value frames reads => exact ⟨List.prefix_refl _, List.prefix_refl _⟩
  | relation cursor place frames written =>
      have reach := chain_prefix_focus fits frames
      obtain ⟨rfl, above, -⟩ := fits
      exact ⟨reach, above.trans (List.prefix_append _ _)⟩
  | closed cursor frames found =>
      have reach := chain_prefix_focus fits frames
      obtain ⟨rfl, above, -⟩ := fits
      exact above.trans reach
  | call cursor frames => exact List.prefix_refl cursor

/-- The edits of a character are within reach. -/
theorem Step.follows (step : Step control char edits next) (sound : control.Sound) :
    Edit.Follows control.focus edits next.focus := by
  have fits := sound.fits
  have stacked := sound.stacked
  cases step with
  | push cursor token frames takes => exact List.prefix_refl _
  | separate ends => exact ends.follows sound
  | leave ends =>
      obtain ⟨rfl, -⟩ := stacked
      exact ends.follows sound
  | parameter | includes | group | operator | list | function | inside | unnest | called =>
      exact List.prefix_refl _
  | nest => exact ⟨trivial, List.prefix_refl _⟩
  | read cursor start frames closes reads => exact ⟨List.prefix_refl _, List.prefix_refl _⟩
  | enter cursor place frames written =>
      exact ⟨chain_prefix_focus fits frames, List.prefix_refl _⟩
  | descend cursor place frames written =>
      exact ⟨chain_prefix_focus fits frames, List.prefix_refl _⟩
  | descendClosed cursor frames found =>
      rw [focus_relations, found]
      exact List.prefix_refl _
  | next ends =>
      obtain ⟨rfl, -⟩ := fits
      exact ends.follows sound

theorem Runs.follows (runs : Runs control text edits next) (sound : control.Sound) :
    Edit.Follows control.focus edits next.focus := by
  induction runs with
  | nil => exact List.prefix_refl _
  | cons step _ hypothesis => exact (step.follows sound).append (hypothesis (step.sound sound))

/-- The edits of a text lead from one node to the next. -/
theorem Writes.follows (writes : Writes text edits) : ∃ last, Edit.Follows [] edits last := by
  cases writes with
  | @intro before after last runs ends outermost =>
      exact ⟨_, (runs.follows .start).append (ends.follows (runs.sound .start))⟩

/-- Two queries with a separator between them make the edits of the first and then those
of the second. -/
theorem Writes.append {later : List Edit} (first : Writes text edits)
    (second : Writes rest later) : Writes (text ++ ['&'] ++ rest) (edits ++ later) := by
  have separated := first.separate [] []
  rw [funext Edit.under_nil, List.map_id'] at separated
  cases second with
  | @intro before after last runs ends outermost =>
      rw [← List.append_assoc]
      exact .intro (separated.append runs) ends outermost

end Control

/-- Where relations may be repeated, two queries that are accepted are accepted as one,
which denotes the combination of what they denote. -/
theorem scan_append {options : ScanOptions} {first second : String} {lower upper : Request}
    (combines : options.duplicates ≠ .reject) (scannedFirst : scan options first = .ok lower)
    (scannedSecond : scan options second = .ok upper) :
    ∃ request, scan options (first ++ "&" ++ second) = .ok request ∧
      request.toJson = (lower.combine options.duplicates upper).toJson := by
  obtain ⟨edits, writes⟩ := exists_writes_of_scan scannedFirst
  obtain ⟨later, writesLater⟩ := exists_writes_of_scan scannedSecond
  obtain ⟨last, follows⟩ := writesLater.follows
  have made := applyAll_of_scan writes scannedFirst
  have madeLater := applyAll_of_scan writesLater scannedSecond
  have blankSorted : (Request.blank 0 Request.rootName).Every Terms.Sorted :=
    .blank .empty 0 Request.rootName
  have sorted := Edit.kept_of_applyAll Edit.sorted_of_apply blankSorted made
  have combined := Edit.applyAll_combine combines sorted blankSorted follows rfl
  rw [Request.combine_blank, madeLater, Option.map_some] at combined
  have together : Edit.applyAll options (.blank 0 Request.rootName) (edits ++ later) =
      some (lower.combine options.duplicates upper).unnumbered := by
    rw [Edit.applyAll_append, made, Option.bind_some, combined, Request.unnumbered_combine]
  have joined : (first ++ "&" ++ second).toList = first.toList ++ ['&'] ++ second.toList := by
    simp
  obtain ⟨request, scanned, same⟩ :=
    exists_scan_of_applyAll (joined ▸ writes.append writesLater) together
  exact ⟨request, scanned, Request.toJson_eq_of_unnumbered same⟩

theorem scan_append_comments :
    ∃ lower upper request,
      scan {} "limit=2&includes=comments(text=a),tags" = .ok lower ∧
      scan {} "limit=3&includes=author,comments(fields=id)" = .ok upper ∧
      scan {} ("limit=2&includes=comments(text=a),tags" ++ "&" ++
        "limit=3&includes=author,comments(fields=id)") = .ok request ∧
      request.toJson = (lower.combine .merge upper).toJson := by
  let lower : Request :=
    ⟨0, "root", { clauses := [(.limit, "2")] },
      [⟨1, "comments", { predicates := [("text", .literal "a")] }, []⟩, ⟨2, "tags", {}, []⟩]⟩
  let upper : Request :=
    ⟨0, "root", { clauses := [(.limit, "3")] },
      [⟨1, "author", {}, []⟩, ⟨2, "comments", { fields := ["id"] }, []⟩]⟩
  have scannedFirst : scan {} "limit=2&includes=comments(text=a),tags" = .ok lower := by cbv
  have scannedSecond : scan {} "limit=3&includes=author,comments(fields=id)" = .ok upper := by cbv
  have combines : (ScanOptions.duplicates {}) ≠ .reject := by decide
  obtain ⟨request, scanned, same⟩ := scan_append combines scannedFirst scannedSecond
  exact ⟨lower, upper, request, scannedFirst, scannedSecond, scanned, same⟩

end QueryGate
