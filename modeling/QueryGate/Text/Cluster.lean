import QueryGate.Text.Cluster.Class

/-!
# Clusters

A text is cut into clusters, the characters as readers see them. Whether a
character joins the cluster before it depends on its class and on what has been
seen, which the context remembers. Joining the clusters gives the text back.
-/

namespace QueryGate.Text

/-- What the characters so far say about whether the next one joins them. -/
structure ClusterContext where
  /-- The class of the last character. -/
  last : ClusterClass := .control
  /-- The text ends in an indicator that waits for its partner. -/
  halfFlag : Bool := false
  /-- The text ends in a pictograph and marks without room of their own. -/
  pictograph : Bool := false
  /-- The text ends in such a pictograph and a joiner. -/
  joined : Bool := false
  /-- The text ends in a consonant and marks without room of their own. -/
  consonant : Bool := false
  /-- One of the marks behind that consonant is a linker. -/
  linked : Bool := false
  deriving DecidableEq, Repr

namespace ClusterContext

/-- The context after a character of the given class. -/
def after (context : ClusterContext) (next : ClusterClass) : ClusterContext :=
  let marked := next = .extend ∨ next = .linker ∨ next = .joiner
  { last := next
    halfFlag := next = .indicator && !context.halfFlag
    pictograph := next = .pictograph ||
      (context.pictograph && (next = .extend || next = .linker || next = .nonJoiner))
    joined := context.pictograph && next = .joiner
    consonant := next = .consonant || (context.consonant && marked)
    linked := context.consonant && (next = .linker || (context.linked && marked)) }

/-- Whether a Hangul letter or syllable goes on with another one. -/
def continuesSyllable : (last next : ClusterClass) → Bool
  | .leading, .leading | .leading, .vowel | .leading, .openSyllable
  | .leading, .closedSyllable => true
  | .openSyllable, .vowel | .openSyllable, .trailing | .vowel, .vowel | .vowel, .trailing => true
  | .closedSyllable, .trailing | .trailing, .trailing => true
  | _, _ => false

/-- Whether a character of the given class joins the cluster before it. -/
def joins (context : ClusterContext) (next : ClusterClass) : Bool :=
  match context.last, next with
  | .carriageReturn, .lineFeed => true
  | .control, _ | .carriageReturn, _ | .lineFeed, _ => false
  | _, .control | _, .carriageReturn | _, .lineFeed => false
  | _, .extend | _, .linker | _, .nonJoiner | _, .joiner | _, .spacing => true
  | .prepend, _ => true
  | _, .consonant => context.linked
  | _, .pictograph => context.joined
  | _, .indicator => context.halfFlag
  | last, next => continuesSyllable last next

end ClusterContext

/-- Cuts the rest of a text, seen in its context, into the rest of the current
cluster and the later ones. -/
def cutClusters (context : ClusterContext) : List Char → List Char × List (List Char)
  | [] => ([], [])
  | char :: rest =>
      let next := ClusterClass.ofChar char
      let (first, later) := cutClusters (context.after next) rest
      if context.joins next then (char :: first, later) else ([], (char :: first) :: later)

/-- The clusters of a text. -/
def clusters (text : List Char) : List (List Char) :=
  (cutClusters {} text).2

theorem append_flatten_cutClusters (context : ClusterContext) (text : List Char) :
    (cutClusters context text).1 ++ (cutClusters context text).2.flatten = text := by
  induction text generalizing context with
  | nil => rfl
  | cons char rest hypothesis =>
      have whole := hypothesis (context.after (ClusterClass.ofChar char))
      simp only [cutClusters]
      split <;> simp [whole]

theorem fst_cutClusters_start (text : List Char) : (cutClusters {} text).1 = [] := by
  cases text with
  | nil => rfl
  | cons char rest =>
      have apart : ({} : ClusterContext).joins (ClusterClass.ofChar char) = false := by
        cases ClusterClass.ofChar char <;> rfl
      simp [cutClusters, apart]

/-- The clusters of a text make up the text. -/
theorem flatten_clusters (text : List Char) : (clusters text).flatten = text := by
  have whole := append_flatten_cutClusters {} text
  rwa [fst_cutClusters_start, List.nil_append] at whole

end QueryGate.Text
