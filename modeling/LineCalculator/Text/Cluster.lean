import LineCalculator.Text.ClusterClass
/-! # Grapheme clusters

A text cut into what a user sees as single characters, by the rules of Unicode for extended
grapheme clusters.

* `joins before c`: whether `c` belongs to the cluster that begins with `before`.
* `clusters`: the clusters of a text.
* `flatten_clusters`: the clusters in order are the text, nothing added or lost.
-/

namespace LineCalculator.Text
set_option autoImplicit false

/-- Marks, the last one first, that keep a conjunct open. -/
def isConjunctMark (c : Char) : Bool :=
  c ≠ '\u200c' && (clusterClass c = .extend || clusterClass c = .joiner)

/-- Whether a consonant and marks with a linker among them stand at the end of a text, which is
given with its last character first. -/
def endsInConjunct (before : List Char) : Bool :=
  (before.takeWhile isConjunctMark).any isConjunctLinker
    && (before.dropWhile isConjunctMark).head?.any (clusterClass · = .consonant)

/-- Whether a pictograph and its marks stand at the end of a text, which is given with its last
character first. -/
def endsInPictograph (before : List Char) : Bool :=
  (before.dropWhile (clusterClass · = .extend)).head?.any (clusterClass · = .pictograph)

/-- Whether a flag is open at the end of a text, which is given with its last character first. -/
def endsInHalfFlag (before : List Char) : Bool :=
  (before.takeWhile (clusterClass · = .regional)).length % 2 = 1

/-- Whether a character belongs to the cluster before it, whose characters are given with the last
one first. -/
def joins : List Char → Char → Bool
  | [], _ => false
  | p :: earlier, c =>
    match clusterClass p, clusterClass c with
    | .control, _ | _, .control => p = '\r' && c = '\n'
    | .hangulFirst, .hangulFirst | .hangulFirst, .hangulVowel | .hangulFirst, .hangulOpen
    | .hangulFirst, .hangulClosed => true
    | .hangulOpen, .hangulVowel | .hangulOpen, .hangulLast | .hangulVowel, .hangulVowel
    | .hangulVowel, .hangulLast => true
    | .hangulClosed, .hangulLast | .hangulLast, .hangulLast => true
    | _, .extend | _, .joiner | _, .spacing => true
    | .leading, _ => true
    | _, .consonant => endsInConjunct (p :: earlier)
    | .joiner, .pictograph => endsInPictograph earlier
    | .regional, .regional => endsInHalfFlag (p :: earlier)
    | _, _ => false

/-- The clusters of a text in front of which an unfinished cluster stands, whose characters are
given with the last one first. -/
def clustersFrom (current : List Char) : List Char → List (List Char)
  | [] => [current.reverse]
  | c :: text =>
    if joins current c then clustersFrom (c :: current) text
    else current.reverse :: clustersFrom [c] text

/-- The clusters of a text, in order. -/
def clusters : List Char → List (List Char)
  | [] => []
  | c :: text => clustersFrom [c] text

theorem flatten_clustersFrom (current text : List Char) :
    (clustersFrom current text).flatten = current.reverse ++ text := by
  induction text generalizing current with
  | nil => rw [clustersFrom, List.flatten_singleton, List.append_nil]
  | cons c text ih =>
    rw [clustersFrom]
    split
    · rw [ih, List.reverse_cons, List.append_assoc, List.singleton_append]
    · rw [List.flatten_cons, ih, List.reverse_singleton, List.singleton_append]

theorem flatten_clusters (text : List Char) : (clusters text).flatten = text := by
  cases text with
  | nil => rfl
  | cons c text => exact flatten_clustersFrom [c] text

end LineCalculator.Text
