/-! # Maximal runs of characters

A text is cut where the class of its characters changes.

* `Run`: a non-empty piece of text, given by its first character and the ones after it.
* `runs kind text`: the pieces of `text`. Neighbours of one class stand in one piece; a character
  without a class is a piece of its own.
* `flatten_runs`: the pieces in order are the text, nothing added or lost.
* `byteLength text`, `Run.size`: how many bytes a text and a piece take in UTF-8.
-/

namespace LineCalculator.Text
set_option autoImplicit false

/-- Bytes taken in UTF-8. -/
def byteLength : List Char → Nat
  | [] => 0
  | c :: text => c.utf8Size + byteLength text

/-- A non-empty piece of text. -/
structure Run where
  first : Char
  more : List Char
deriving DecidableEq, Repr

namespace Run

/-- The characters of the piece. -/
def text (r : Run) : List Char := r.first :: r.more

theorem text_ne_nil (r : Run) : r.text ≠ [] := by simp [text]

@[simp] theorem length_text (r : Run) : r.text.length = r.more.length + 1 := rfl

/-- Bytes taken in UTF-8. -/
def size (r : Run) : Nat := byteLength r.text

end Run

variable {κ : Type} [DecidableEq κ]

/-- Puts a character in front of a cut text: into the first piece when it is of that piece's
class, else as a piece of its own. -/
def consRun (kind : Char → Option κ) (c : Char) : List Run → List Run
  | [] => [⟨c, []⟩]
  | r :: rs =>
    if (kind c).isSome ∧ kind c = kind r.first then ⟨c, r.text⟩ :: rs
    else ⟨c, []⟩ :: r :: rs

/-- The text cut into maximal runs of characters of one class. -/
def runs (kind : Char → Option κ) (text : List Char) : List Run :=
  text.foldr (consRun kind) []

@[simp] theorem runs_nil (kind : Char → Option κ) : runs kind [] = [] := rfl

theorem runs_cons (kind : Char → Option κ) (c : Char) (text : List Char) :
    runs kind (c :: text) = consRun kind c (runs kind text) := rfl

theorem flatMap_consRun (kind : Char → Option κ) (c : Char) (rs : List Run) :
    (consRun kind c rs).flatMap Run.text = c :: rs.flatMap Run.text := by
  cases rs with
  | nil => rfl
  | cons r rs =>
    simp only [consRun]
    split <;> simp [Run.text]

theorem flatten_runs (kind : Char → Option κ) (text : List Char) :
    (runs kind text).flatMap Run.text = text := by
  induction text with
  | nil => rfl
  | cons c text ih => rw [runs_cons, flatMap_consRun, ih]

end LineCalculator.Text
