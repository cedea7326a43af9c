import LineCalculator.Substitution
import LineCalculator.Proofs.Environment
import LineCalculator.Proofs.Text.Cut
import Mathlib
/-! # Rewriting a text word by word

* `mapWords f text`: every word and every other character of the text is rewritten by `f`;
  `substitute` is of this kind.
* `mapWords_append`: two texts that do not run together into one word are rewritten separately.
* `substitute_append_of_digit`: letters that run into a digit are no name, and stay.
-/

namespace LineCalculator.Substitution
set_option autoImplicit false
open Text

/-! ## Words -/

theorem wordKind_of_isWord {c : Char} (h : isWord c = true) : wordKind c = some () := if_pos h

theorem wordKind_of_not_isWord {c : Char} (h : isWord c = false) : wordKind c = none := by
  simp [wordKind, h]

theorem isWord_of_isAlpha {c : Char} (h : c.isAlpha = true) : isWord c = true := by
  have hlt : c.toNat < 128 := by
    simp only [Char.isAlpha, Char.isUpper, Char.isLower, Bool.or_eq_true, Bool.and_eq_true,
      decide_eq_true_eq, UInt32.le_iff_toNat_le] at h
    simp at h
    omega
  simp [isWord, hlt, Char.isAlphanum, h]

theorem isWord_of_isDigit {c : Char} (h : c.isDigit = true) : isWord c = true := by
  have hlt : c.toNat < 128 := by
    simp only [Char.isDigit, Bool.and_eq_true, decide_eq_true_eq, UInt32.le_iff_toNat_le] at h
    simp at h
    omega
  simp [isWord, hlt, Char.isAlphanum, h]

theorem isWord_space : isWord ' ' = false := by decide

/-! ## Rewriting -/

def mapWords (f : List Char → List Char) (text : List Char) : List Char :=
  (words text).flatMap fun r => f r.text

variable {f : List Char → List Char}

theorem mapWords_append {a b : List Char} (h : Apart wordKind a b) :
    mapWords f (a ++ b) = mapWords f a ++ mapWords f b := by
  rw [mapWords, words, runs_append h, List.flatMap_append]
  rfl

theorem mapWords_of_word {w : List Char} (hw : ∀ c ∈ w, isWord c = true) (hne : w ≠ []) :
    mapWords f w = f w := by
  obtain ⟨c, more, rfl⟩ := List.exists_cons_of_ne_nil hne
  rw [mapWords, words, runs_of_forall fun x hx => wordKind_of_isWord (hw x hx)]
  simp [Run.text]

theorem mapWords_cons {c : Char} (t : List Char) (hc : isWord c = false) :
    mapWords f (c :: t) = f [c] ++ mapWords f t := by
  rw [mapWords, words, runs_cons_of_none t (wordKind_of_not_isWord hc)]
  rfl

theorem mapWords_word_append {w t : List Char} (hw : ∀ c ∈ w, isWord c = true) (hne : w ≠ [])
    (ht : ∀ c ∈ t.head?, isWord c = false) : mapWords f (w ++ t) = f w ++ mapWords f t := by
  rw [mapWords_append (Apart.of_right w fun c hc => wordKind_of_not_isWord (ht c hc)),
    mapWords_of_word hw hne]

/-! ## Substitution -/

variable (env : Environment)

theorem substitute_eq_mapWords : substitute env = mapWords (replace env) := rfl

/-- Only a name is replaced. -/
theorem replace_eq_self {w : List Char} (h : ¬ IsName (String.ofList w)) : replace env w = w := by
  rw [replace, Environment.get?_eq_none_of_not_isName h]

theorem not_isName_of_mem {w : List Char} {c : Char} (hc : c ∈ w) (h : c.isAlpha = false) :
    ¬ IsName (String.ofList w) := by
  intro hn
  have ha := hn.2 c (by rwa [String.toList_ofList])
  rw [h] at ha
  cases ha

theorem isAlpha_eq_false_of_isDigit {c : Char} (h : c.isDigit = true) : c.isAlpha = false := by
  apply Bool.eq_false_iff.2
  intro ha
  simp only [Char.isAlpha, Char.isUpper, Char.isLower, Char.isDigit, Bool.or_eq_true,
    Bool.and_eq_true, decide_eq_true_eq, UInt32.le_iff_toNat_le] at h ha
  simp at h ha
  omega

theorem isAlpha_eq_false_of_not_isWord {c : Char} (h : isWord c = false) : c.isAlpha = false := by
  apply Bool.eq_false_iff.2
  intro ha
  rw [isWord_of_isAlpha ha] at h
  cases h

theorem substitute_cons {c : Char} (t : List Char) (hc : isWord c = false) :
    substitute env (c :: t) = c :: substitute env t := by
  have hn := not_isName_of_mem (List.mem_singleton.2 rfl) (isAlpha_eq_false_of_not_isWord hc)
  rw [substitute_eq_mapWords, mapWords_cons t hc, replace_eq_self env hn]
  rfl

/-- A text is substituted in separately before and after a character that is in no word. -/
theorem substitute_append_cons {c : Char} (a b : List Char) (hc : isWord c = false) :
    substitute env (a ++ c :: b) = substitute env a ++ c :: substitute env b := by
  have happart : Apart wordKind a (c :: b) := Apart.before_char a b (wordKind_of_not_isWord hc)
  rw [substitute_eq_mapWords, mapWords_append happart, ← substitute_eq_mapWords,
    substitute_cons env b hc]

theorem substitute_group (text : List Char) :
    substitute env ('(' :: (text ++ [')'])) = '(' :: (substitute env text ++ [')']) := by
  rw [substitute_cons env _ (by decide), substitute_append_cons env text [] (by decide)]
  rfl

/-- A character that is in no word stays. -/
theorem mem_substitute {c : Char} {t : List Char} (hc : isWord c = false) (h : c ∈ t) :
    c ∈ substitute env t := by
  obtain ⟨a, b, rfl⟩ := List.append_of_mem h
  rw [substitute_append_cons env a b hc]
  exact List.mem_append_right _ List.mem_cons_self

theorem substitute_word_append {w t : List Char} (hw : ∀ c ∈ w, isWord c = true) (hne : w ≠ [])
    (ht : ∀ c ∈ t.head?, isWord c = false) :
    substitute env (w ++ t) = replace env w ++ substitute env t := by
  rw [substitute_eq_mapWords, mapWords_word_append hw hne ht]

theorem substitute_blanks (n : Nat) (t : List Char) :
    substitute env (List.replicate n ' ' ++ t) = List.replicate n ' ' ++ substitute env t := by
  induction n with
  | zero => rfl
  | succ n ih =>
    rw [List.replicate_succ, List.cons_append, substitute_cons env _ isWord_space, ih]
    rfl

/-- The first character stays when it is no word character. -/
theorem head?_substitute {t : List Char} (h : ∀ c ∈ t.head?, isWord c = false) :
    (substitute env t).head? = t.head? := by
  cases t with
  | nil => rfl
  | cons c t => rw [substitute_cons env t (h c rfl), List.head?_cons, List.head?_cons]

/-- So does the last one. -/
theorem getLast?_substitute {t : List Char} (h : ∀ c ∈ t.getLast?, isWord c = false) :
    (substitute env t).getLast? = t.getLast? := by
  rcases List.eq_nil_or_concat' t with rfl | ⟨t, c, rfl⟩
  · rfl
  · have hc := h c List.getLast?_concat
    rw [substitute_append_cons env t [] hc, List.getLast?_concat]
    exact List.getLast?_concat

/-- A word with a digit in it is no name, and stays. -/
theorem substitute_append_of_mem {w : List Char} {d : Char} (t : List Char)
    (hw : ∀ c ∈ w, isWord c = true) (hmem : d ∈ w) (hd : d.isDigit = true) :
    substitute env (w ++ t) = w ++ (t.takeWhile isWord ++ substitute env (t.dropWhile isWord)) := by
  have hall : ∀ c ∈ w ++ t.takeWhile isWord, isWord c = true :=
    List.forall_mem_append.2 ⟨hw, fun c hc => List.mem_takeWhile_imp hc⟩
  have hrest : ∀ c ∈ (t.dropWhile isWord).head?, isWord c = false := by
    intro c hc
    have h := List.head?_dropWhile_not isWord t
    rw [hc] at h
    exact h
  have hn : ¬ IsName (String.ofList (w ++ t.takeWhile isWord)) :=
    not_isName_of_mem (List.mem_append_left _ hmem) (isAlpha_eq_false_of_isDigit hd)
  have hne : w ++ t.takeWhile isWord ≠ [] := List.ne_nil_of_mem (List.mem_append_left _ hmem)
  have h := substitute_word_append env hall hne hrest
  rwa [replace_eq_self env hn, List.append_assoc, List.takeWhile_append_dropWhile,
    List.append_assoc] at h

theorem substitute_digit_cons {t : List Char} {d : Char} (hd : d.isDigit = true) :
    substitute env (d :: t) = d :: (t.takeWhile isWord ++ substitute env (t.dropWhile isWord)) := by
  have hw : ∀ c ∈ [d], isWord c = true := by
    intro c hc
    rw [List.mem_singleton.1 hc]
    exact isWord_of_isDigit hd
  exact substitute_append_of_mem env t hw (List.mem_singleton.2 rfl) hd

/-- Letters that run into a digit are no name, and stay. -/
theorem substitute_append_of_digit {w t : List Char} {d : Char} (hw : ∀ c ∈ w, isWord c = true)
    (hd : d.isDigit = true) : substitute env (w ++ d :: t) = w ++ substitute env (d :: t) := by
  have hwd : ∀ c ∈ w ++ [d], isWord c = true := by
    intro c hc
    rcases List.mem_append.1 hc with hc | hc
    · exact hw c hc
    · rw [List.mem_singleton.1 hc]
      exact isWord_of_isDigit hd
  have h := substitute_append_of_mem env t hwd (by simp) hd
  rw [List.append_assoc, List.append_assoc, List.singleton_append] at h
  rw [h, substitute_digit_cons env hd]
  rfl

/-- Letters stay when no letter follows that they run into. -/
theorem substitute_append_of_head? {w t : List Char} (hw : ∀ c ∈ w, isWord c = true)
    (hne : w ≠ []) (hn : replace env w = w)
    (ht : ∀ c ∈ t.head?, c.isDigit = true ∨ isWord c = false) :
    substitute env (w ++ t) = w ++ substitute env t := by
  have stay (h : ∀ c ∈ t.head?, isWord c = false) :
      substitute env (w ++ t) = w ++ substitute env t := by
    rw [substitute_word_append env hw hne h, hn]
  cases t with
  | nil => exact stay fun c hc => nomatch hc
  | cons c t =>
    rcases ht c rfl with hd | hc
    · exact substitute_append_of_digit env hw hd
    · exact stay fun x hx => by cases hx; exact hc

end LineCalculator.Substitution
