import LineCalculator.Text.Blank
import Mathlib
/-! # Blanks at the ends

* `trim_eq_self`: a text without blanks is kept.
* `exists_trim`: a text is its trimmed part between blanks.
* `trim_append_left`, `trim_append_right`: blanks put at either end change nothing.
-/

namespace LineCalculator.Text
set_option autoImplicit false

variable {text blanks : List Char}

theorem isBlank_of_isAlpha {c : Char} (h : c.isAlpha = true) : isBlank c = false := by
  apply Bool.eq_false_iff.2
  intro hb
  simp only [Char.isAlpha, Char.isUpper, Char.isLower, Bool.or_eq_true, Bool.and_eq_true,
    decide_eq_true_eq, UInt32.le_iff_toNat_le] at h
  simp only [isBlank, inRanges, blankRanges, List.any_cons, List.any_nil, Bool.or_eq_true,
    Bool.and_eq_true, decide_eq_true_eq, Bool.or_false] at hb
  simp at h
  have hc : c.toNat = c.val.toNat := rfl
  omega

theorem isBlank_of_isDigit {c : Char} (h : c.isDigit = true) : isBlank c = false := by
  apply Bool.eq_false_iff.2
  intro hb
  simp only [Char.isDigit, Bool.and_eq_true, decide_eq_true_eq, UInt32.le_iff_toNat_le,
    ge_iff_le] at h
  simp only [isBlank, inRanges, blankRanges, List.any_cons, List.any_nil, Bool.or_eq_true,
    Bool.and_eq_true, decide_eq_true_eq, Bool.or_false] at hb
  simp at h
  have hc : c.toNat = c.val.toNat := rfl
  omega

theorem dropWhile_isBlank_eq_self (h : ∀ c ∈ text.head?, isBlank c = false) :
    text.dropWhile isBlank = text := by
  cases text with
  | nil => rfl
  | cons c text => rw [List.dropWhile_cons_of_neg (by simp [h c rfl])]

theorem trimEnd_append_right (h : ∀ c ∈ blanks, isBlank c = true) :
    trimEnd (text ++ blanks) = trimEnd text := by
  rw [trimEnd, trimEnd, List.reverse_append,
    List.dropWhile_append_of_pos fun c hc => h c (List.mem_reverse.1 hc)]

theorem trimEnd_eq_self (h : ∀ c ∈ text.getLast?, isBlank c = false) : trimEnd text = text := by
  rw [trimEnd, dropWhile_isBlank_eq_self, List.reverse_reverse]
  rwa [List.head?_reverse]

theorem trim_append_left (h : ∀ c ∈ blanks, isBlank c = true) :
    trim (blanks ++ text) = trim text := by
  rw [trim, List.dropWhile_append_of_pos h, trim]

theorem trim_append_right (h : ∀ c ∈ blanks, isBlank c = true) :
    trim (text ++ blanks) = trim text := by
  rw [trim, List.dropWhile_append]
  split
  · rename_i hall
    have hnil : text.dropWhile isBlank = [] := List.isEmpty_iff.1 hall
    rw [List.dropWhile_eq_nil_iff.2 h, trim, hnil]
  · exact trimEnd_append_right h

/-- A text that neither begins nor ends with a blank is kept. -/
theorem trim_eq_self_of_ends (hfirst : ∀ c ∈ text.head?, isBlank c = false)
    (hlast : ∀ c ∈ text.getLast?, isBlank c = false) : trim text = text := by
  rw [trim, dropWhile_isBlank_eq_self hfirst, trimEnd_eq_self hlast]

theorem trim_eq_self (h : ∀ c ∈ text, isBlank c = false) : trim text = text :=
  trim_eq_self_of_ends (fun c hc => h c (List.mem_of_mem_head? hc))
    fun c hc => h c (List.mem_of_getLast? hc)

theorem exists_trim (text : List Char) : ∃ before after, text = before ++ (trim text ++ after) ∧
    (∀ c ∈ before, isBlank c = true) ∧ ∀ c ∈ after, isBlank c = true := by
  have hbefore : text.takeWhile isBlank ++ text.dropWhile isBlank = text :=
    List.takeWhile_append_dropWhile
  have hafter := congrArg List.reverse
    (List.takeWhile_append_dropWhile (p := isBlank) (l := (text.dropWhile isBlank).reverse))
  rw [List.reverse_append, List.reverse_reverse] at hafter
  refine ⟨text.takeWhile isBlank, ((text.dropWhile isBlank).reverse.takeWhile isBlank).reverse,
    ?_, fun c hc => List.mem_takeWhile_imp hc,
    fun c hc => List.mem_takeWhile_imp (List.mem_reverse.1 hc)⟩
  rw [trim, trimEnd, hafter, hbefore]

theorem mem_trim_iff {c : Char} (h : isBlank c = false) : c ∈ trim text ↔ c ∈ text := by
  obtain ⟨before, after, he, hbefore, hafter⟩ := exists_trim text
  have hnb : ∀ l : List Char, (∀ d ∈ l, isBlank d = true) → c ∉ l := by
    intro l hl hc
    rw [hl c hc] at h
    cases h
  have hmem : c ∈ text ↔ c ∈ before ++ (trim text ++ after) := by rw [← he]
  rw [hmem, List.mem_append, List.mem_append, or_iff_right (hnb before hbefore),
    or_iff_left (hnb after hafter)]

end LineCalculator.Text
