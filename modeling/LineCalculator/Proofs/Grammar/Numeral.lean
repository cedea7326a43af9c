import LineCalculator.Decimal.Numeral
import Mathlib.Data.List.TakeWhile
/-! # Numerals

* `IsNumeral`: a row of digits with at most one point, and at least one digit.
* `isSome_read?_iff`: these are the texts that are read as a decimal.
* `Numeral`: a text with this property; `Numeral.decimal` is what it denotes.
-/

namespace LineCalculator.Expression
set_option autoImplicit false

/-- A row of digits with at most one point, and at least one digit. -/
def IsNumeral (w : List Char) : Prop :=
  (∀ c ∈ w, Decimal.isNumeralChar c = true) ∧ (∃ c ∈ w, c.isDigit = true) ∧ w.count '.' ≤ 1

/-- An unsigned number as it is spelled. -/
structure Numeral where
  text : List Char
  isNumeral : IsNumeral text

theorem isDigit_of_isNumeralChar {c : Char} (h : Decimal.isNumeralChar c = true) (hc : c ≠ '.') :
    c.isDigit = true := by
  simpa [Decimal.isNumeralChar, hc] using h

theorem not_isDigit_point : Char.isDigit '.' = false := by decide

theorem isNumeralChar_of_isDigit {c : Char} (h : c.isDigit = true) :
    Decimal.isNumeralChar c = true := by
  simp [Decimal.isNumeralChar, h]

theorem count_point_of_forall_isDigit {w : List Char} (h : ∀ c ∈ w, c.isDigit = true) :
    w.count '.' = 0 := by
  refine List.count_eq_zero.2 fun hp => ?_
  have hd := h _ hp
  rw [not_isDigit_point] at hd
  cases hd

theorem isNumeral_of_digits {w : List Char} (h : ∀ c ∈ w, c.isDigit = true) (hne : w ≠ []) :
    IsNumeral w := by
  obtain ⟨c, t, rfl⟩ := List.exists_cons_of_ne_nil hne
  refine ⟨fun x hx => isNumeralChar_of_isDigit (h x hx), ⟨c, by simp, h c (by simp)⟩, ?_⟩
  rw [count_point_of_forall_isDigit h]
  exact Nat.zero_le 1

theorem isNumeral_of_point {whole fraction : List Char} (hw : ∀ c ∈ whole, c.isDigit = true)
    (hf : ∀ c ∈ fraction, c.isDigit = true) (hne : whole ++ fraction ≠ []) :
    IsNumeral (whole ++ '.' :: fraction) := by
  refine ⟨?_, ?_, ?_⟩
  · intro c hc
    rcases List.mem_append.1 hc with hc | hc
    · exact isNumeralChar_of_isDigit (hw c hc)
    · rcases List.mem_cons.1 hc with rfl | hc
      · rfl
      · exact isNumeralChar_of_isDigit (hf c hc)
  · obtain ⟨c, t, hct⟩ := List.exists_cons_of_ne_nil hne
    have hc : c ∈ whole ++ fraction := hct ▸ List.mem_cons_self
    rcases List.mem_append.1 hc with hc | hc
    · exact ⟨c, by simp [hc], hw c hc⟩
    · exact ⟨c, by simp [hc], hf c hc⟩
  · rw [List.count_append, List.count_cons_self, count_point_of_forall_isDigit hw,
      count_point_of_forall_isDigit hf]

/-- A text is read as a decimal exactly when it is a numeral. -/
theorem isSome_read?_iff (w : List Char) : (Decimal.read? w).isSome ↔ IsNumeral w := by
  have hsplit := List.takeWhile_append_dropWhile (p := Char.isDigit) (l := w)
  have hwhole : ∀ c ∈ w.takeWhile Char.isDigit, c.isDigit = true :=
    fun c hc => List.mem_takeWhile_imp hc
  simp only [Decimal.read?]
  split
  · rename_i hd
    rw [hd, List.append_nil] at hsplit
    rw [hsplit] at hwhole ⊢
    by_cases hw : w = []
    · subst hw
      simp [IsNumeral]
    · simp only [hw, if_false, Option.isSome_some, true_iff]
      exact isNumeral_of_digits hwhole hw
  · rename_i c fraction hd
    have hc : c.isDigit = false := by
      have h := List.head?_dropWhile_not Char.isDigit w
      simpa [hd] using h
    rw [hd] at hsplit
    constructor
    · intro h
      split at h
      · rename_i hcond
        obtain ⟨rfl, hf, hne⟩ := hcond
        rw [← hsplit]
        exact isNumeral_of_point hwhole (by simpa using hf) hne
      · cases h
    · rintro ⟨hchars, ⟨d, hdw, hdd⟩, hcount⟩
      have hp : c = '.' := by
        by_contra hp
        have := isDigit_of_isNumeralChar (hchars c (by rw [← hsplit]; simp)) hp
        rw [this] at hc
        cases hc
      subst hp
      rw [← hsplit, List.count_append, List.count_cons_self] at hcount
      have hf0 : fraction.count '.' = 0 := by omega
      have hf : ∀ x ∈ fraction, x.isDigit = true := fun x hx =>
        isDigit_of_isNumeralChar (hchars x (by rw [← hsplit]; simp [hx]))
          fun he => List.count_eq_zero.1 hf0 (he ▸ hx)
      have hne : w.takeWhile Char.isDigit ++ fraction ≠ [] := by
        intro he
        obtain ⟨h1, h2⟩ := List.append_eq_nil_iff.1 he
        rw [h1, h2] at hsplit
        rw [← hsplit] at hdw
        rw [List.mem_singleton.1 hdw, not_isDigit_point] at hdd
        cases hdd
      rw [if_pos ⟨rfl, by simpa using hf, hne⟩]
      rfl

namespace Numeral

/-- The decimal that a numeral denotes. -/
def decimal (n : Numeral) : Decimal :=
  (Decimal.read? n.text).get ((isSome_read?_iff n.text).2 n.isNumeral)

theorem text_ne_nil (n : Numeral) : n.text ≠ [] := by
  obtain ⟨-, ⟨c, hc, -⟩, -⟩ := n.isNumeral
  exact List.ne_nil_of_mem hc

theorem read?_text (n : Numeral) : Decimal.read? n.text = some n.decimal :=
  (Option.some_get _).symm

theorem exists_of_read? {w : List Char} {d : Decimal} (h : Decimal.read? w = some d) :
    ∃ n : Numeral, n.text = w ∧ n.decimal = d := by
  refine ⟨⟨w, (isSome_read?_iff w).1 (by rw [h]; rfl)⟩, rfl, ?_⟩
  exact Option.some.inj ((read?_text _).symm.trans h)

end Numeral

end LineCalculator.Expression
