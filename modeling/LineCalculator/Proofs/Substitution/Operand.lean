import LineCalculator.Proofs.Decimal.ReadBack
import LineCalculator.Proofs.Double.Bits
import LineCalculator.Proofs.Grammar.Completeness
import LineCalculator.Substitution
/-! # Rendered values are operands

The text that is put in the stead of a bound name is a single factor, which has the value that the
name is bound to.

* `operand x`: the factor.
* `value_operand`: its value is `x`, the same NaN, the same zero.
* `spells_operand`: its lexemes are spelled by the rendered text, whatever does not run together
  with it may follow.
* `depth_operand`: how many factors it opens.
-/

namespace LineCalculator.Substitution
set_option autoImplicit false
open Text Expression

/-! ## The factor of a value -/

/-- A division in parentheses. -/
def quotient (x y : FactorTree) : FactorTree := .group (.term (.scale (.factor x) .over y))

/-- A whole number as a factor. -/
def whole (n : Nat) : FactorTree := .number (Decimal.numeral ⟨n, 0⟩)

/-- The factor that a value is rendered as. -/
def operand (x : Float) : FactorTree :=
  if Double.isNaN x then quotient (whole 0) (whole 0)
  else if Double.isInfinite x then
    if Double.isNegative x then quotient (.sign .minus (whole 1)) (whole 0)
    else quotient (whole 1) (whole 0)
  else if Double.isNegative x then
    .sign .minus (.number (Decimal.shortest (Double.rank x)).numeral)
  else .number (Decimal.shortest (Double.rank x)).numeral

/-! ## Its value -/

theorem value_whole (v : String → Float) (n : Nat) :
    (whole n).value v = .value (Decimal.toFloat ⟨n, 0⟩) := by
  rw [whole, FactorTree.value, Decimal.toFloat_decimal_numeral]

theorem value_quotient (v : String → Float) {x y : FactorTree} {a b : Float}
    (hx : x.value v = .value a) (hy : y.value v = .value b) :
    (quotient x y).value v = .value (a / b) := by
  simp only [quotient, FactorTree.value, SumTree.value, TermTree.value, hx, hy,
    Logged.value_bind, Scale.combine]

theorem value_negative (v : String → Float) {x : FactorTree} {a : Float}
    (hx : x.value v = .value a) : (FactorTree.sign .minus x).value v = .value (-a) := by
  simp only [FactorTree.value, hx, Logged.value_bind, Sign.ofOperand]

theorem zero_div_zero : Decimal.toFloat ⟨0, 0⟩ / Decimal.toFloat ⟨0, 0⟩ = 0 / 0 := by
  decide +kernel

theorem one_div_zero : Decimal.toFloat ⟨1, 0⟩ / Decimal.toFloat ⟨0, 0⟩ =
    Double.ofRank false Double.infinityRank := by
  decide +kernel

theorem neg_one_div_zero : -Decimal.toFloat ⟨1, 0⟩ / Decimal.toFloat ⟨0, 0⟩ =
    Double.ofRank true Double.infinityRank := by
  decide +kernel

theorem rank_lt_of_finite {x : Float} (hnan : ¬ Double.isNaN x = true)
    (hinf : ¬ Double.isInfinite x = true) : Double.rank x < Double.infinityRank := by
  have h1 : ¬ Double.infinityRank < Double.rank x := fun h => hnan (decide_eq_true h)
  have h2 : ¬ Double.rank x = Double.infinityRank := fun h => hinf (decide_eq_true h)
  omega

theorem value_operand (v : String → Float) (x : Float) : (operand x).value v = .value x := by
  unfold operand
  split
  · rename_i hnan
    rw [value_quotient v (value_whole v 0) (value_whole v 0), zero_div_zero,
      ← Double.eq_zero_div_zero_of_isNaN hnan]
  · rename_i hnan
    have hx := Double.ofRank_isNegative_rank (Bool.eq_false_iff.2 hnan)
    split
    · rename_i hinf
      have hr : Double.rank x = Double.infinityRank := of_decide_eq_true hinf
      split
      · rename_i hneg
        rw [hneg, hr] at hx
        rw [value_quotient v (value_negative v (value_whole v 1)) (value_whole v 0),
          neg_one_div_zero, hx]
      · rename_i hneg
        rw [Bool.eq_false_iff.2 hneg, hr] at hx
        rw [value_quotient v (value_whole v 1) (value_whole v 0), one_div_zero, hx]
    · rename_i hinf
      have hr := rank_lt_of_finite hnan hinf
      have hshort : (FactorTree.number (Decimal.shortest (Double.rank x)).numeral).value v =
          .value (Double.ofRank false (Double.rank x)) := by
        rw [FactorTree.value, Decimal.toFloat_decimal_numeral, Decimal.toFloat_shortest hr]
      split
      · rename_i hneg
        rw [hneg] at hx
        rw [value_negative v hshort, Double.neg_ofRank false hr.le, Bool.not_false, hx]
      · rename_i hneg
        rw [Bool.eq_false_iff.2 hneg] at hx
        rw [hshort, hx]

/-! ## Its text -/

/-- No name is among the lexemes of a rendered value. -/
theorem resolved_operand (env : Environment) (x : Float) :
    ∀ l ∈ (operand x).lexemes, l.Resolved env := by
  unfold operand
  split
  · simp [quotient, whole, FactorTree.lexemes, SumTree.lexemes, TermTree.lexemes, Scale.mark,
      Lexeme.Resolved]
  · split
    · split
      · simp [quotient, whole, FactorTree.lexemes, SumTree.lexemes, TermTree.lexemes, Scale.mark,
          Sign.mark, Lexeme.Resolved]
      · simp [quotient, whole, FactorTree.lexemes, SumTree.lexemes, TermTree.lexemes, Scale.mark,
          Lexeme.Resolved]
    · split
      · simp [FactorTree.lexemes, Sign.mark, Lexeme.Resolved]
      · simp [FactorTree.lexemes, Lexeme.Resolved]

theorem render_of_finite {x : Float} (h : Double.rank x < Double.infinityRank) :
    render x =
      if Double.isNegative x then '-' :: (Decimal.shortest (Double.rank x)).numeral.text
      else (Decimal.shortest (Double.rank x)).numeral.text := by
  have hnan : ¬ Double.isNaN x = true := fun hn => absurd (of_decide_eq_true hn) (Nat.lt_asymm h)
  have hinf : ¬ Double.isInfinite x = true := fun hi => h.ne (of_decide_eq_true hi)
  have hfin : Double.isFinite x = true := decide_eq_true h
  rw [render, if_neg hnan, if_neg hinf, Layout.write, if_neg hnan, if_pos hfin]
  rfl

/-- Which characters a rendered value is made of. -/
theorem mem_render {x : Float} {c : Char} (h : c ∈ render x) :
    Decimal.isNumeralChar c = true ∨ c ∈ ['-', '/', '(', ')'] := by
  by_cases hnan : Double.isNaN x = true
  · rw [render, if_pos hnan] at h
    exact (by decide : ∀ d ∈ "(0/0)".toList,
      Decimal.isNumeralChar d = true ∨ d ∈ ['-', '/', '(', ')']) c h
  by_cases hinf : Double.isInfinite x = true
  · rw [render, if_neg hnan, if_pos hinf] at h
    split at h
    · exact (by decide : ∀ d ∈ "(-1/0)".toList,
        Decimal.isNumeralChar d = true ∨ d ∈ ['-', '/', '(', ')']) c h
    · exact (by decide : ∀ d ∈ "(1/0)".toList,
        Decimal.isNumeralChar d = true ∨ d ∈ ['-', '/', '(', ')']) c h
  · rw [render_of_finite (rank_lt_of_finite hnan hinf)] at h
    split at h
    · rcases List.mem_cons.1 h with rfl | h
      · exact .inr (by decide)
      · exact .inl (Numeral.isNumeral _ |>.1 c h)
    · exact .inl (Numeral.isNumeral _ |>.1 c h)

section Spelling
variable {ws : List (List Char)} {piece rest : List Char}

theorem spells_mark {c : Char} (h : Spells tokenKind ws rest) (hc : tokenKind c = none) :
    Spells tokenKind ([c] :: ws) (c :: rest) :=
  .word 0 h (Apart.after_char [] rest hc)

theorem spellsBefore_mark {c : Char} (h : SpellsBefore rest ws piece) (hc : tokenKind c = none) :
    SpellsBefore rest ([c] :: ws) (c :: piece) :=
  .word 0 h (Apart.after_char [] (piece ++ rest) hc)

/-- A numeral may stand before a mark. -/
theorem spellsBefore_numeral_mark {w : List Char} {c : Char} (h : SpellsBefore rest ws (c :: piece))
    (hc : tokenKind c = none) : SpellsBefore rest (w :: ws) (w ++ c :: piece) :=
  .word 0 h (Apart.before_char w (piece ++ rest) hc)

theorem spellsBefore_numeral {n : Numeral} (ha : Apart tokenKind n.text rest) :
    SpellsBefore rest [n.text] n.text := by
  have h : SpellsBefore rest [n.text] (n.text ++ []) := .word 0 .nil ha
  rwa [List.append_nil] at h

theorem spellsBefore_operand (x : Float) (ha : Apart tokenKind (render x) rest) :
    SpellsBefore rest ((operand x).lexemes.map Lexeme.text) (render x) := by
  have h0 : (Decimal.numeral ⟨0, 0⟩).text = ['0'] := rfl
  have h1 : (Decimal.numeral ⟨1, 0⟩).text = ['1'] := rfl
  have hclose : SpellsBefore rest [[')']] [')'] := spellsBefore_mark .nil (by decide)
  have hover : SpellsBefore rest [['/'], ['0'], [')']] ['/', '0', ')'] :=
    spellsBefore_mark (spellsBefore_numeral_mark hclose (by decide)) (by decide)
  unfold operand
  split
  · rename_i hnan
    rw [render, if_pos hnan]
    exact spellsBefore_mark (spellsBefore_numeral_mark hover (by decide)) (by decide)
  · rename_i hnan
    split
    · rename_i hinf
      rw [render, if_neg hnan, if_pos hinf]
      split
      · exact spellsBefore_mark (spellsBefore_mark (spellsBefore_numeral_mark hover (by decide))
          (by decide)) (by decide)
      · exact spellsBefore_mark (spellsBefore_numeral_mark hover (by decide)) (by decide)
    · rename_i hinf
      have hr := rank_lt_of_finite hnan hinf
      rw [render_of_finite hr] at ha ⊢
      split
      · rename_i hneg
        rw [if_pos hneg] at ha
        have hlast : ('-' :: (Decimal.shortest (Double.rank x)).numeral.text).getLast? =
            (Decimal.shortest (Double.rank x)).numeral.text.getLast? := by
          rw [List.getLast?_cons, List.getLast?_eq_some_getLast (Numeral.text_ne_nil _)]
          rfl
        exact spellsBefore_mark (spellsBefore_numeral (ha.congr_left hlast)) (by decide)
      · rename_i hneg
        rw [if_neg hneg] at ha
        exact spellsBefore_numeral ha

theorem spells_operand (x : Float) (h : Spells tokenKind ws rest)
    (ha : Apart tokenKind (render x) rest) :
    Spells tokenKind ((operand x).lexemes.map Lexeme.text ++ ws) (render x ++ rest) :=
  (spellsBefore_operand x ha).spells h

end Spelling

/-! ## Its depth -/

theorem depth_operand (x : Float) :
    (operand x).depth =
      if Double.isNaN x then 2
      else if Double.isInfinite x then if Double.isNegative x then 3 else 2
      else if Double.isNegative x then 2 else 1 := by
  unfold operand
  split
  · rfl
  · split
    · split
      · rfl
      · rfl
    · split
      · rfl
      · rfl

theorem depth_operand_le (x : Float) : (operand x).depth ≤ 3 := by
  rw [depth_operand]
  split
  · omega
  · split <;> split <;> omega

end LineCalculator.Substitution
