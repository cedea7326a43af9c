import LineCalculator.Decimal.Layout
import LineCalculator.Proofs.Double.Rounding
import LineCalculator.Proofs.Grammar.Numeral
/-! # Written doubles are read back

The shortest decimal of a magnitude lies in the interval that rounds to it, and in the plain layout
it is written as a numeral that denotes the same number. So reading the numeral gives the magnitude
back.

* `shortest_contains`: the shortest decimal lies in the rounding interval.
* `toFloat_shortest`: so it is rounded to the magnitude it was made from.
* `read?_writePositional`: what the numeral of a decimal denotes.
* `numeral`, `toFloat_decimal_numeral`: the numeral of a decimal has the decimal's value.
-/

namespace LineCalculator
set_option autoImplicit false

/-! ## The shortest decimal -/

namespace Decimal

variable {i : Interval}

theorem Interval.contains_of_onGrid? {t c : Nat} (h : i.onGrid? t = some c) :
    i.contains (c * (2 * 10 ^ t)) = true := by
  unfold Interval.onGrid? at h
  dsimp only at h
  split at h
  · cases h
  · cases h
    assumption
  · cases h
    assumption
  · split at h
    · cases h
      assumption
    · cases h
      assumption

/-- The search ends at a point of the interval, at the latest at the magnitude itself. -/
theorem Interval.coarsest_contains (heven : i.value / 2 * 2 = i.value)
    (hvalue : i.contains i.value = true) (t : Nat) :
    ∃ c t' : Nat, i.coarsest t = ⟨c, (t' : Int) - Double.places⟩ ∧
      i.contains (c * (2 * 10 ^ t')) = true := by
  induction t with
  | zero =>
    refine ⟨i.value / 2, 0, ?_, ?_⟩
    · rw [Interval.coarsest]
      congr 1
    · rwa [Nat.pow_zero, Nat.mul_one, heven]
  | succ t ih =>
    rw [Interval.coarsest]
    split
    · rename_i c hc
      exact ⟨c, t + 1, rfl, Interval.contains_of_onGrid? hc⟩
    · exact ih

theorem Interval.contains_value_ofRank {r : Nat} (hr : r ≠ 0) :
    (Interval.ofRank r).contains (Interval.ofRank r).value = true := by
  obtain ⟨p, rfl⟩ := Nat.exists_eq_succ_of_ne_zero hr
  have h5 : 0 < 5 ^ Double.places := Nat.pow_pos (by decide)
  have hlow : (Interval.ofRank (p + 1)).low < (Interval.ofRank (p + 1)).value := by
    have h := Double.units_lt_units_succ p
    apply Nat.mul_lt_mul_of_pos_right _ h5
    show Double.units (p + 1 - 1) + _ < _
    rw [Nat.add_sub_cancel]
    omega
  have hhigh : (Interval.ofRank (p + 1)).value < (Interval.ofRank (p + 1)).high := by
    have h := Double.units_lt_units_succ (p + 1)
    apply Nat.mul_lt_mul_of_pos_right _ h5
    omega
  unfold Interval.contains
  split
  · simp [hlow.le, hhigh.le]
  · simp [hlow, hhigh]

theorem shortest_contains {r : Nat} (hr : r ≠ 0) :
    ∃ c t : Nat, shortest r = ⟨c, (t : Int) - Double.places⟩ ∧
      (Interval.ofRank r).contains (c * (2 * 10 ^ t)) = true := by
  rw [shortest, if_neg hr]
  refine Interval.coarsest_contains ?_ (Interval.contains_value_ofRank hr) _
  show 2 * Double.units r * 5 ^ Double.places / 2 * 2 = 2 * Double.units r * 5 ^ Double.places
  rw [Nat.mul_assoc, Nat.mul_div_cancel_left _ (by decide), Nat.mul_comm]

/-! ## Reading the shortest decimal -/

/-- A point of a decimal grid as a ratio. -/
theorem ratio_mul_ten_pow (c t P : Nat) :
    c * 10 ^ ((t : Int) - P).toNat * 10 ^ P = c * 10 ^ t * 10 ^ (-((t : Int) - P)).toNat := by
  have h : ((t : Int) - P).toNat + P = t + (-((t : Int) - P)).toNat := by omega
  rw [Nat.mul_assoc, Nat.mul_assoc, ← Nat.pow_add, ← Nat.pow_add, h]

section Scale
variable {P num den step c u : Nat}

/-- The ends of a rounding interval, in the steps of the interval and in the denominator of a
ratio. -/
theorem end_mul_eq : u * 5 ^ P * (den * 2 ^ P) = u * den * 10 ^ P := by
  rw [show (10 : Nat) = 5 * 2 from rfl, Nat.mul_pow]
  ring

theorem point_mul_eq (h : num * 10 ^ P = c * step * den) :
    c * (2 * step) * (den * 2 ^ P) = 2 * (num * 2 ^ P) * 10 ^ P := by
  calc c * (2 * step) * (den * 2 ^ P) = 2 * (c * step * den) * 2 ^ P := by ring
    _ = 2 * (num * 2 ^ P) * 10 ^ P := by rw [← h]; ring

variable (hden : 0 < den) (h : num * 10 ^ P = c * step * den)
include hden h

theorem end_le_point_iff : u * 5 ^ P ≤ c * (2 * step) ↔ u * den ≤ 2 * (num * 2 ^ P) := by
  have hk : 0 < den * 2 ^ P := Nat.mul_pos hden (Nat.two_pow_pos P)
  have ht : 0 < 10 ^ P := Nat.pow_pos (by decide)
  rw [← Nat.mul_le_mul_right_iff hk, end_mul_eq, point_mul_eq h, Nat.mul_le_mul_right_iff ht]

theorem point_le_end_iff : c * (2 * step) ≤ u * 5 ^ P ↔ 2 * (num * 2 ^ P) ≤ u * den := by
  have hk : 0 < den * 2 ^ P := Nat.mul_pos hden (Nat.two_pow_pos P)
  have ht : 0 < 10 ^ P := Nat.pow_pos (by decide)
  rw [← Nat.mul_le_mul_right_iff hk, end_mul_eq, point_mul_eq h, Nat.mul_le_mul_right_iff ht]

theorem end_lt_point_iff : u * 5 ^ P < c * (2 * step) ↔ u * den < 2 * (num * 2 ^ P) := by
  rw [← Nat.not_le, ← Nat.not_le, point_le_end_iff hden h]

theorem point_lt_end_iff : c * (2 * step) < u * 5 ^ P ↔ 2 * (num * 2 ^ P) < u * den := by
  rw [← Nat.not_le, ← Nat.not_le, end_le_point_iff hden h]

end Scale

/-- A point of the rounding interval of a rank is a ratio that rounds to it. -/
theorem rounds_of_contains {r c t num den : Nat} (hden : 0 < den)
    (h : num * 10 ^ Double.places = c * 10 ^ t * den)
    (hc : (Interval.ofRank r).contains (c * (2 * 10 ^ t)) = true) : Double.Rounds num den r := by
  have hparity : (Interval.ofRank r).closed = decide (r % 2 = 0) := rfl
  unfold Interval.contains at hc
  rw [hparity] at hc
  split at hc
  · rename_i heven
    have heven' : r % 2 = 0 := of_decide_eq_true heven
    obtain ⟨hlow, hhigh⟩ : _ ∧ _ := by simpa only [Bool.and_eq_true, decide_eq_true_eq] using hc
    refine ⟨(end_le_point_iff hden h).1 hlow, (point_le_end_iff hden h).1 hhigh, fun hodd => ?_⟩
    omega
  · obtain ⟨hlow, hhigh⟩ : _ ∧ _ := by simpa only [Bool.and_eq_true, decide_eq_true_eq] using hc
    have hlow' := (end_lt_point_iff hden h).1 hlow
    have hhigh' := (point_lt_end_iff hden h).1 hhigh
    exact ⟨hlow'.le, hhigh'.le, fun _ => ⟨hlow', hhigh'⟩⟩

/-- The shortest decimal of a finite magnitude is rounded to that magnitude. -/
theorem toFloat_shortest {r : Nat} (hr : r < Double.infinityRank) :
    (shortest r).toFloat = Double.ofRank false r := by
  have hden (n : Nat) : 0 < 10 ^ n := Nat.pow_pos (by decide)
  rw [toFloat, Double.nearest]
  congr 1
  by_cases h0 : r = 0
  · subst h0
    apply Double.nearestRank_eq (hden _) hr
    simp [shortest, Double.Rounds]
  · obtain ⟨c, t, hd, hc⟩ := shortest_contains h0
    rw [hd]
    exact Double.nearestRank_eq (hden _) hr
      (rounds_of_contains (hden _) (ratio_mul_ten_pow c t Double.places) hc)

/-! ## The written numeral -/

theorem read?_digits {w : List Char} (h : ∀ c ∈ w, c.isDigit = true) (hne : w ≠ []) :
    read? w = some ⟨ofDigits w, 0⟩ := by
  have hw : w.takeWhile Char.isDigit = w := List.takeWhile_eq_self_iff.2 h
  have hd : w.dropWhile Char.isDigit = [] := List.dropWhile_eq_nil_iff.2 h
  simp only [read?, hw, hd, hne, if_false]

theorem read?_point {whole fraction : List Char} (hw : ∀ c ∈ whole, c.isDigit = true)
    (hf : ∀ c ∈ fraction, c.isDigit = true) (hne : whole ++ fraction ≠ []) :
    read? (whole ++ '.' :: fraction) =
      some ⟨ofDigits (whole ++ fraction), -(fraction.length : Int)⟩ := by
  have ht : (whole ++ '.' :: fraction).takeWhile Char.isDigit = whole := by
    rw [List.takeWhile_append_of_pos hw]
    simp
  have hd : (whole ++ '.' :: fraction).dropWhile Char.isDigit = '.' :: fraction := by
    rw [List.dropWhile_append_of_pos hw]
    simp
  simp only [read?, ht, hd]
  rw [if_pos ⟨trivial, List.all_eq_true.2 hf, hne⟩]

variable (d : Decimal)

theorem isDigit_of_mem_digits {c : Char} (h : c ∈ d.digits) : c.isDigit = true :=
  Nat.isDigit_of_mem_toDigits (by decide) (by decide) h

theorem isDigit_of_mem_zeros {c : Char} {n : Nat} (h : c ∈ List.replicate n '0') :
    c.isDigit = true := by
  rw [List.eq_of_mem_replicate h]
  rfl

theorem ofDigits_digits : ofDigits d.digits = d.coefficient := Nat.ofDigitChars_ten_toDigits

theorem ofDigits_digits_append_zeros (n : Nat) :
    ofDigits (d.digits ++ List.replicate n '0') = d.coefficient * 10 ^ n := by
  show Nat.ofDigitChars 10 (Nat.toDigits 10 d.coefficient ++ List.replicate n '0') 0 = _
  rw [Nat.ofDigitChars_append, Nat.ofDigitChars_ten_toDigits, Nat.ofDigitChars_replicate_zero,
    Nat.mul_comm]

theorem ofDigits_zeros_append_digits (n : Nat) :
    ofDigits (List.replicate n '0' ++ d.digits) = d.coefficient := by
  show Nat.ofDigitChars 10 (List.replicate n '0' ++ Nat.toDigits 10 d.coefficient) 0 = _
  rw [Nat.ofDigitChars_append, Nat.ofDigitChars_replicate_zero, Nat.mul_zero,
    Nat.ofDigitChars_ten_toDigits]

/-- The numeral of a decimal denotes it, up to zeros that are taken out of the power of ten. -/
theorem read?_writePositional :
    ∃ d' : Decimal, read? (Layout.plain.writePositional d) = some d' ∧ d'.toFloat = d.toFloat := by
  have hdigits : ∀ c ∈ d.digits, c.isDigit = true := fun c hc => d.isDigit_of_mem_digits hc
  have hne : d.digits ≠ [] := Nat.toDigits_ne_nil
  unfold Layout.writePositional
  dsimp only
  split
  · rename_i h0
    have hz : ∀ c ∈ d.digits ++ List.replicate d.exponent.toNat '0', c.isDigit = true := by
      intro c hc
      rcases List.mem_append.1 hc with hc | hc
      · exact hdigits c hc
      · exact isDigit_of_mem_zeros hc
    refine ⟨⟨ofDigits (d.digits ++ List.replicate d.exponent.toNat '0'), 0⟩, ?_, ?_⟩
    · rw [show Layout.plain.wholeTail = [] from rfl, List.append_nil]
      exact read?_digits hz (by simp [hne])
    · have hexp : (-d.exponent).toNat = 0 := by omega
      rw [ofDigits_digits_append_zeros, toFloat, toFloat, hexp]
      simp
  · rename_i hneg
    have hback : -((-d.exponent).toNat : Int) = d.exponent := by omega
    split
    · rename_i hlt
      have hsplit := List.take_append_drop (d.digits.length - (-d.exponent).toNat) d.digits
      have hlen : (d.digits.drop (d.digits.length - (-d.exponent).toNat)).length =
          (-d.exponent).toNat := by
        rw [List.length_drop]
        omega
      refine ⟨_, read?_point (fun c hc => hdigits c (List.mem_of_mem_take hc))
        (fun c hc => hdigits c (List.mem_of_mem_drop hc)) (by rwa [hsplit]), ?_⟩
      rw [hsplit, hlen, hback, ofDigits_digits]
    · rename_i hle
      have hlen : (List.replicate ((-d.exponent).toNat - d.digits.length) '0' ++ d.digits).length =
          (-d.exponent).toNat := by
        rw [List.length_append, List.length_replicate]
        omega
      have hfraction : ∀ c ∈ List.replicate ((-d.exponent).toNat - d.digits.length) '0' ++ d.digits,
          c.isDigit = true := by
        intro c hc
        rcases List.mem_append.1 hc with hc | hc
        · exact isDigit_of_mem_zeros hc
        · exact hdigits c hc
      have hvalue := d.ofDigits_zeros_append_digits ((-d.exponent).toNat - d.digits.length + 1)
      rw [List.replicate_succ, List.cons_append] at hvalue
      have hzero : ∀ c ∈ ['0'], c.isDigit = true := by simp
      refine ⟨_, read?_point hzero hfraction (by simp), ?_⟩
      rw [hlen, hback, List.singleton_append, hvalue]

/-- The numeral of a decimal in the plain layout. -/
def numeral : Expression.Numeral where
  text := Layout.plain.writeDecimal d
  isNumeral := by
    obtain ⟨d', h, -⟩ := d.read?_writePositional
    exact (Expression.isSome_read?_iff _).1 (Option.isSome_iff_exists.2 ⟨d', h⟩)

theorem toFloat_decimal_numeral : d.numeral.decimal.toFloat = d.toFloat := by
  obtain ⟨d', h, hv⟩ := d.read?_writePositional
  have hd : d.numeral.decimal = d' := Option.some.inj (d.numeral.read?_text.symm.trans h)
  rw [hd, hv]

end Decimal

end LineCalculator
