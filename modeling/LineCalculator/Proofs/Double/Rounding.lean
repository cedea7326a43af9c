import LineCalculator.Double.Nearest
import Mathlib.Tactic.Ring
/-! # Ratios that round to a magnitude

A ratio rounds to a magnitude when it lies between the points half way to the two neighbours of
that magnitude. On such a point it rounds to the one of even rank.

* `succ_cases`: the magnitude after a magnitude.
* `Rounds num den r`: the ratio lies in the rounding interval of rank `r`.
* `roundHalfEven_eq`, `nearestRank_eq`: a ratio in the interval is rounded to its rank.
-/

namespace LineCalculator.Double
set_option autoImplicit false

/-! ## Neighbouring magnitudes -/

theorem shift_mul_add_significand (r : Nat) : shift r * 2 ^ 52 + significand r = r := by
  unfold shift significand
  split
  · omega
  · omega

theorem significand_lt (r : Nat) : significand r < 2 ^ 53 := by
  unfold significand
  split
  · omega
  · omega

theorem significand_pos {r : Nat} (hr : 0 < r) : 0 < significand r := by
  unfold significand
  split
  · exact hr
  · omega

/-- Only above the lowest binade is the significand bounded from below. -/
theorem shift_eq_zero_or_le_significand (r : Nat) : shift r = 0 ∨ 2 ^ 52 ≤ significand r := by
  unfold shift significand
  split
  · left
    omega
  · right
    omega

/-- The next magnitude has the next significand, or the least one of the next binade. -/
theorem succ_cases (r : Nat) :
    significand (r + 1) = significand r + 1 ∧ shift (r + 1) = shift r ∨
      significand (r + 1) = 2 ^ 52 ∧ significand r + 1 = 2 ^ 53 ∧ shift (r + 1) = shift r + 1 := by
  unfold shift significand
  by_cases h : r + 1 < 2 ^ 52
  · left
    rw [if_pos h, if_pos (by omega)]
    omega
  · rw [if_neg h]
    split
    · omega
    · omega

theorem units_succ (r : Nat) : units (r + 1) = (significand r + 1) * 2 ^ shift r := by
  rcases succ_cases r with ⟨hq, hs⟩ | ⟨hq, hq', hs⟩
  · rw [units, hq, hs]
  · rw [units, hq, hq', hs, Nat.pow_succ]
    omega

theorem units_lt_units_succ (r : Nat) : units r < units (r + 1) := by
  rw [units_succ, units]
  exact Nat.mul_lt_mul_of_pos_right (Nat.lt_succ_self _) (Nat.two_pow_pos _)

/-! ## Rounding to a whole number -/

/-- A ratio within a half of a whole number rounds to it, from a distance of a half only if that
number is even. -/
theorem roundHalfEven_eq {num den q : Nat} (hlow : 2 * (q * den) ≤ 2 * num + den)
    (hhigh : 2 * num ≤ 2 * (q * den) + den)
    (hodd : q % 2 = 1 → 2 * (q * den) < 2 * num + den ∧ 2 * num < 2 * (q * den) + den)
    (hden : 0 < den) : roundHalfEven num den = q := by
  have hnum : num / den * den + num % den = num := Nat.div_add_mod' num den
  have hleft : num % den < den := Nat.mod_lt _ hden
  have hle : num / den ≤ q := by
    by_contra hn
    have h : (q + 1) * den ≤ num / den * den := Nat.mul_le_mul_right den (Nat.not_le.1 hn)
    rw [Nat.add_mul] at h
    omega
  have hge : q ≤ num / den + 1 := by
    by_contra hn
    have h : (num / den + 2) * den ≤ q * den := Nat.mul_le_mul_right den (Nat.not_le.1 hn)
    rw [Nat.add_mul] at h
    omega
  unfold roundHalfEven
  generalize num / den = whole at *
  generalize num % den = left at *
  have hq : q = whole ∨ q = whole + 1 := by omega
  rcases hq with rfl | rfl
  · dsimp only
    split
    · rfl
    · split
      · omega
      · omega
  · rw [Nat.add_mul] at hlow hhigh hodd
    dsimp only
    split
    · omega
    · split
      · rfl
      · omega

/-! ## Rounding to a double -/

/-- Between the points half way to the neighbours of rank `r`, on one of them only if `r` is
even. -/
def Rounds (num den r : Nat) : Prop :=
  (units (r - 1) + units r) * den ≤ 2 * (num * one) ∧
    2 * (num * one) ≤ (units r + units (r + 1)) * den ∧
    (r % 2 = 1 → (units (r - 1) + units r) * den < 2 * (num * one) ∧
      2 * (num * one) < (units r + units (r + 1)) * den)

/-- The rank when the binade is known and the significand is a rounded one. -/
theorem nearestRank_eq_of_binade {num den s q : Nat} (hden : 0 < den)
    (hbinade : s = 0 ∨ den * 2 ^ s * 2 ^ 52 ≤ num * one) (hlt : num * one < den * 2 ^ s * 2 ^ 53)
    (hq : roundHalfEven (num * one) (den * 2 ^ s) = q) :
    nearestRank num den = min infinityRank (s * 2 ^ 52 + q) := by
  have hstep : (num * one / den).log2 - 52 = s := by
    have hlt' : num * one / den < 2 ^ (s + 53) := by
      apply (Nat.div_lt_iff_lt_mul hden).2
      rw [Nat.pow_add, Nat.mul_comm _ den, ← Nat.mul_assoc]
      exact hlt
    by_cases h0 : num * one / den = 0
    · rcases hbinade with rfl | hb
      · rw [h0]
        rfl
      · have hpos : 1 ≤ num * one / den := by
          apply (Nat.le_div_iff_mul_le hden).2
          have h1 : den * 1 ≤ den * (2 ^ s * 2 ^ 52) :=
            Nat.mul_le_mul_left den (Nat.mul_pos (Nat.two_pow_pos s) (Nat.two_pow_pos 52))
          rw [← Nat.mul_assoc] at h1
          omega
        omega
    · have hlog : (num * one / den).log2 < s + 53 := (Nat.log2_lt h0).2 hlt'
      rcases hbinade with rfl | hb
      · omega
      · have hle : s + 52 ≤ (num * one / den).log2 := by
          apply (Nat.le_log2 h0).2
          apply (Nat.le_div_iff_mul_le hden).2
          rw [Nat.pow_add, Nat.mul_comm _ den, ← Nat.mul_assoc]
          exact hb
        omega
  unfold nearestRank
  dsimp only
  rw [hstep, hq]

/-- The case that the ratio lies in the binade of the magnitude. -/
theorem nearestRank_eq_of_le {num den r : Nat} (hden : 0 < den) (hr : r < infinityRank)
    (hbinade : shift r = 0 ∨ den * 2 ^ shift r * 2 ^ 52 ≤ num * one)
    (hlow : 2 * (significand r * (den * 2 ^ shift r)) ≤ 2 * (num * one) + den * 2 ^ shift r)
    (hhigh : 2 * (num * one) ≤ 2 * (significand r * (den * 2 ^ shift r)) + den * 2 ^ shift r)
    (hodd : r % 2 = 1 →
      2 * (significand r * (den * 2 ^ shift r)) < 2 * (num * one) + den * 2 ^ shift r ∧
        2 * (num * one) < 2 * (significand r * (den * 2 ^ shift r)) + den * 2 ^ shift r) :
    nearestRank num den = r := by
  have hq := significand_lt r
  have hsum := shift_mul_add_significand r
  have hparity : significand r % 2 = r % 2 := by omega
  have hD : 0 < den * 2 ^ shift r := Nat.mul_pos hden (Nat.two_pow_pos _)
  have hround := roundHalfEven_eq hlow hhigh (fun h => hodd (hparity ▸ h)) hD
  have hlt : num * one < den * 2 ^ shift r * 2 ^ 53 := by
    have h : (significand r + 1) * (den * 2 ^ shift r) ≤ 2 ^ 53 * (den * 2 ^ shift r) :=
      Nat.mul_le_mul_right _ hq
    rw [Nat.add_mul] at h
    omega
  rw [nearestRank_eq_of_binade hden hbinade hlt hround, hsum]
  exact Nat.min_eq_right hr.le

/-- The case that the ratio lies just below the binade of the magnitude, which is the least one of
its binade. The significand is rounded up to `2 ^ 53` and carried. -/
theorem nearestRank_eq_of_lt {num den s : Nat} (hden : 0 < den)
    (hr : s * 2 ^ 52 + 2 ^ 53 < infinityRank)
    (hlow : 2 * (2 ^ 53 * (den * 2 ^ s)) ≤ 2 * (num * one) + den * 2 ^ s)
    (hhigh : num * one < 2 ^ 53 * (den * 2 ^ s)) :
    nearestRank num den = s * 2 ^ 52 + 2 ^ 53 := by
  have hD : 0 < den * 2 ^ s := Nat.mul_pos hden (Nat.two_pow_pos s)
  have hround : roundHalfEven (num * one) (den * 2 ^ s) = 2 ^ 53 :=
    roundHalfEven_eq hlow (by omega) (fun h => by omega) hD
  rw [nearestRank_eq_of_binade hden (.inr (by omega)) (by omega) hround]
  exact Nat.min_eq_right hr.le

/-- A ratio in the rounding interval of a finite magnitude is rounded to it. -/
theorem nearestRank_eq {num den r : Nat} (hden : 0 < den) (hr : r < infinityRank)
    (h : Rounds num den r) : nearestRank num den = r := by
  obtain ⟨hlow, hhigh, hodd⟩ := h
  have hup : (units r + units (r + 1)) * den =
      2 * (significand r * (den * 2 ^ shift r)) + den * 2 ^ shift r := by
    rw [units_succ, units]
    ring
  rw [hup] at hhigh hodd
  cases r with
  | zero =>
    apply nearestRank_eq_of_le hden hr (.inl rfl) ?_ hhigh
    · intro h
      cases h
    · simp [significand]
  | succ p =>
    rw [Nat.add_sub_cancel] at hlow hodd
    rcases succ_cases p with ⟨hq, hs⟩ | ⟨hq, hq', hs⟩
    · have hdown : (units p + units (p + 1)) * den + den * 2 ^ shift (p + 1) =
          2 * (significand (p + 1) * (den * 2 ^ shift (p + 1))) := by
        rw [units_succ, units, hq, hs]
        ring
      have hbinade : shift (p + 1) = 0 ∨ den * 2 ^ shift (p + 1) * 2 ^ 52 ≤ num * one := by
        refine (shift_eq_zero_or_le_significand p).imp (fun h => hs.trans h) fun h => ?_
        have h' := Nat.mul_le_mul_right (den * 2 ^ shift (p + 1)) h
        have he : significand (p + 1) * (den * 2 ^ shift (p + 1)) =
            significand p * (den * 2 ^ shift (p + 1)) + den * 2 ^ shift (p + 1) := by
          rw [hq, Nat.add_mul, Nat.one_mul]
        generalize (units p + units (p + 1)) * den = low at *
        omega
      generalize (units p + units (p + 1)) * den = low at *
      apply nearestRank_eq_of_le hden hr hbinade (by omega) hhigh
      intro h
      have := hodd h
      omega
    · -- the magnitude below has twice as many steps per unit as this one
      have hdown : (units p + units (p + 1)) * den + den * 2 ^ shift p =
          2 * (2 ^ 53 * (den * 2 ^ shift p)) := by
        rw [units_succ, units, ← hq']
        ring
      have hD : den * 2 ^ shift (p + 1) = 2 * (den * 2 ^ shift p) := by
        rw [hs, Nat.pow_succ]
        ring
      have hp := shift_mul_add_significand p
      rw [hD, hq] at hhigh
      generalize (units p + units (p + 1)) * den = low at *
      by_cases hlt : num * one < 2 ^ 53 * (den * 2 ^ shift p)
      · have hrank : shift p * 2 ^ 52 + 2 ^ 53 = p + 1 := by omega
        rw [← hrank] at hr
        rw [nearestRank_eq_of_lt hden hr (by omega) hlt, hrank]
      · apply nearestRank_eq_of_le hden hr
        · right
          omega
        · rw [hq]
          omega
        · rw [hq]
          omega
        · intro h
          omega

end LineCalculator.Double
