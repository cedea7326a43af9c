import LineCalculator.Proofs.Double.Bits
import LineCalculator.Proofs.Double.Rounding
import Mathlib
/-! # The double nearest to a number

The number that a double stands for is exact, and so is the distance of a double from a number. The
double that a ratio is rounded to is the nearest one, and infinity from the point on where the next
magnitude above the finite ones would be as near.

* `value`: the number that a finite double stands for.
* `Rounds.dist_le`: no magnitude is nearer to a ratio than the one it rounds to.
* `nearestRank_eq_infinityRank`, `exists_rounds_of_lt`: the ratios that round to infinity, and the
  others.
* `IsNearest`: what rounding to nearest means, without a reference to ranks but for ties.
* `isNearest_nearest`: a ratio is rounded to its nearest double.
-/

namespace LineCalculator.Double
set_option autoImplicit false

/-! ## Values -/

/-- The number that a finite double stands for. -/
def value (x : Float) : ℚ := (if isNegative x then -1 else 1) * (units (rank x) / one)

theorem strictMono_units : StrictMono units := strictMono_nat_of_lt_succ units_lt_units_succ

theorem one_pos_rat : (0 : ℚ) < one := by exact_mod_cast one_pos

theorem magnitude_nonneg (r : Nat) : (0 : ℚ) ≤ units r / one :=
  div_nonneg (Nat.cast_nonneg _) one_pos_rat.le

theorem value_ofRank {r : Nat} (hr : r ≤ infinityRank) :
    value (ofRank false r) = units r / one := by
  rw [value, isNegative_ofRank false hr, rank_ofRank false hr, if_neg Bool.false_ne_true, one_mul]

theorem abs_value (x : Float) : |value x| = units (rank x) / one := by
  have h := magnitude_nonneg (rank x)
  rw [value]
  split
  · rw [neg_one_mul, abs_neg, abs_of_nonneg h]
  · rw [one_mul, abs_of_nonneg h]

/-- Half a step above the last finite magnitude. -/
def overflowThreshold : Nat := 2 ^ 1024 - 2 ^ 970

/-! ## The nearest magnitude -/

section
variable {num den r : Nat}

/-- Below the midpoint above the last magnitude there is one to round to. -/
theorem exists_rounds {last : Nat}
    (h : 2 * (num * one) < (units last + units (last + 1)) * den) :
    ∃ r ≤ last, Rounds num den r := by
  classical
  -- the first magnitude whose midpoint with the next one is not passed
  have hex : ∃ r, 2 * (num * one) < (units r + units (r + 1)) * den ∨
      2 * (num * one) = (units r + units (r + 1)) * den ∧ r % 2 = 0 := ⟨last, .inl h⟩
  refine ⟨Nat.find hex, Nat.find_min' hex (.inl h), ?_⟩
  have hr := Nat.find_spec hex
  have hmin := fun m => Nat.find_min hex (m := m)
  generalize Nat.find hex = r at hr hmin
  cases r with
  | zero =>
    refine ⟨?_, ?_, ?_⟩
    · simp
    · omega
    · intro h
      cases h
  | succ p =>
    have hp := hmin p p.lt_succ_self
    rw [not_or, not_and, Nat.not_lt] at hp
    refine ⟨?_, ?_, ?_⟩
    · exact hp.1
    · omega
    · intro hodd
      rw [Nat.add_sub_cancel]
      omega

theorem Rounds.dist_le (h : Rounds num den r) (s : Nat) :
    |(units r * den : ℤ) - num * one| ≤ |(units s * den : ℤ) - num * one| ∧
      (|(units s * den : ℤ) - num * one| = |(units r * den : ℤ) - num * one| →
        units s * den ≠ units r * den → r % 2 = 0) := by
  obtain ⟨hlow, hhigh, hodd⟩ := h
  rw [Nat.add_mul] at hlow hhigh hodd
  rw [Nat.add_mul] at hodd
  have hmono {a b : Nat} (hab : a ≤ b) : units a * den ≤ units b * den :=
    Nat.mul_le_mul_right den (strictMono_units.monotone hab)
  have hprev := hmono (Nat.sub_le r 1)
  have hnext := hmono (Nat.le_succ r)
  have hcases : units s * den ≤ units (r - 1) * den ∨ units s * den = units r * den ∨
      units (r + 1) * den ≤ units s * den := by
    rcases Nat.lt_trichotomy s r with hs | rfl | hs
    · exact .inl (hmono (by omega))
    · exact .inr (.inl rfl)
    · exact .inr (.inr (hmono hs))
  zify at *
  generalize (units (r - 1) * den : ℤ) = low at *
  generalize (units (r + 1) * den : ℤ) = high at *
  generalize (units r * den : ℤ) = mid at *
  generalize (units s * den : ℤ) = other at *
  generalize (num * one : ℤ) = target at *
  rcases abs_cases (mid - target) with ⟨hm, hm'⟩ | ⟨hm, hm'⟩
  · rcases abs_cases (other - target) with ⟨ho, ho'⟩ | ⟨ho, ho'⟩
    · omega
    · omega
  · rcases abs_cases (other - target) with ⟨ho, ho'⟩ | ⟨ho, ho'⟩
    · omega
    · omega

theorem le_roundHalfEven {q : Nat} (hden : 0 < den) (heven : q % 2 = 0)
    (h : 2 * (q * den) ≤ 2 * num + den) : q ≤ roundHalfEven num den := by
  have hnum : num / den * den + num % den = num := Nat.div_add_mod' num den
  have hleft : num % den < den := Nat.mod_lt _ hden
  have hle : q ≤ num / den + 1 := by
    by_contra hn
    have h : (num / den + 2) * den ≤ q * den := Nat.mul_le_mul_right den (Nat.not_le.1 hn)
    rw [Nat.add_mul] at h
    omega
  unfold roundHalfEven
  generalize num / den = whole at *
  generalize num % den = left at *
  have hq : q ≤ whole ∨ q = whole + 1 := by omega
  rcases hq with hq | rfl
  · dsimp only
    split
    · exact hq
    · split
      · omega
      · omega
  · rw [Nat.add_mul] at h
    dsimp only
    split
    · omega
    · split
      · exact le_rfl
      · omega

theorem le_log2_of_two_pow_le {n k : Nat} (h : 2 ^ k ≤ n) : k ≤ n.log2 :=
  (Nat.le_log2 (Nat.lt_of_lt_of_le (Nat.two_pow_pos k) h).ne').2 h

theorem two_pow_le_roundHalfEven {step : Nat} (hden : 0 < den) (h : 2 ^ (step + 52) ≤ num / den) :
    2 ^ 52 ≤ roundHalfEven num (den * 2 ^ step) := by
  apply le_roundHalfEven (Nat.mul_pos hden (Nat.two_pow_pos step)) (by decide)
  have hle := (Nat.le_div_iff_mul_le hden).1 h
  have he : 2 ^ (step + 52) * den = 2 ^ 52 * (den * 2 ^ step) := by
    rw [Nat.pow_add]
    ring
  rw [he] at hle
  omega

/-- Half a unit in the last place below `2 ^ 53` rounding carries into the next binade. -/
theorem two_pow_succ_le_roundHalfEven {step : Nat} (hden : 0 < den)
    (h : (2 ^ 54 - 1) * (2 ^ step * den) ≤ num) :
    2 ^ 53 ≤ roundHalfEven num (den * 2 ^ (step + 1)) := by
  apply le_roundHalfEven (Nat.mul_pos hden (Nat.two_pow_pos _)) (by decide)
  have he : den * 2 ^ (step + 1) = 2 * (2 ^ step * den) := by
    rw [Nat.pow_succ]
    ring
  rw [he]
  generalize 2 ^ step * den = half at *
  omega

/-- From the midpoint above the last finite magnitude on the rank is that of infinity. -/
theorem nearestRank_eq_infinityRank (hden : 0 < den) (h : overflowThreshold * den ≤ num) :
    nearestRank num den = infinityRank := by
  have hscaled : (2 ^ 54 - 1) * (2 ^ 2044 * den) ≤ num * one := by
    have hone : (2 ^ 54 - 1) * 2 ^ 2044 = overflowThreshold * one := by decide +kernel
    rw [← Nat.mul_assoc, hone, Nat.mul_right_comm]
    exact Nat.mul_le_mul_right one h
  have hlog : 2097 ≤ (num * one / den).log2 := by
    apply le_log2_of_two_pow_le
    apply (Nat.le_div_iff_mul_le hden).2
    refine Nat.le_trans ?_ hscaled
    rw [← Nat.mul_assoc]
    exact Nat.mul_le_mul_right den (by decide +kernel)
  have hpow : 2 ^ (num * one / den).log2 ≤ num * one / den := by
    apply Nat.log2_self_le
    intro h0
    rw [h0, Nat.log2_zero] at hlog
    omega
  unfold nearestRank
  dsimp only
  apply Nat.min_eq_left
  obtain ⟨step, hstep⟩ := Nat.exists_eq_add_of_le' (Nat.le_trans (by decide : 52 ≤ 2097) hlog)
  rw [hstep] at hpow hlog ⊢
  rw [Nat.add_sub_cancel]
  have hcases : step = 2044 + 1 ∨ 2046 ≤ step := by omega
  rcases hcases with rfl | hge
  · have hq := two_pow_succ_le_roundHalfEven hden hscaled
    have hrank : infinityRank = (2044 + 1) * 2 ^ 52 + 2 ^ 53 := by decide
    rw [hrank]
    exact Nat.add_le_add_left hq _
  · have hq := two_pow_le_roundHalfEven hden hpow
    have hrank : infinityRank = 2046 * 2 ^ 52 + 2 ^ 52 := by decide
    rw [hrank]
    exact Nat.add_le_add (Nat.mul_le_mul_right _ hge) hq

theorem exists_rounds_of_lt (h : num < overflowThreshold * den) :
    ∃ r < infinityRank, Rounds num den r := by
  have hmid : units (infinityRank - 1) + units (infinityRank - 1 + 1) =
      2 * (overflowThreshold * one) := by decide +kernel
  have hlast : 2 * (num * one) <
      (units (infinityRank - 1) + units (infinityRank - 1 + 1)) * den := by
    rw [hmid, Nat.mul_assoc, Nat.mul_right_comm]
    exact Nat.mul_lt_mul_of_pos_left (Nat.mul_lt_mul_of_pos_right h one_pos) Nat.two_pos
  obtain ⟨r, hr, h⟩ := exists_rounds hlast
  exact ⟨r, Nat.lt_of_le_of_lt hr (by decide), h⟩

end

/-! ## The nearest double -/

/-- No finite double is nearer to the number `q`, and where another one is as near the significand
is even. From half a step above the last finite double on it is infinity. -/
inductive IsNearest (q : ℚ) : Float → Prop
  | finite {x : Float} (below : q < overflowThreshold) (isFinite : isFinite x = true)
      (closest : ∀ y, Double.isFinite y = true → |value x - q| ≤ |value y - q|)
      (even : ∀ y, Double.isFinite y = true → |value y - q| = |value x - q| → value y ≠ value x →
        rank x % 2 = 0) : IsNearest q x
  | infinite (above : overflowThreshold ≤ q) : IsNearest q (ofRank false infinityRank)

section
variable {num den : Nat} (hden : 0 < den)
include hden

/-- A distance from a ratio, and the same in units. -/
theorem abs_magnitude_sub (r : Nat) : |(units r / one : ℚ) - num / den| =
    (|(units r * den : ℤ) - num * one| : ℤ) / (one * den : ℚ) := by
  have hden' : (0 : ℚ) < den := by exact_mod_cast hden
  rw [div_sub_div _ _ one_pos_rat.ne' hden'.ne', abs_div, abs_of_pos (mul_pos one_pos_rat hden')]
  push_cast
  rw [mul_comm (one : ℚ) (num : ℚ)]

theorem threshold_le_iff : (overflowThreshold : ℚ) ≤ num / den ↔ overflowThreshold * den ≤ num := by
  have hden' : (0 : ℚ) < den := by exact_mod_cast hden
  rw [le_div_iff₀ hden']
  exact_mod_cast Iff.rfl

theorem Rounds.closest {r : Nat} (h : Rounds num den r) (s : Nat) :
    |(units r / one : ℚ) - num / den| ≤ |(units s / one : ℚ) - num / den| := by
  have hden' : (0 : ℚ) < den := by exact_mod_cast hden
  rw [abs_magnitude_sub hden, abs_magnitude_sub hden]
  apply div_le_div_of_nonneg_right _ (mul_pos one_pos_rat hden').le
  exact_mod_cast (h.dist_le s).1

theorem Rounds.even {r : Nat} (h : Rounds num den r) {s : Nat}
    (hs : |(units s / one : ℚ) - num / den| = |(units r / one : ℚ) - num / den|) (hne : s ≠ r) :
    r % 2 = 0 := by
  have hden' : (0 : ℚ) < den := by exact_mod_cast hden
  rw [abs_magnitude_sub hden, abs_magnitude_sub hden,
    div_left_inj' (mul_pos one_pos_rat hden').ne'] at hs
  refine (h.dist_le s).2 (by exact_mod_cast hs) fun he => hne ?_
  exact strictMono_units.injective (Nat.eq_of_mul_eq_mul_right hden he)

end

/-- The negative of a magnitude is as near to a nonnegative number only if one of them is zero. -/
theorem eq_zero_of_dist_neg {u q : ℚ} (hu : 0 ≤ u) (hq : 0 ≤ q) (h : |-u - q| = |u - q|) :
    u = 0 ∨ q = 0 := by
  rw [abs_of_nonpos (by linarith : -u - q ≤ 0)] at h
  rcases abs_cases (u - q) with ⟨h', _⟩ | ⟨h', _⟩
  · right
    linarith
  · left
    linarith

theorem isNearest_nearest {num den : Nat} (hden : 0 < den) :
    IsNearest (num / den) (nearest num den) := by
  have hq : (0 : ℚ) ≤ num / den := by positivity
  by_cases hover : (overflowThreshold : ℚ) ≤ num / den
  · rw [nearest, nearestRank_eq_infinityRank hden ((threshold_le_iff hden).1 hover)]
    exact .infinite hover
  · have hlt : num < overflowThreshold * den :=
      Nat.not_le.1 fun h => hover ((threshold_le_iff hden).2 h)
    obtain ⟨r, hr, hround⟩ := exists_rounds_of_lt hlt
    have hrank := rank_ofRank false hr.le
    rw [nearest, nearestRank_eq hden hr hround]
    have hmag (y : Float) : |(units (rank y) / one : ℚ) - num / den| ≤ |value y - num / den| := by
      have h := abs_abs_sub_abs_le_abs_sub (value y) (num / den : ℚ)
      rwa [abs_value, abs_of_nonneg hq] at h
    refine .finite (not_le.1 hover) ?_ ?_ ?_
    · rw [isFinite, hrank]
      exact decide_eq_true hr
    · intro y _
      rw [value_ofRank hr.le]
      exact (hround.closest hden _).trans (hmag y)
    · intro y _ hy hne
      rw [value_ofRank hr.le] at hy hne
      rw [hrank]
      by_cases hs : rank y = r
      · exfalso
        have hneg : value y = -(units r / one) := by
          rcases abs_choice (value y) with h | h
          · rw [abs_value, hs] at h
            exact absurd h.symm hne
          · rw [abs_value, hs] at h
            linarith
        rw [hneg] at hy hne
        have hzero : (units r / one : ℚ) = 0 := by
          rcases eq_zero_of_dist_neg (magnitude_nonneg r) hq hy with h | h
          · exact h
          · have hclosest := hround.closest hden 0
            rw [h, sub_zero, sub_zero, units_zero, Nat.cast_zero, zero_div, abs_zero] at hclosest
            exact abs_nonpos_iff.1 hclosest
        rw [hzero, neg_zero] at hne
        exact hne rfl
      · refine hround.even hden (le_antisymm ((hmag y).trans hy.le) (hround.closest hden _)) hs

end LineCalculator.Double
