import LineCalculator.Proofs.Double.Nearest
import LineCalculator.Proofs.Double.Order
/-! # Rounding is monotone

A greater ratio is never rounded to a lesser magnitude: the rounding intervals follow each other
like their ranks, and the point that two of them share belongs to one of them only.

* `Rounds.le_of_le`: the ranks are in order when the ratios are.
* `nearestRank_mono`: so are the ranks that ratios are rounded to, that of infinity included.
* `isFinite_nearest_iff`: which ratios have a finite double.
* `ofNat_le_ofNat`, `isFinite_ofNat_iff`: the same for natural numbers.
-/

namespace LineCalculator.Double
set_option autoImplicit false

section
variable {num num' den r r' : Nat} (hden : 0 < den) (h : num ≤ num')
include hden h

theorem Rounds.le_of_le (hr : Rounds num den r) (hr' : Rounds num' den r') : r ≤ r' := by
  by_contra hlt
  obtain ⟨hlow, -, hodd⟩ := hr
  obtain ⟨-, hhigh, hodd'⟩ := hr'
  have hle : r' ≤ r - 1 := by omega
  have hscaled : num * one ≤ num' * one := Nat.mul_le_mul_right one h
  have hends : (units r' + units (r' + 1)) * den ≤ (units (r - 1) + units r) * den := by
    apply Nat.mul_le_mul_right den
    exact Nat.add_le_add (strictMono_units.monotone hle) (strictMono_units.monotone (by omega))
  have heq : units r' + units (r' + 1) = units (r - 1) + units r :=
    Nat.eq_of_mul_eq_mul_right hden (by omega)
  -- so it begins there, and of two neighbouring ranks one is odd
  have hnext : r' = r - 1 := by
    by_contra hne
    have h1 : units r' < units (r - 1) := strictMono_units (by omega)
    have h2 : units (r' + 1) ≤ units r := strictMono_units.monotone (by omega)
    omega
  have hparity : r % 2 = 1 ∨ r' % 2 = 1 := by omega
  rcases hparity with hp | hp
  · have hstrict := (hodd hp).1
    omega
  · have hstrict := (hodd' hp).2
    omega

theorem nearestRank_mono : nearestRank num den ≤ nearestRank num' den := by
  by_cases hover' : overflowThreshold * den ≤ num'
  · rw [nearestRank_eq_infinityRank hden hover']
    exact Nat.min_le_left _ _
  · obtain ⟨r', hr', hround'⟩ := exists_rounds_of_lt (Nat.not_le.1 hover')
    obtain ⟨r, hr, hround⟩ := exists_rounds_of_lt (h.trans_lt (Nat.not_le.1 hover'))
    rw [nearestRank_eq hden hr hround, nearestRank_eq hden hr' hround']
    exact hround.le_of_le hden h hround'

end

theorem nearestRank_le (num den : Nat) : nearestRank num den ≤ infinityRank := Nat.min_le_left _ _

theorem rank_nearest (num den : Nat) : rank (nearest num den) = nearestRank num den :=
  rank_ofRank false (nearestRank_le num den)

/-- A ratio has a finite double below half a step above the last one. -/
theorem isFinite_nearest_iff {num den : Nat} (hden : 0 < den) :
    isFinite (nearest num den) = true ↔ num < overflowThreshold * den := by
  rw [isFinite, rank_nearest, decide_eq_true_iff]
  constructor
  · intro hlt
    by_contra hover
    rw [nearestRank_eq_infinityRank hden (Nat.not_lt.1 hover)] at hlt
    exact lt_irrefl _ hlt
  · intro h
    obtain ⟨r, hr, hround⟩ := exists_rounds_of_lt h
    rwa [nearestRank_eq hden hr hround]

theorem ofRank_le_ofRank {r r' : Nat} (hr : r ≤ infinityRank) (hr' : r' ≤ infinityRank) :
    ofRank false r ≤ ofRank false r' ↔ r ≤ r' := by
  show decide (((ofRank false r).toModel.unpack.compare (ofRank false r').toModel.unpack).any
    Ordering.isLE = true) = true ↔ _
  rw [compare_ofRank hr hr', Option.any_some, decide_eq_true_iff, Nat.isLE_compare]

/-! ## Natural numbers -/

theorem isFinite_ofNat_iff {n : Nat} : isFinite (ofNat n) = true ↔ n < overflowThreshold := by
  rw [ofNat, isFinite_nearest_iff Nat.one_pos, Nat.mul_one]

theorem ofNat_le_ofNat {m n : Nat} (h : m ≤ n) : ofNat m ≤ ofNat n :=
  (ofRank_le_ofRank (nearestRank_le m 1) (nearestRank_le n 1)).2 (nearestRank_mono Nat.one_pos h)

end LineCalculator.Double
