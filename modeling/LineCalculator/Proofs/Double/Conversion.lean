import LineCalculator.Proofs.Double.Integral
import LineCalculator.Proofs.Double.Monotone
/-! # Natural numbers as doubles and back

Up to `maxSafeNat` a natural number and its double determine each other. The next number is still a
double, but the one after it is rounded to the same, so the conversion of a double stops right
before it: no double stands for a number that was rounded.

* `value_ofNat`: the double of a safe number stands for it.
* `two_pow_le_of_value_ofNat`: the doubles of all other numbers stand for greater ones.
* `toSafeNat?_eq_none_iff`: the doubles that are not converted.
* `toSafeNat?_ofNat`: there and back.
* `guardedNat?`: the conversion with one guard after the other.
* `conversions_inverse`: the two conversions are inverse to each other just up to `maxSafeNat`.
-/

namespace LineCalculator.Double
set_option autoImplicit false

variable {x : Float} {n : Nat}

/-! ## There -/

theorem value_ofNat (h : n ≤ maxSafeNat) : isFinite (ofNat n) = true ∧ value (ofNat n) = n := by
  have hn : n < 2 ^ 53 := Nat.lt_succ_of_le h
  obtain ⟨r, hr, hunits⟩ := exists_units_eq hn
  rw [ofNat_eq_of_units hr hunits, isFinite, rank_ofRank false hr.le, value_ofRank hr.le, hunits,
    Nat.cast_mul, mul_div_cancel_right₀ _ one_pos_rat.ne']
  exact ⟨decide_eq_true hr, rfl⟩

theorem exists_units_eq_two_pow : ∃ r < infinityRank, units r = 2 ^ 53 * one := by
  refine ⟨(places + 1) * 2 ^ 52 + 2 ^ 52, by decide, ?_⟩
  have hexp : 52 + (places + 1) = 53 + places := by omega
  rw [units_of_binade le_rfl (by decide), one, ← Nat.pow_add, ← Nat.pow_add, hexp]

/-- Rounding keeps numbers above `maxSafeNat` there. -/
theorem two_pow_le_of_value_ofNat {m : Nat} (h : maxSafeNat < n) (hm : value (ofNat n) = m) :
    2 ^ 53 ≤ m := by
  obtain ⟨r, hr, hunits⟩ := exists_units_eq_two_pow
  have hrank : r ≤ nearestRank n 1 := by
    rw [← nearestRank_of_units hr hunits]
    exact nearestRank_mono Nat.one_pos h
  have hmono : 2 ^ 53 * one ≤ units (nearestRank n 1) := hunits ▸ strictMono_units.monotone hrank
  rw [ofNat, nearest, value_ofRank (nearestRank_le n 1), div_eq_iff one_pos_rat.ne',
    ← Nat.cast_mul, Nat.cast_inj] at hm
  rw [hm] at hmono
  exact Nat.le_of_mul_le_mul_right hmono one_pos

/-! ## And back -/

theorem toSafeNat?_ofNat (n : Nat) :
    toSafeNat? (ofNat n) = if n ≤ maxSafeNat then some n else none := by
  split
  · rename_i h
    obtain ⟨hfin, hv⟩ := value_ofNat h
    exact toSafeNat?_eq_some_iff.2 ⟨hfin, hv, h⟩
  · rename_i h
    rw [Option.eq_none_iff_forall_ne_some]
    intro m hm
    obtain ⟨-, hv, hle⟩ := toSafeNat?_eq_some_iff.1 hm
    have hge := two_pow_le_of_value_ofNat (Nat.not_le.1 h) hv
    have hlt : m < 2 ^ 53 := Nat.lt_succ_of_le hle
    omega

theorem isFinite_eq_false_iff : isFinite x = false ↔ isNaN x = true ∨ isInfinite x = true := by
  rw [isFinite, isNaN, isInfinite, decide_eq_false_iff_not, decide_eq_true_iff, decide_eq_true_iff]
  omega

/-- NaN, the infinities, and the numbers below zero, with a fraction, or too large. -/
theorem toSafeNat?_eq_none_iff : toSafeNat? x = none ↔
    isNaN x = true ∨ isInfinite x = true ∨ x < 0 ∨
      (isFinite x = true ∧ ∀ k : ℤ, value x ≠ k) ∨ (isFinite x = true ∧ maxSafeNat < value x) := by
  rw [← or_assoc, ← isFinite_eq_false_iff]
  constructor
  · intro hnone
    by_contra hn
    simp only [not_or, not_and, not_forall, not_not, Bool.not_eq_false] at hn
    obtain ⟨hfin, h0, hwhole, hle⟩ := hn
    obtain ⟨k, hk⟩ := hwhole hfin
    have hle' := hle hfin
    rw [lt_zero_iff_value hfin, hk] at h0
    rw [hk, not_lt] at hle'
    obtain ⟨n, rfl⟩ : ∃ n : ℕ, k = n := Int.eq_ofNat_of_zero_le (by exact_mod_cast not_lt.1 h0)
    have hsome : toSafeNat? x = some n :=
      toSafeNat?_eq_some_iff.2 ⟨hfin, by exact_mod_cast hk, by exact_mod_cast hle'⟩
    rw [hnone] at hsome
    cases hsome
  · intro h
    rw [Option.eq_none_iff_forall_ne_some]
    intro n hn
    obtain ⟨hfin, hv, hle⟩ := toSafeNat?_eq_some_iff.1 hn
    rcases h with hinf | h0 | ⟨-, hfraction⟩ | ⟨-, hlarge⟩
    · rw [hfin] at hinf
      cases hinf
    · exact not_lt_zero_of_value hfin hv h0
    · exact hfraction n (by exact_mod_cast hv)
    · rw [hv, Nat.cast_lt] at hlarge
      omega

/-- The double of the number that a double was converted to is the same double, or the other
zero. -/
theorem ofNat_beq_of_toSafeNat? (h : toSafeNat? x = some n) : (ofNat n == x) = true := by
  obtain ⟨hfin, hv, hle⟩ := toSafeNat?_eq_some_iff.1 h
  have h0 := not_lt_zero_of_value hfin hv
  have hr : rank x < infinityRank := of_decide_eq_true hfin
  have hunits : units (rank x) = n * one := by
    rw [value_of_not_lt_zero hfin h0, div_eq_iff one_pos_rat.ne'] at hv
    exact_mod_cast hv
  rw [ofNat_eq_of_units hr hunits]
  rcases eq_ofRank_of_not_lt_zero (isNaN_of_isFinite hfin) h0 with rfl | he
  · rw [rank_ofRank true (Nat.zero_le _)]
    show ((ofRank false 0).toModel.unpack.compare (ofRank true 0).toModel.unpack == some .eq) = true
    rw [unpack_zero, unpack_zero]
    rfl
  · nth_rewrite 2 [he]
    rw [ofRank_beq_ofRank hr.le hr.le]
    exact decide_eq_true rfl

/-! ## The guards -/

/-- What is left of a double without its whole part. It has the sign of the double, but zero has
none. -/
def fraction (x : Float) : Float :=
  let rest := units (rank x) % one
  if rest = 0 then 0 else ofRank (isNegative x) (nearestRank rest one)

/-- The conversion with one guard after the other. What passes them is cut off at the point. -/
def guardedNat? (x : Float) : Option Nat :=
  if !isFinite x then none
  else if x < 0 ∨ ofNat maxSafeNat < x then none
  else if fraction x != 0 then none
  else some (wholePart (rank x))

/-- The smallest fraction is a double. -/
theorem nearestRank_one_one : nearestRank 1 one = 1 := by
  have h2 : units 2 = 2 := units_of_lt (by decide)
  have h1 : units 1 = 1 := units_of_lt (by decide)
  apply nearestRank_eq one_pos (by decide)
  have hpos := one_pos
  simp only [Rounds, Nat.sub_self, units_zero, h1, h2]
  omega

theorem fraction_bne_zero (hfin : isFinite x = true) (h0 : ¬ x < 0) :
    (fraction x != 0) = !isWhole (rank x) := by
  rw [bne, isWhole, fraction]
  by_cases hrest : units (rank x) % one = 0
  · rw [if_pos hrest, hrest, zero_eq, ofRank_beq_ofRank (Nat.zero_le _) (Nat.zero_le _)]
  · have hneg : isNegative x = false := by
      rw [lt_zero_iff (isNaN_of_isFinite hfin), not_and, not_not] at h0
      rw [← Bool.not_eq_true]
      intro hn
      rw [h0 hn, units_zero, Nat.zero_mod] at hrest
      exact hrest rfl
    have hpos : 1 ≤ nearestRank (units (rank x) % one) one := by
      nth_rewrite 1 [← nearestRank_one_one]
      exact nearestRank_mono one_pos (Nat.one_le_iff_ne_zero.2 hrest)
    rw [if_neg hrest, hneg, zero_eq, ofRank_beq_ofRank (nearestRank_le _ _) (Nat.zero_le _),
      decide_eq_false hrest, decide_eq_false (Nat.one_le_iff_ne_zero.1 hpos)]

theorem guardedNat?_eq (x : Float) : guardedNat? x = toSafeNat? x := by
  have hnone (h : ∀ n, toSafeNat? x ≠ some n) : none = toSafeNat? x :=
    (Option.eq_none_iff_forall_ne_some.2 h).symm
  rw [guardedNat?]
  split
  · rename_i hinf
    apply hnone
    intro n hn
    rw [(toSafeNat?_eq_some_iff.1 hn).1] at hinf
    exact Bool.noConfusion hinf
  rename_i hfin
  have hfin : isFinite x = true := by simpa using hfin
  split
  · rename_i hrange
    apply hnone
    intro n hn
    obtain ⟨-, hv, hle⟩ := toSafeNat?_eq_some_iff.1 hn
    rw [ofNat_lt_iff (by decide) hfin hv] at hrange
    exact hrange.elim (not_lt_zero_of_value hfin hv) (Nat.not_lt.2 hle)
  rename_i hrange
  obtain ⟨h0, hle⟩ := not_or.1 hrange
  rw [fraction_bne_zero hfin h0]
  cases hwhole : isWhole (rank x) with
  | false =>
    apply hnone
    intro n hn
    obtain ⟨-, hv, -⟩ := toSafeNat?_eq_some_iff.1 hn
    rw [isWhole_of_value hfin hv] at hwhole
    exact Bool.noConfusion hwhole
  | true =>
    have hv := value_eq_wholePart hfin h0 hwhole
    rw [ofNat_lt_iff (by decide) hfin hv, Nat.not_lt] at hle
    exact (toSafeNat?_eq_some_iff.2 ⟨hfin, hv, hle⟩).symm

/-! ## There and back -/

/-- A natural number comes back from its double up to `maxSafeNat`, and no number does beyond. Just
the doubles that stand for a number up to there are converted to it, the zero with a sign among
them, and the double of the number equals the double that it came from. NaN, the infinities and the
doubles below zero, with a fraction or too large are not converted. Guards for each of these, one
after the other, let through what is converted. -/
theorem conversions_inverse :
    (∀ n : ℕ, toSafeNat? (ofNat n) = if n ≤ maxSafeNat then some n else none) ∧
      (∀ (x : Float) (n : ℕ), toSafeNat? x = some n ↔
        isFinite x = true ∧ value x = n ∧ n ≤ maxSafeNat) ∧
      (∀ (x : Float) (n : ℕ), toSafeNat? x = some n →
        isFinite (ofNat n) = true ∧ value (ofNat n) = value x ∧ (ofNat n == x) = true) ∧
      (∀ x : Float, toSafeNat? x = none ↔
        isNaN x = true ∨ isInfinite x = true ∨ x < 0 ∨
          (isFinite x = true ∧ ∀ k : ℤ, value x ≠ k) ∨
          (isFinite x = true ∧ maxSafeNat < value x)) ∧
      toSafeNat? (-0) = some 0 ∧
      ∀ x : Float, guardedNat? x = toSafeNat? x := by
  refine ⟨toSafeNat?_ofNat, fun x n => toSafeNat?_eq_some_iff, fun x n h => ?_,
    fun x => toSafeNat?_eq_none_iff, ?_, guardedNat?_eq⟩
  · obtain ⟨-, hv, hle⟩ := toSafeNat?_eq_some_iff.1 h
    obtain ⟨hfin, hn⟩ := value_ofNat hle
    exact ⟨hfin, hn.trans hv.symm, ofNat_beq_of_toSafeNat? h⟩
  · have hr : (0 : Nat) ≤ infinityRank := Nat.zero_le _
    rw [zero_eq, neg_ofRank false hr]
    refine toSafeNat?_eq_some_iff.2 ⟨?_, ?_, Nat.zero_le _⟩
    · rw [isFinite, rank_ofRank _ hr]
      rfl
    · rw [value, rank_ofRank _ hr, units_zero, Nat.cast_zero, zero_div, mul_zero]

end LineCalculator.Double
