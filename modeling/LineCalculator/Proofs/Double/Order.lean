import LineCalculator.Proofs.Double.Bits
import LineCalculator.Proofs.Double.Rounding
/-! # The order of the doubles

A comparison of doubles takes both apart into exponent and significand. On the nonnegative ones it
is the order of the ranks, and it tells a double from its neighbour of another sign.

* `unpack_zero`, `unpack_finite`, `unpack_infinity`: the parts of a double of known rank.
* `not_lt_zero_of_isNaN`, `bne_of_isNaN`: NaN is below nothing and unlike everything.
* `compare_ofRank`: two nonnegative doubles compare like their ranks.
* `lt_zero_iff`: the doubles below zero.
-/

namespace LineCalculator.Double
set_option autoImplicit false
open Float.Model.UnpackedFloat
open Float.Model (Format UnpackedFloat)

/-! ## The parts of a double -/

theorem toModel_unpack_ofRank (negative : Bool) {r : Nat} (hr : r ≤ infinityRank) :
    (ofRank negative r).toModel.unpack =
      unpack Format.binary64 (packComponents Format.binary64 (signOf negative)
        (BitVec.ofNat 11 (r / 2 ^ 52)) (BitVec.ofNat 52 (r % 2 ^ 52))) := by
  have hr' : r < 2 ^ 63 := lt_of_le_of_lt hr (by decide)
  have hb := toBits_ofRank negative hr
  rw [← toBitVec_eq_packComponents negative hr', ← hb]
  rfl

theorem unpack_zero (negative : Bool) :
    (ofRank negative 0).toModel.unpack = .zero (signOf negative) := by
  rw [toModel_unpack_ofRank negative (by decide)]
  cases negative <;> rfl

theorem unpack_infinity (negative : Bool) :
    (ofRank negative infinityRank).toModel.unpack = .infinity (signOf negative) := by
  rw [toModel_unpack_ofRank negative le_rfl]
  cases negative <;> rfl

theorem unpack_of_isNaN {x : Float} (h : isNaN x = true) : x.toModel.unpack = .notANumber := by
  show unpack Format.binary64 x.toBits.toBitVec = .notANumber
  rw [toBitVec_of_isNaN h]
  rfl

theorem unpack_finite (negative : Bool) {r : Nat} (h0 : 0 < r) (hr : r < infinityRank) :
    (ofRank negative r).toModel.unpack =
      .finite (signOf negative) (significand r) ((shift r : Int) - 1074) (significand_pos h0) := by
  have hr' : r < 2047 * 2 ^ 52 := hr
  have hexp : (BitVec.ofNat 11 (r / 2 ^ 52)).toNat = r / 2 ^ 52 := by
    rw [BitVec.toNat_ofNat]
    omega
  have hman : (BitVec.ofNat 52 (r % 2 ^ 52)).toNat = r % 2 ^ 52 := by
    rw [BitVec.toNat_ofNat]
    omega
  have hinf : ¬ BitVec.ofNat 11 (r / 2 ^ 52) = -1#11 := by
    intro he
    have hn := congrArg BitVec.toNat he
    rw [hexp] at hn
    simp at hn
    omega
  rw [toModel_unpack_ofRank negative hr.le, unpack]
  simp only [unpackMantissa_packComponents, unpackExponent_packComponents,
    ofBitVec_unpackSign_packComponents]
  rw [if_neg hinf]
  by_cases hsub : r < 2 ^ 52
  · have hq : r / 2 ^ 52 = 0 := Nat.div_eq_of_lt hsub
    have hm : ¬ BitVec.ofNat 52 (r % 2 ^ 52) = 0#52 := by
      intro he
      have hn := congrArg BitVec.toNat he
      rw [hman] at hn
      simp at hn
      omega
    rw [if_pos (by rw [hq]), dif_neg hm]
    congr 1
    · rw [hman, significand, if_pos hsub, Nat.mod_eq_of_lt hsub]
    · rw [hexp, shift, hq]
      rfl
  · have hne : ¬ BitVec.ofNat 11 (r / 2 ^ 52) = 0#11 := by
      intro he
      have hn := congrArg BitVec.toNat he
      rw [hexp] at hn
      simp at hn
      omega
    rw [if_neg hne]
    congr 1
    · rw [toNat_one_append, hman, significand, if_neg hsub]
    · rw [hexp, shift]
      show ((r / 2 ^ 52 : Nat) : Int) - ((1023 : Int) + 52) = _
      omega

/-! ## Order -/

/-- Ranks are ordered like exponents and significands. -/
theorem compare_rank (r r' : Nat) :
    (compare ((shift r : Int) - 1074) (shift r' - 1074)).then
      (compare (significand r) (significand r')) = compare r r' := by
  have hr := shift_mul_add_significand r
  have hr' := shift_mul_add_significand r'
  have hs := significand_lt r
  have hs' := significand_lt r'
  have hl := shift_eq_zero_or_le_significand r
  have hl' := shift_eq_zero_or_le_significand r'
  rcases Nat.lt_trichotomy (shift r) (shift r') with h | h | h
  · have hrank : compare r r' = .lt := compare_lt_iff_lt.2 (by omega)
    rw [compare_lt_iff_lt.2 (by omega : (shift r : Int) - 1074 < shift r' - 1074), hrank]
    rfl
  · have hrank : compare (significand r) (significand r') = compare r r' := by
      rcases Nat.lt_trichotomy (significand r) (significand r') with h' | h' | h'
      · rw [compare_lt_iff_lt.2 h', compare_lt_iff_lt.2 (by omega)]
      · rw [compare_eq_iff_eq.2 h', compare_eq_iff_eq.2 (by omega)]
      · rw [compare_gt_iff_gt.2 h', compare_gt_iff_gt.2 (by omega)]
    rw [h, compare_eq_iff_eq.2 rfl, hrank]
    rfl
  · have hrank : compare r r' = .gt := compare_gt_iff_gt.2 (by omega)
    rw [compare_gt_iff_gt.2 (by omega : (shift r : Int) - 1074 > shift r' - 1074), hrank]
    rfl

theorem rank_cases {r : Nat} (hr : r ≤ infinityRank) :
    r = 0 ∨ (0 < r ∧ r < infinityRank) ∨ r = infinityRank := by
  omega

theorem compare_ofRank {r r' : Nat} (hr : r ≤ infinityRank) (hr' : r' ≤ infinityRank) :
    (ofRank false r).toModel.unpack.compare (ofRank false r').toModel.unpack =
      some (compare r r') := by
  have hlt {p q : Nat} (h : p < q) : some (compare p q) = some .lt :=
    congrArg some (compare_lt_iff_lt.2 h)
  have hgt {p q : Nat} (h : q < p) : some (compare p q) = some .gt :=
    congrArg some (compare_gt_iff_gt.2 h)
  have hpos : 0 < infinityRank := by decide
  rcases rank_cases hr with rfl | ⟨h0, h⟩ | rfl
  · rcases rank_cases hr' with rfl | ⟨h0', h'⟩ | rfl
    · rw [unpack_zero]
      rfl
    · rw [unpack_zero, unpack_finite false h0' h', hlt h0']
      rfl
    · rw [unpack_zero, unpack_infinity, hlt hpos]
      rfl
  · rcases rank_cases hr' with rfl | ⟨h0', h'⟩ | rfl
    · rw [unpack_zero, unpack_finite false h0 h, hgt h0]
      rfl
    · rw [unpack_finite false h0 h, unpack_finite false h0' h', ← compare_rank]
      rfl
    · rw [unpack_finite false h0 h, unpack_infinity, hlt h]
      rfl
  · rcases rank_cases hr' with rfl | ⟨h0', h'⟩ | rfl
    · rw [unpack_zero, unpack_infinity, hgt hpos]
      rfl
    · rw [unpack_infinity, unpack_finite false h0' h', hgt h']
      rfl
    · rw [unpack_infinity, compare_eq_iff_eq.2 rfl]
      rfl

theorem lt_iff_compare {x y : Float} :
    x < y ↔ x.toModel.unpack.compare y.toModel.unpack = some .lt := by
  show decide ((x.toModel.unpack.compare y.toModel.unpack == some .lt) = true) = true ↔ _
  rw [decide_eq_true_iff, beq_iff_eq]

theorem ofRank_lt_ofRank {r r' : Nat} (hr : r ≤ infinityRank) (hr' : r' ≤ infinityRank) :
    ofRank false r < ofRank false r' ↔ r < r' := by
  rw [lt_iff_compare, compare_ofRank hr hr', Option.some_inj, compare_lt_iff_lt]

theorem ofRank_beq_ofRank {r r' : Nat} (hr : r ≤ infinityRank) (hr' : r' ≤ infinityRank) :
    (ofRank false r == ofRank false r') = decide (r = r') := by
  show ((ofRank false r).toModel.unpack.compare (ofRank false r').toModel.unpack == some .eq) = _
  rw [compare_ofRank hr hr']
  by_cases h : r = r'
  · rw [compare_eq_iff_eq.2 h, decide_eq_true h]
    rfl
  · rw [decide_eq_false h]
    apply Bool.eq_false_iff.2
    simpa using h

/-- The zero with a sign is not above any of them either. -/
theorem not_ofRank_lt_negative_zero {r : Nat} (hr : r ≤ infinityRank) :
    ¬ ofRank false r < ofRank true 0 := by
  rw [lt_iff_compare, unpack_zero]
  rcases rank_cases hr with rfl | ⟨h0, h⟩ | rfl
  · rw [unpack_zero]
    simp [UnpackedFloat.compare]
  · rw [unpack_finite false h0 h]
    simp [UnpackedFloat.compare, signOf]
  · rw [unpack_infinity]
    simp [UnpackedFloat.compare, signOf]

theorem zero_eq : (0 : Float) = ofRank false 0 := by
  decide +kernel

theorem not_lt_zero_of_isNaN {x : Float} (h : isNaN x = true) : ¬ x < 0 := by
  rw [lt_iff_compare, unpack_of_isNaN h]
  simp [UnpackedFloat.compare]

theorem bne_of_isNaN {x : Float} (h : isNaN x = true) (y : Float) : (x != y) = true := by
  have hbeq : (x == y) = false := by
    show (x.toModel.unpack.compare y.toModel.unpack == some .eq) = false
    rw [unpack_of_isNaN h]
    rfl
  rw [bne, hbeq]
  rfl

theorem lt_zero_iff {x : Float} (h : isNaN x = false) :
    x < 0 ↔ isNegative x = true ∧ rank x ≠ 0 := by
  have hr : rank x ≤ infinityRank := Nat.not_lt.1 (of_decide_eq_false h)
  rw [← ofRank_isNegative_rank h, isNegative_ofRank _ hr, rank_ofRank _ hr, zero_eq]
  generalize rank x = r at hr
  cases isNegative x with
  | false => simp [ofRank_lt_ofRank hr (Nat.zero_le _)]
  | true =>
    have hpos : 0 < infinityRank := by decide
    rw [lt_iff_compare, unpack_zero]
    rcases rank_cases hr with rfl | ⟨h0, h⟩ | rfl
    · rw [unpack_zero]
      simp [UnpackedFloat.compare]
    · rw [unpack_finite true h0 h]
      simp [UnpackedFloat.compare, signOf, h0.ne']
    · rw [unpack_infinity]
      simp [UnpackedFloat.compare, signOf, hpos.ne']

theorem infinity_lt_zero_iff (negative : Bool) :
    ofRank negative infinityRank < 0 ↔ negative = true := by
  have hpos : infinityRank ≠ 0 := by decide
  rw [lt_zero_iff (isNaN_infinity negative), isNegative_ofRank negative le_rfl,
    rank_ofRank negative le_rfl]
  exact and_iff_left hpos

end LineCalculator.Double
