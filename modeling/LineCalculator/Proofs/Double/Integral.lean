import LineCalculator.Double.Integral
import LineCalculator.Proofs.Double.Nearest
import LineCalculator.Proofs.Double.Order
/-! # Whole doubles

The whole numbers below `2 ^ 53` are doubles, and a double with a fractional part is below them. So
the whole double below such a double is another one, and a comparison with it shows the fraction.

* `exists_units_eq`, `nearestRank_of_units`: a whole number that is a double is rounded to itself.
* `toNat?_eq_some_iff`, `toSafeNat?_eq_some_iff`: the doubles that are natural numbers, all of them
  and up to `maxSafeNat`.
* `beq_floor`: the comparison with the whole double below.
-/

namespace LineCalculator.Double
set_option autoImplicit false

/-! ## Whole numbers as magnitudes -/

theorem units_of_binade {s q : Nat} (hlow : 2 ^ 52 ≤ q) (hhigh : q < 2 ^ 53) :
    units (s * 2 ^ 52 + q) = q * 2 ^ s := by
  have hq : significand (s * 2 ^ 52 + q) = q := by
    unfold significand
    rw [if_neg (by omega)]
    omega
  have hs : shift (s * 2 ^ 52 + q) = s := by
    unfold shift
    omega
  rw [units, hq, hs]

theorem exists_units_eq {m : Nat} (h : m < 2 ^ 53) : ∃ r < infinityRank, units r = m * one := by
  by_cases h0 : m = 0
  · exact ⟨0, by decide, by rw [h0, units_zero, Nat.zero_mul]⟩
  · have hlog : m.log2 < 53 := (Nat.log2_lt h0).2 h
    obtain ⟨k, hk⟩ : ∃ k, m.log2 + k = 52 := ⟨52 - m.log2, by omega⟩
    have hlow : 2 ^ 52 ≤ m * 2 ^ k := by
      rw [← hk, Nat.pow_add]
      exact Nat.mul_le_mul_right _ (Nat.log2_self_le h0)
    have hhigh : m * 2 ^ k < 2 ^ 53 := by
      have hlt : m < 2 ^ (m.log2 + 1) := (Nat.log2_lt h0).1 (Nat.lt_succ_self _)
      have he : 2 ^ 53 = 2 ^ (m.log2 + 1) * 2 ^ k := by
        rw [← Nat.pow_add]
        congr 1
        omega
      rw [he]
      exact Nat.mul_lt_mul_of_pos_right hlt (Nat.two_pow_pos k)
    refine ⟨(places - k) * 2 ^ 52 + m * 2 ^ k, ?_, ?_⟩
    · unfold infinityRank places
      omega
    · have hle : k ≤ places := by
        unfold places
        omega
      rw [units_of_binade hlow hhigh, Nat.mul_assoc, ← Nat.pow_add, Nat.add_sub_cancel' hle, one]

theorem nearestRank_of_units {m r : Nat} (hr : r < infinityRank) (h : units r = m * one) :
    nearestRank m 1 = r := by
  have hnext := units_lt_units_succ r
  have hprev : units (r - 1) ≤ units r := strictMono_units.monotone (Nat.sub_le r 1)
  apply nearestRank_eq Nat.one_pos hr
  refine ⟨?_, ?_, ?_⟩
  · rw [← h]
    omega
  · rw [← h]
    omega
  · intro hodd
    have hprev : units (r - 1) < units r := strictMono_units (by omega)
    rw [← h]
    omega

theorem ofNat_eq_of_units {m r : Nat} (hr : r < infinityRank) (h : units r = m * one) :
    ofNat m = ofRank false r := by
  rw [ofNat, nearest, nearestRank_of_units hr h]

/-- Only a magnitude with less than 53 binary digits before the point has a fractional part. -/
theorem wholePart_lt {r : Nat} (h : isWhole r = false) : wholePart r < 2 ^ 53 := by
  have hfraction : ¬ units r % one = 0 := of_decide_eq_false h
  have hshift : shift r < places := by
    by_contra hle
    apply hfraction
    have hdvd : one ∣ 2 ^ shift r := Nat.pow_dvd_pow 2 (Nat.not_lt.1 hle)
    exact Nat.mod_eq_zero_of_dvd (Dvd.dvd.mul_left hdvd (significand r))
  apply Nat.lt_of_le_of_lt _ (significand_lt r)
  apply Nat.div_le_of_le_mul
  rw [units, Nat.mul_comm]
  exact Nat.mul_le_mul_right _ (Nat.pow_le_pow_right Nat.two_pos hshift.le)

/-! ## Doubles that are natural numbers -/

theorem units_eq_zero_iff {r : Nat} : units r = 0 ↔ r = 0 := by
  constructor
  · intro h
    exact strictMono_units.injective (h.trans units_zero.symm)
  · rintro rfl
    exact units_zero

theorem lt_zero_iff_value {x : Float} (h : isFinite x = true) : x < 0 ↔ value x < 0 := by
  rw [lt_zero_iff (isNaN_of_isFinite h), value]
  have hone := one_pos_rat
  cases isNegative x with
  | false =>
    rw [if_neg Bool.false_ne_true, one_mul]
    exact iff_of_false (fun h => Bool.false_ne_true h.1) (not_lt.2 (magnitude_nonneg _))
  | true =>
    have hunits : (0 : ℚ) < units (rank x) ↔ rank x ≠ 0 := by
      rw [Nat.cast_pos, Nat.pos_iff_ne_zero, ne_eq, units_eq_zero_iff]
    rw [if_pos rfl, neg_one_mul, neg_neg_iff_pos, div_pos_iff_of_pos_right hone, hunits]
    exact and_iff_right rfl

theorem value_of_not_lt_zero {x : Float} (h : isFinite x = true) (h0 : ¬ x < 0) :
    value x = units (rank x) / one := by
  rw [lt_zero_iff_value h, not_lt] at h0
  rw [← abs_value, abs_of_nonneg h0]

theorem magnitude_eq_iff {r n : Nat} :
    (units r / one : ℚ) = n ↔ isWhole r = true ∧ wholePart r = n := by
  have hone : (one : ℚ) ≠ 0 := one_pos_rat.ne'
  rw [div_eq_iff hone, ← Nat.cast_mul, Nat.cast_inj, isWhole, decide_eq_true_iff, wholePart]
  constructor
  · intro h
    rw [h]
    exact ⟨Nat.mul_mod_left n one, Nat.mul_div_cancel n one_pos⟩
  · rintro ⟨hmod, rfl⟩
    exact (Nat.div_mul_cancel (Nat.dvd_of_mod_eq_zero hmod)).symm

theorem toNat?_eq_some_iff {x : Float} {n : Nat} :
    toNat? x = some n ↔ isFinite x = true ∧ value x = n := by
  by_cases hfin : isFinite x = true
  · by_cases h0 : x < 0
    · obtain ⟨hneg, hr⟩ := (lt_zero_iff (isNaN_of_isFinite hfin)).1 h0
      have hne : value x ≠ n := by
        intro he
        rw [lt_zero_iff_value hfin, he] at h0
        exact absurd (Nat.cast_nonneg n) (not_le.2 h0)
      simp [toNat?, hneg, hr, hne]
    · have hsign : (!isNegative x || decide (rank x = 0)) = true := by
        rw [lt_zero_iff (isNaN_of_isFinite hfin), not_and, not_not] at h0
        cases hneg : isNegative x with
        | false => rfl
        | true => rw [h0 hneg]; rfl
      rw [value_of_not_lt_zero hfin h0, magnitude_eq_iff]
      simp [toNat?, hfin, hsign]
  · simp [toNat?, hfin]

theorem toNat?_eq_none {x : Float} (h : (isFinite x && isWhole (rank x)) = false) :
    toNat? x = none := by
  rw [Bool.and_eq_false_iff] at h
  rcases h with h | h
  · rw [toNat?, h]
    rfl
  · rw [toNat?, h, Bool.and_false]
    rfl

theorem not_lt_zero_of_value {x : Float} {n : Nat} (hfin : isFinite x = true) (h : value x = n) :
    ¬ x < 0 := by
  rw [lt_zero_iff_value hfin, h]
  exact not_lt.2 (Nat.cast_nonneg n)

theorem value_eq_wholePart {x : Float} (hfin : isFinite x = true) (h0 : ¬ x < 0)
    (hwhole : isWhole (rank x) = true) : value x = wholePart (rank x) := by
  rw [value_of_not_lt_zero hfin h0]
  exact magnitude_eq_iff.2 ⟨hwhole, rfl⟩

theorem isWhole_of_value {x : Float} {n : Nat} (hfin : isFinite x = true) (h : value x = n) :
    isWhole (rank x) = true := by
  rw [value_of_not_lt_zero hfin (not_lt_zero_of_value hfin h)] at h
  exact (magnitude_eq_iff.1 h).1

theorem toSafeNat?_eq_some_iff {x : Float} {n : Nat} :
    toSafeNat? x = some n ↔ isFinite x = true ∧ value x = n ∧ n ≤ maxSafeNat := by
  rw [toSafeNat?, Option.filter_eq_some_iff, toNat?_eq_some_iff, decide_eq_true_iff, and_assoc]

theorem eq_ofRank_of_not_lt_zero {x : Float} (hnan : isNaN x = false) (h0 : ¬ x < 0) :
    x = ofRank true 0 ∨ x = ofRank false (rank x) := by
  rw [lt_zero_iff hnan, not_and, not_not] at h0
  have he := ofRank_isNegative_rank hnan
  cases hneg : isNegative x with
  | false =>
    rw [hneg] at he
    exact .inr he.symm
  | true =>
    rw [hneg, h0 hneg] at he
    exact .inl he.symm

/-- A whole number compares with the other doubles like the numbers that they stand for. -/
theorem ofNat_lt_iff_lt_value {x : Float} {m : Nat} (hm : m < 2 ^ 53) (hfin : isFinite x = true)
    (h0 : ¬ x < 0) : ofNat m < x ↔ (m : ℚ) < value x := by
  have hr : rank x < infinityRank := of_decide_eq_true hfin
  obtain ⟨r, hrm, hunits⟩ := exists_units_eq hm
  have hlt : r < rank x ↔ (m : ℚ) < value x := by
    rw [value_of_not_lt_zero hfin h0, lt_div_iff₀ one_pos_rat, ← Nat.cast_mul, Nat.cast_lt,
      ← hunits, strictMono_units.lt_iff_lt]
  rw [ofNat_eq_of_units hrm hunits, ← hlt]
  rcases eq_ofRank_of_not_lt_zero (isNaN_of_isFinite hfin) h0 with rfl | he
  · rw [rank_ofRank true (Nat.zero_le _)]
    exact iff_of_false (not_ofRank_lt_negative_zero hrm.le) (Nat.not_lt_zero r)
  · nth_rewrite 1 [he]
    exact ofRank_lt_ofRank hrm.le hr.le

/-- Whole numbers compare like the doubles that they are. -/
theorem ofNat_lt_iff {x : Float} {m n : Nat} (hm : m < 2 ^ 53) (hfin : isFinite x = true)
    (h : value x = n) : ofNat m < x ↔ m < n := by
  rw [ofNat_lt_iff_lt_value hm hfin (not_lt_zero_of_value hfin h), h, Nat.cast_lt]

theorem ofNat_lt_infinity {m : Nat} (hm : m < 2 ^ 53) : ofNat m < ofRank false infinityRank := by
  obtain ⟨r, hr, hunits⟩ := exists_units_eq hm
  rw [ofNat_eq_of_units hr hunits, ofRank_lt_ofRank hr.le le_rfl]
  exact hr

/-- Unless it is infinite, a double that is not negative equals the whole double below it just if
it is whole. -/
theorem beq_floor {x : Float} (hnan : isNaN x = false) (h0 : ¬ x < 0) :
    (x == floor x) = (!isFinite x || isWhole (rank x)) := by
  have hr : rank x ≤ infinityRank := Nat.not_lt.1 (of_decide_eq_false hnan)
  rcases eq_ofRank_of_not_lt_zero hnan h0 with rfl | he
  · have hwhole : isWhole (rank (ofRank true 0)) = true := by
      rw [rank_ofRank true (Nat.zero_le _), isWhole, units_zero, Nat.zero_mod]
      rfl
    rw [floor, hwhole, Bool.or_true, if_pos rfl]
    show ((ofRank true 0).toModel.unpack.compare (ofRank true 0).toModel.unpack == some .eq) = true
    rw [unpack_zero]
    rfl
  have hneg : isNegative x = false := by
    rw [he]
    exact isNegative_ofRank false hr
  by_cases hstays : (!isFinite x || isWhole (rank x)) = true
  · rw [floor, if_pos hstays, hstays, he, ofRank_beq_ofRank hr hr]
    exact decide_eq_true rfl
  · rw [floor, if_neg hstays, hneg, if_neg Bool.false_ne_true]
    rw [Bool.not_eq_true, Bool.or_eq_false_iff] at hstays
    obtain ⟨m, hm, hunits⟩ := exists_units_eq (wholePart_lt hstays.2)
    have hne : rank x ≠ m := by
      rintro rfl
      have hwhole : isWhole (rank x) = true := by
        rw [isWhole, hunits, Nat.mul_mod_left]
        rfl
      rw [hwhole] at hstays
      exact Bool.noConfusion hstays.2
    rw [ofNat_eq_of_units hm hunits, hstays.1, hstays.2]
    nth_rewrite 1 [he]
    rw [ofRank_beq_ofRank hr hm.le]
    exact decide_eq_false hne

end LineCalculator.Double
