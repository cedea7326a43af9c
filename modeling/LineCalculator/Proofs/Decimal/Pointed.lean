import LineCalculator.Proofs.Decimal.ReadBack
import LineCalculator.Proofs.Double.Monotone
/-! # Answers are read back

An answer is written with a point. Unless its magnitude calls for a power of ten it is a numeral
with or without a sign, and the numeral denotes the magnitude.

* `nearestRank_mul_right`: a ratio is rounded alike in all its terms.
* `isPositional_shortest`: from `10 ^ -4` to below `10 ^ 16` a shortest decimal is positional.
* `read?_pointed`: the point and the zero after a whole number do not change what it denotes.
* `IsModerate x`: `x` is a zero, or of a magnitude in these bounds.
* `IsModerate.exists_numeral`: such a value is written as a numeral that denotes its magnitude.
-/

namespace LineCalculator
set_option autoImplicit false

/-! ## Ratios in other terms -/

namespace Double
variable {k : Nat} (hk : 0 < k) (num den : Nat)
include hk

theorem roundHalfEven_mul_right : roundHalfEven (num * k) (den * k) = roundHalfEven num den := by
  have hleft (a b : Nat) : 2 * (a * k) < b * k ↔ 2 * a < b := by
    rw [← Nat.mul_assoc, Nat.mul_lt_mul_right hk]
  have hright (a b : Nat) : b * k < 2 * (a * k) ↔ b < 2 * a := by
    rw [← Nat.mul_assoc, Nat.mul_lt_mul_right hk]
  simp only [roundHalfEven, Nat.mul_div_mul_right _ _ hk, Nat.mul_mod_mul_right, hleft, hright]

theorem nearestRank_mul_right : nearestRank (num * k) (den * k) = nearestRank num den := by
  have hone : num * k * one = num * one * k := Nat.mul_right_comm num k one
  have hstep (s : Nat) : den * k * 2 ^ s = den * 2 ^ s * k := Nat.mul_right_comm den k (2 ^ s)
  simp only [nearestRank, hone, hstep, Nat.mul_div_mul_right _ _ hk, roundHalfEven_mul_right hk]

end Double

/-! ## The first digit of a shortest decimal -/

namespace Decimal

section Digits
variable (d : Decimal)

theorem coefficient_lt : d.coefficient < 10 ^ d.digits.length :=
  (Nat.length_toDigits_le_iff (by decide) Nat.length_toDigits_pos).1 le_rfl

theorem ten_pow_le_coefficient (h : 0 < d.coefficient) :
    10 ^ (d.digits.length - 1) ≤ d.coefficient := by
  by_contra hlt
  by_cases h1 : d.digits.length - 1 = 0
  · rw [h1, Nat.pow_zero] at hlt
    omega
  · have hle := (Nat.length_toDigits_le_iff (by decide) (Nat.pos_of_ne_zero h1)).2 (Nat.not_le.1 hlt)
    have hle' : d.digits.length ≤ d.digits.length - 1 := hle
    omega

/-- The rank of the decimal's double. -/
def nearestRank (d : Decimal) : Nat :=
  Double.nearestRank (d.coefficient * 10 ^ d.exponent.toNat) (10 ^ (-d.exponent).toNat)

theorem le_nearestRank_of_le_leading {n : Nat} (h : (n : Int) ≤ d.leading)
    (hpos : 0 < d.coefficient) : Double.nearestRank (10 ^ n) 1 ≤ d.nearestRank := by
  have hden : 0 < 10 ^ (-d.exponent).toNat := Nat.pow_pos (by decide)
  have hn : n + (-d.exponent).toNat ≤ d.digits.length - 1 + d.exponent.toNat := by
    have hlen : 0 < d.digits.length := Nat.length_toDigits_pos
    rw [leading] at h
    omega
  have hle : 10 ^ n * 10 ^ (-d.exponent).toNat ≤ d.coefficient * 10 ^ d.exponent.toNat := by
    calc 10 ^ n * 10 ^ (-d.exponent).toNat
        = 10 ^ (n + (-d.exponent).toNat) := (Nat.pow_add 10 _ _).symm
      _ ≤ 10 ^ (d.digits.length - 1 + d.exponent.toNat) := Nat.pow_le_pow_right (by decide) hn
      _ = 10 ^ (d.digits.length - 1) * 10 ^ d.exponent.toNat := Nat.pow_add 10 _ _
      _ ≤ d.coefficient * 10 ^ d.exponent.toNat :=
        Nat.mul_le_mul_right _ (d.ten_pow_le_coefficient hpos)
  rw [← Double.nearestRank_mul_right hden, Nat.one_mul]
  exact Double.nearestRank_mono hden hle

theorem nearestRank_le_of_leading_lt {n : Nat} (h : d.leading < -(n : Int)) :
    d.nearestRank ≤ Double.nearestRank 1 (10 ^ n) := by
  have hten (k : Nat) : 0 < 10 ^ k := Nat.pow_pos (by decide)
  have hlen : 0 < d.digits.length := Nat.length_toDigits_pos
  rw [leading] at h
  have hexp : d.exponent.toNat = 0 := by omega
  have hn : d.digits.length + n ≤ (-d.exponent).toNat := by omega
  have hle : d.coefficient * 10 ^ d.exponent.toNat * 10 ^ n ≤ 1 * 10 ^ (-d.exponent).toNat := by
    calc d.coefficient * 10 ^ d.exponent.toNat * 10 ^ n
        = d.coefficient * 10 ^ n := by rw [hexp, Nat.pow_zero, Nat.mul_one]
      _ ≤ 10 ^ d.digits.length * 10 ^ n := Nat.mul_le_mul_right _ d.coefficient_lt.le
      _ = 10 ^ (d.digits.length + n) := (Nat.pow_add 10 _ _).symm
      _ ≤ 10 ^ (-d.exponent).toNat := Nat.pow_le_pow_right (by decide) hn
      _ = 1 * 10 ^ (-d.exponent).toNat := (Nat.one_mul _).symm
  rw [nearestRank, ← Double.nearestRank_mul_right (hten n),
    ← Double.nearestRank_mul_right (hten (-d.exponent).toNat) 1, Nat.mul_comm (10 ^ n)]
  exact Double.nearestRank_mono (Nat.mul_pos (hten _) (hten _)) hle

end Digits

theorem nearestRank_shortest {r : Nat} (hr : r < Double.infinityRank) :
    (shortest r).nearestRank = r := by
  have h := congrArg Double.rank (toFloat_shortest hr)
  rwa [Double.rank_ofRank false hr.le, toFloat, Double.rank_nearest] at h

theorem nearestRank_of_coefficient_eq_zero {d : Decimal} (h : d.coefficient = 0) :
    d.nearestRank = 0 := by
  rw [nearestRank, h]
  apply Double.nearestRank_eq (Nat.pow_pos (by decide)) (by decide)
  simp [Double.Rounds]

/-- The double nearest to `10 ^ -4` is the least one that is written without a power of ten. -/
theorem isPositional_least :
    Layout.pointed.isPositional (shortest (Double.nearestRank 1 (10 ^ 4))) = true := by
  decide +kernel

theorem isPositional_shortest {r : Nat} (hlow : Double.nearestRank 1 (10 ^ 4) ≤ r)
    (hhigh : r < Double.nearestRank (10 ^ 16) 1) :
    Layout.pointed.isPositional (shortest r) = true := by
  have hr : r < Double.infinityRank := hhigh.trans_le (Double.nearestRank_le _ _)
  have hrank := nearestRank_shortest hr
  have hpos : 0 < (shortest r).coefficient := by
    apply Nat.pos_of_ne_zero
    intro h0
    rw [nearestRank_of_coefficient_eq_zero h0] at hrank
    subst hrank
    exact absurd hlow (by decide +kernel)
  rcases hlow.eq_or_lt with heq | hlt
  · rw [← heq]
    exact isPositional_least
  · show (decide (-4 ≤ (shortest r).leading) && decide ((shortest r).leading < 16)) = true
    rw [Bool.and_eq_true, decide_eq_true_iff, decide_eq_true_iff]
    constructor
    · by_contra h
      have hle := (shortest r).nearestRank_le_of_leading_lt (n := 4) (Int.not_le.1 h)
      omega
    · by_contra h
      have hle := (shortest r).le_nearestRank_of_le_leading (n := 16) (Int.not_lt.1 h) hpos
      omega

/-! ## The written numeral -/

section Written
variable (d : Decimal)

theorem toFloat_of_tenths (n : Nat) : toFloat ⟨n * 10, -1⟩ = toFloat ⟨n, 0⟩ := by
  have hscale := Double.nearestRank_mul_right (by decide : 0 < 10) n 1
  have hexp : (-1 : Int).toNat = 0 := rfl
  simp only [toFloat, Double.nearest, hexp, Int.toNat_zero, Int.neg_neg, Int.neg_zero,
    Int.toNat_one, Nat.pow_zero, Nat.pow_one, Nat.mul_one]
  rw [← hscale, Nat.one_mul]

theorem toFloat_of_nonneg (h : 0 ≤ d.exponent) :
    toFloat ⟨d.coefficient * 10 ^ d.exponent.toNat, 0⟩ = d.toFloat := by
  have hexp : (-d.exponent).toNat = 0 := by omega
  rw [toFloat, toFloat, hexp]
  simp

/-- The numeral denotes the decimal, also where a point and a zero follow a whole number. -/
theorem read?_pointed : ∃ d' : Decimal,
    read? (Layout.pointed.writePositional d) = some d' ∧ d'.toFloat = d.toFloat := by
  by_cases h0 : 0 ≤ d.exponent
  · have hwrite : Layout.pointed.writePositional d =
        (d.digits ++ List.replicate d.exponent.toNat '0') ++ ['.', '0'] := if_pos h0
    have hwhole : ∀ c ∈ d.digits ++ List.replicate d.exponent.toNat '0', c.isDigit = true := by
      intro c hc
      rcases List.mem_append.1 hc with hc | hc
      · exact d.isDigit_of_mem_digits hc
      · exact isDigit_of_mem_zeros hc
    have hzero : ∀ c ∈ ['0'], c.isDigit = true := by simp
    have hdigits : ofDigits (d.digits ++ List.replicate d.exponent.toNat '0' ++ ['0']) =
        d.coefficient * 10 ^ d.exponent.toNat * 10 := by
      rw [List.append_assoc, ← List.replicate_succ', ofDigits_digits_append_zeros, Nat.pow_succ,
        Nat.mul_assoc]
    refine ⟨_, hwrite ▸ read?_point hwhole hzero (by simp), ?_⟩
    rw [hdigits]
    exact (toFloat_of_tenths _).trans (d.toFloat_of_nonneg h0)
  · have hwrite : Layout.pointed.writePositional d = Layout.plain.writePositional d := by
      rw [Layout.writePositional, Layout.writePositional, if_neg h0, if_neg h0]
    rw [hwrite]
    exact d.read?_writePositional

end Written

end Decimal

/-! ## Moderate values -/

namespace Double

/-- The magnitude alone. -/
theorem abs_ofRank (negative : Bool) {r : Nat} (hr : r ≤ infinityRank) :
    (ofRank negative r).abs = ofRank false r := by
  have h : (ofRank negative r).toModel.unpack.abs = (ofRank true r).toModel.unpack.neg := by
    rcases rank_cases hr with rfl | ⟨h0, h⟩ | rfl
    · rw [unpack_zero, unpack_zero]
      rfl
    · rw [unpack_finite _ h0 h, unpack_finite _ h0 h]
      rfl
    · rw [unpack_infinity, unpack_infinity]
      rfl
  have habs : (ofRank negative r).abs = -ofRank true r :=
    congrArg (fun u => (⟨Float.Model.pack u⟩ : Float)) h
  rw [habs, neg_ofRank true hr, Bool.not_true]

end Double

/-- A zero of either sign, or a value that is written without a power of ten. -/
def IsModerate (x : Float) : Prop := x = 0 ∨ x = -0 ∨ (1e-4 ≤ x.abs ∧ x.abs < 1e16)

instance : DecidablePred IsModerate := fun _ => inferInstanceAs (Decidable (_ ∨ _ ∨ _ ∧ _))

namespace IsModerate
variable {x : Float}

theorem isNaN (h : IsModerate x) : Double.isNaN x = false := by
  rw [Bool.eq_false_iff]
  intro hnan
  rw [Double.eq_zero_div_zero_of_isNaN hnan] at h
  exact absurd h (by decide +kernel)

theorem rank_cases (h : IsModerate x) : Double.rank x = 0 ∨
    (Double.nearestRank 1 (10 ^ 4) ≤ Double.rank x ∧
      Double.rank x < Double.nearestRank (10 ^ 16) 1) := by
  have hr : Double.rank x ≤ Double.infinityRank := Nat.not_lt.1 (of_decide_eq_false h.isNaN)
  have hx := Double.ofRank_isNegative_rank h.isNaN
  have habs : x.abs = Double.ofRank false (Double.rank x) := by
    conv => lhs; rw [← hx]
    exact Double.abs_ofRank _ hr
  have hleast : (1e-4 : Float) = Double.nearest 1 (10 ^ 4) := by decide +kernel
  have hbound : (1e16 : Float) = Double.nearest (10 ^ 16) 1 := by decide +kernel
  rcases h with rfl | rfl | ⟨hlow, hhigh⟩
  · exact .inl (by decide +kernel)
  · exact .inl (by decide +kernel)
  · right
    rw [habs, hleast] at hlow
    rw [habs, hbound] at hhigh
    exact ⟨(Double.ofRank_le_ofRank (Double.nearestRank_le _ _) hr).1 hlow,
      (Double.ofRank_lt_ofRank hr (Double.nearestRank_le _ _)).1 hhigh⟩

theorem isPositional (h : IsModerate x) :
    Layout.pointed.isPositional (Decimal.shortest (Double.rank x)) = true := by
  rcases h.rank_cases with h0 | ⟨hlow, hhigh⟩
  · rw [h0]
    decide
  · exact Decimal.isPositional_shortest hlow hhigh

theorem rank_lt (h : IsModerate x) : Double.rank x < Double.infinityRank := by
  rcases h.rank_cases with h0 | ⟨-, hhigh⟩
  · rw [h0]
    decide
  · exact hhigh.trans_le (Double.nearestRank_le _ _)

/-- The numeral of the magnitude, after a sign if the value has one. -/
theorem exists_numeral (h : IsModerate x) : ∃ n : Expression.Numeral,
    n.decimal.toFloat = Double.ofRank false (Double.rank x) ∧
      Layout.pointed.write x = if Double.isNegative x then '-' :: n.text else n.text := by
  obtain ⟨d, hread, hd⟩ := (Decimal.shortest (Double.rank x)).read?_pointed
  obtain ⟨n, htext, hdecimal⟩ := Expression.Numeral.exists_of_read? hread
  refine ⟨n, ?_, ?_⟩
  · rw [hdecimal, hd, Decimal.toFloat_shortest h.rank_lt]
  · have hnan : ¬ Double.isNaN x = true := Bool.eq_false_iff.1 h.isNaN
    have hfin : Double.isFinite x = true := decide_eq_true h.rank_lt
    rw [Layout.write, if_neg hnan, if_pos hfin, Layout.writeDecimal, if_pos h.isPositional, htext]

end IsModerate

end LineCalculator
