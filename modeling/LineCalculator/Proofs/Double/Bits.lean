import LineCalculator.Double.Nearest
import Mathlib
/-! # Doubles and their bit patterns

A double is a bit pattern of which NaN has only one. Every pattern of another value is kept when it
is taken apart and put together again, so that a double is determined by its sign and its rank.

* `pack_unpack_packComponents`: a pattern that is not one of NaN is kept.
* `ofRank_isNegative_rank`: a double is put together from its sign and its rank.
* `neg_ofRank`: negation changes the sign and keeps the rank.
* `toBitVec_of_isNaN`: the pattern of NaN.
-/

namespace LineCalculator.Double
set_option autoImplicit false
open Float.Model.UnpackedFloat
open Float.Model (Format)

/-! ## Components -/

variable (s : Sign) (e : BitVec 11) (m : BitVec 52)

@[simp] theorem ofBitVec_unpackSign_packComponents :
    Sign.ofBitVec (unpackSign (packComponents Format.binary64 s e m)) = s := by
  have h : unpackSign (packComponents Format.binary64 s e m) = s.toBitVec := by
    show (s.toBitVec ++ e ++ m).extractLsb' 63 1 = s.toBitVec
    rw [BitVec.extractLsb'_append_eq_of_le (by decide),
      BitVec.extractLsb'_append_eq_of_le (by decide)]
    exact BitVec.extractLsb'_eq_self
  rw [h]
  cases s <;> rfl

/-- The other components mean the same under either sign. -/
theorem neg_unpack_packComponents :
    (unpack Format.binary64 (packComponents Format.binary64 s e m)).neg =
      unpack Format.binary64 (packComponents Format.binary64 (-s) e m) := by
  simp only [unpack, unpackMantissa_packComponents, unpackExponent_packComponents,
    ofBitVec_unpackSign_packComponents]
  split
  · split <;> rfl
  · split
    · split <;> rfl
    · rfl

theorem toNat_one_append : (1#1 ++ m).toNat = 2 ^ 52 + m.toNat := by
  rw [BitVec.toNat_append, ← Nat.shiftLeft_add_eq_or_of_lt m.isLt]
  rfl

/-- A pattern that is not one of NaN is kept. -/
theorem pack_unpack_packComponents (h : e ≠ -1#11 ∨ m = 0#52) :
    pack Format.binary64 (unpack Format.binary64 (packComponents Format.binary64 s e m)) =
      packComponents Format.binary64 s e m := by
  simp only [unpack, unpackMantissa_packComponents, unpackExponent_packComponents,
    ofBitVec_unpackSign_packComponents]
  by_cases he : e = -1#11
  · have hm : m = 0#52 := h.resolve_left fun hn => hn he
    subst he hm
    rfl
  · have heNat : e.toNat ≠ 2047 := fun hn => he (BitVec.eq_of_toNat_eq hn)
    have heLt : e.toNat < 2048 := e.isLt
    rw [if_neg he]
    by_cases he0 : e = 0#11
    · rw [if_pos he0]
      by_cases hm : m = 0#52
      · subst he0 hm
        rfl
      · have hlog : m.toNat.log2 < 52 :=
          (Nat.log2_lt fun h0 => hm (BitVec.eq_of_toNat_eq h0)).2 m.isLt
        rw [dif_neg hm]
        subst he0
        have hn : m.toNat.log2 + 1 ≠ 53 := by omega
        simp [pack, Format.exponentBias, Format.mantissaBits, hn]
    · have hlog : (2 ^ 52 + m.toNat).log2 = 52 := by
        apply (Nat.log2_eq_iff (by omega)).2
        omega
      have hb : ((e.toNat : Int) - ((Format.binary64.exponentBias : Nat) + (52 : Nat))
          + (Format.binary64.exponentBias : Nat) + (52 : Nat)).toNat = e.toNat := by omega
      have hmod : BitVec.ofNat 52 (2 ^ 52 + m.toNat) = m := by
        apply BitVec.eq_of_toNat_eq
        rw [BitVec.toNat_ofNat, Nat.add_mod_left, Nat.mod_eq_of_lt m.isLt]
      rw [if_neg he0]
      simp only [pack, toNat_one_append, hlog]
      rw [hb, hmod, if_neg (by omega), if_pos (by decide), BitVec.ofNat_toNat, BitVec.setWidth_eq]

/-! ## Sign and rank -/

/-- The sign bit. -/
def signOf (negative : Bool) : Sign := if negative then .negative else .positive

/-- The three components of a pattern with a given rank. -/
theorem toBitVec_eq_packComponents (negative : Bool) {r : Nat} (hr : r < 2 ^ 63) :
    (UInt64.ofNat (if negative then 2 ^ 63 + r else r)).toBitVec =
      packComponents Format.binary64 (signOf negative) (BitVec.ofNat 11 (r / 2 ^ 52))
        (BitVec.ofNat 52 (r % 2 ^ 52)) := by
  apply BitVec.eq_of_toNat_eq
  have hm : r % 2 ^ 52 < 2 ^ 52 := Nat.mod_lt _ (Nat.two_pow_pos 52)
  have he : r / 2 ^ 52 < 2 ^ 11 := by omega
  show _ = ((signOf negative).toBitVec ++ BitVec.ofNat 11 (r / 2 ^ 52) ++
    BitVec.ofNat 52 (r % 2 ^ 52)).toNat
  rw [BitVec.toNat_append, BitVec.toNat_append, ← Nat.shiftLeft_add_eq_or_of_lt (BitVec.isLt _),
    ← Nat.shiftLeft_add_eq_or_of_lt (BitVec.isLt _), BitVec.toNat_ofNat, BitVec.toNat_ofNat,
    Nat.mod_eq_of_lt hm, Nat.mod_eq_of_lt he, Nat.shiftLeft_eq, Nat.shiftLeft_eq]
  cases negative with
  | false =>
    simp [signOf, Sign.toBitVec]
    omega
  | true =>
    simp [signOf, Sign.toBitVec]
    omega

/-- The pattern of a double that is not NaN. -/
theorem toBits_ofRank (negative : Bool) {r : Nat} (hr : r ≤ infinityRank) :
    (ofRank negative r).toBits = UInt64.ofNat (if negative then 2 ^ 63 + r else r) := by
  have hr' : r ≤ 2047 * 2 ^ 52 := hr
  have hp : pack Format.binary64 (unpack Format.binary64
      (UInt64.ofNat (if negative then 2 ^ 63 + r else r)).toBitVec) =
      (UInt64.ofNat (if negative then 2 ^ 63 + r else r)).toBitVec := by
    rw [toBitVec_eq_packComponents negative (by omega)]
    apply pack_unpack_packComponents
    by_cases h : r = 2047 * 2 ^ 52
    · subst h
      exact .inr rfl
    · left
      intro he
      have hn : (BitVec.ofNat 11 (r / 2 ^ 52)).toNat = 2047 := by rw [he]; rfl
      rw [BitVec.toNat_ofNat, Nat.mod_eq_of_lt (by omega)] at hn
      omega
  exact congrArg UInt64.ofBitVec hp

theorem rank_ofRank (negative : Bool) {r : Nat} (hr : r ≤ infinityRank) :
    rank (ofRank negative r) = r := by
  have hr' : r ≤ 2047 * 2 ^ 52 := hr
  rw [rank, toBits_ofRank negative hr, UInt64.toNat_ofNat']
  cases negative with
  | false =>
    simp
    omega
  | true =>
    simp
    omega

theorem isNegative_ofRank (negative : Bool) {r : Nat} (hr : r ≤ infinityRank) :
    isNegative (ofRank negative r) = negative := by
  have hr' : r ≤ 2047 * 2 ^ 52 := hr
  rw [isNegative, toBits_ofRank negative hr, UInt64.toNat_ofNat']
  cases negative with
  | false =>
    simp
    omega
  | true =>
    simp
    omega

theorem eq_of_toBits_eq {x y : Float} (h : x.toBits = y.toBits) : x = y := by
  obtain ⟨⟨b, hb⟩⟩ := x
  obtain ⟨⟨c, hc⟩⟩ := y
  have hbc : b = c := h
  subst hbc
  rfl

theorem toBits_eq (x : Float) :
    x.toBits = UInt64.ofNat (if isNegative x then 2 ^ 63 + rank x else rank x) := by
  have hlt : x.toBits.toNat < 2 ^ 64 := x.toBits.toNat_lt
  apply UInt64.toNat_inj.1
  rw [UInt64.toNat_ofNat', isNegative, rank]
  split
  · rename_i h
    have h' : 2 ^ 63 ≤ x.toBits.toNat := of_decide_eq_true h
    omega
  · rename_i h
    have h' : ¬ 2 ^ 63 ≤ x.toBits.toNat := of_decide_eq_false (Bool.eq_false_iff.2 h)
    omega

/-- Negation changes the sign and keeps the rank. -/
theorem neg_ofRank (negative : Bool) {r : Nat} (hr : r ≤ infinityRank) :
    -ofRank negative r = ofRank (!negative) r := by
  have hr' : r < 2 ^ 63 := lt_of_le_of_lt hr (by decide)
  apply eq_of_toBits_eq
  show UInt64.ofBitVec (pack Format.binary64
      (unpack Format.binary64 (ofRank negative r).toBits.toBitVec).neg) =
    UInt64.ofBitVec (pack Format.binary64 (unpack Format.binary64
      (UInt64.ofNat (if (!negative) then 2 ^ 63 + r else r)).toBitVec))
  rw [toBits_ofRank negative hr, toBitVec_eq_packComponents negative hr',
    toBitVec_eq_packComponents (!negative) hr', neg_unpack_packComponents]
  cases negative <;> rfl

/-- A double is its sign and its rank. -/
theorem ofRank_isNegative_rank {x : Float} (h : isNaN x = false) :
    ofRank (isNegative x) (rank x) = x := by
  have hr : rank x ≤ infinityRank := Nat.not_lt.1 (of_decide_eq_false h)
  apply eq_of_toBits_eq
  rw [toBits_ofRank _ hr, ← toBits_eq]

theorem isFinite_infinity (negative : Bool) : isFinite (ofRank negative infinityRank) = false := by
  rw [isFinite, rank_ofRank negative le_rfl]
  exact decide_eq_false (lt_irrefl _)

theorem isNaN_infinity (negative : Bool) : isNaN (ofRank negative infinityRank) = false := by
  rw [isNaN, rank_ofRank negative le_rfl]
  exact decide_eq_false (lt_irrefl _)

theorem isNaN_of_isFinite {x : Float} (h : isFinite x = true) : isNaN x = false := by
  have hr : rank x < infinityRank := of_decide_eq_true h
  exact decide_eq_false (Nat.lt_asymm hr)

theorem isFinite_of_isNaN {x : Float} (h : isNaN x = true) : isFinite x = false := by
  have hr : infinityRank < rank x := of_decide_eq_true h
  exact decide_eq_false (Nat.lt_asymm hr)

/-! ## NaN -/

theorem toBitVec_of_isNaN {x : Float} (h : isNaN x = true) :
    x.toBits.toBitVec = packedNaN Format.binary64 := by
  have hr : 2047 * 2 ^ 52 < rank x := of_decide_eq_true h
  have hlt : rank x < 2 ^ 63 := Nat.mod_lt _ (Nat.two_pow_pos 63)
  have hb : x.toBits.toBitVec = _ :=
    (congrArg UInt64.toBitVec (toBits_eq x)).trans (toBitVec_eq_packComponents _ hlt)
  have hv := x.toModel.valid.eq_packedNaN
  apply hv
  · refine (congrArg (@unpackExponent Format.binary64) hb).trans ?_
    rw [ unpackExponent_packComponents]
    apply BitVec.eq_of_toNat_eq
    rw [BitVec.toNat_ofNat]
    show _ = 2047
    omega
  · intro hm
    replace hm := (congrArg (@unpackMantissa Format.binary64) hb).symm.trans hm
    rw [unpackMantissa_packComponents] at hm
    have hn := congrArg BitVec.toNat hm
    rw [BitVec.toNat_ofNat] at hn
    simp at hn
    omega

/-- There is one NaN. -/
theorem eq_zero_div_zero_of_isNaN {x : Float} (h : isNaN x = true) : x = 0 / 0 := by
  have h0 : ((0 : Float) / 0).toBits.toBitVec = packedNaN Format.binary64 := by decide +kernel
  apply eq_of_toBits_eq
  exact UInt64.toBitVec_inj.1 ((toBitVec_of_isNaN h).trans h0.symm)

end LineCalculator.Double
