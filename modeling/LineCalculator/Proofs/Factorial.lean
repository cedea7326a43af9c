import LineCalculator.Builtin
import LineCalculator.Proofs.Double.Integral
/-! # The factorial of a double

The guards of the factorial divide the doubles into the ones below zero, NaN and the ones with a
fractional part, infinity, and the natural numbers. Of these the first two kinds are refused.

* `factorial_eq`: the product is the factorial.
* `overflowThreshold_le_factorial`: from 171 on its double is infinite, so that it is of no
  consequence for the value from where on the product is not formed.
* `guardedFactorial`: one guard after the other, in front of a conversion that checks its argument
  again.
* `factorial_of_lt_zero`, `factorial_of_not_whole`, `factorial_of_infinite`,
  `factorial_of_natural`: one kind of argument at a time.
* `factorial_meaning`: what the factorial of every double is.
-/

namespace LineCalculator
set_option autoImplicit false
open Double (value overflowThreshold infinityRank ofRank isFinite isNaN isNegative rank IsNearest)
open scoped Nat

/-! ## The product -/

theorem Factorial.factorial_eq (n : Nat) : Factorial.factorial n = n ! := by
  induction n with
  | zero => rfl
  | succ n ih => rw [Factorial.factorial, ih, Nat.factorial_succ]

theorem overflowThreshold_le_factorial {n : Nat} (h : Factorial.maxWritten < n) :
    overflowThreshold ≤ n ! := by
  have h171 : overflowThreshold ≤ 171 ! := by decide +kernel
  exact h171.trans (Nat.factorial_le h)

theorem isNearest_ofNat (n : Nat) : IsNearest n (Double.ofNat n) := by
  have h : IsNearest (n / (1 : ℕ)) (Double.nearest n 1) := Double.isNearest_nearest Nat.one_pos
  rwa [Nat.cast_one, div_one] at h

theorem ofNat_factorial_of_lt {n : Nat} (h : Factorial.maxWritten < n) :
    Double.ofNat n ! = ofRank false infinityRank := by
  rw [Double.ofNat, Double.nearest, Double.nearestRank_eq_infinityRank Nat.one_pos]
  rw [Nat.mul_one]
  exact overflowThreshold_le_factorial h

namespace Builtin

/-! ## The guards -/

/-- The factorial with one guard after the other. The last one is that of the conversion to a
natural number. -/
def guardedFactorial (x : Float) : Logged DomainError Float :=
  if x < 0 then .error (.negativeFactorial x)
  else if x != Double.floor x then .error (.fractionalFactorial x)
  else if Double.ofNat Factorial.maxExact < x then
    ⟨[.hugeFactorial x], .ok (ofRank false infinityRank)⟩
  else
    match Double.toSafeNat? x with
    | none => .error (.fractionalFactorial x)
    | some n =>
      let exact := Factorial.factorial n
      ⟨[.factorial n exact], .ok (Double.ofNat exact)⟩

section
variable {x : Float}

theorem factorial_of_lt_zero (h : x < 0) :
    factorial x = .error (.negativeFactorial x) ∧ guardedFactorial x = factorial x := by
  have hf : factorial x = .error (.negativeFactorial x) := if_pos h
  refine ⟨hf, ?_⟩
  rw [hf]
  exact if_pos h

theorem bne_floor_of_not_whole (h0 : ¬ x < 0)
    (h : isNaN x = true ∨ isFinite x = true ∧ Double.isWhole (rank x) = false) :
    (x != Double.floor x) = true := by
  by_cases hnan : isNaN x = true
  · exact Double.bne_of_isNaN hnan _
  · rw [Bool.not_eq_true] at hnan
    rw [hnan] at h
    obtain ⟨hfin, hwhole⟩ := h.resolve_left Bool.false_ne_true
    rw [bne, Double.beq_floor hnan h0, hfin, hwhole]
    rfl

/-- Where the comparison with the whole number below fails, the conversion fails too. -/
theorem factorial_of_not_whole (h0 : ¬ x < 0)
    (h : isNaN x = true ∨ isFinite x = true ∧ Double.isWhole (rank x) = false) :
    factorial x = .error (.fractionalFactorial x) ∧ guardedFactorial x = factorial x := by
  have hne : x ≠ ofRank false infinityRank := by
    rintro rfl
    rw [Double.isNaN_infinity, Double.isFinite_infinity] at h
    simp at h
  have hnone : Double.toNat? x = none := by
    apply Double.toNat?_eq_none
    rcases h with h | h
    · rw [Double.isFinite_of_isNaN h, Bool.false_and]
    · rw [h.2, Bool.and_false]
  have hf : factorial x = .error (.fractionalFactorial x) := by
    rw [factorial, if_neg h0, if_neg hne, hnone]
  refine ⟨hf, ?_⟩
  rw [hf, guardedFactorial, if_neg h0, if_pos (bne_floor_of_not_whole h0 h)]

theorem factorial_of_infinite (h : x = ofRank false infinityRank) :
    factorial x = ⟨[.hugeFactorial x], .ok x⟩ ∧ guardedFactorial x = factorial x := by
  have h0 : ¬ x < 0 := by
    rw [h, Double.infinity_lt_zero_iff]
    exact Bool.false_ne_true
  have hbne : (x != Double.floor x) = false := by
    have hnan : isNaN x = false := by rw [h, Double.isNaN_infinity]
    have hfin : isFinite x = false := by rw [h, Double.isFinite_infinity]
    rw [bne, Double.beq_floor hnan h0, hfin]
    rfl
  have hlt : Double.ofNat Factorial.maxExact < x := by
    rw [h]
    exact Double.ofNat_lt_infinity (by decide)
  have hf : factorial x = ⟨[.hugeFactorial x], .ok x⟩ := by
    rw [factorial, if_neg h0, if_pos h]
  refine ⟨hf, ?_⟩
  rw [hf, guardedFactorial, if_neg h0, hbne, if_neg Bool.false_ne_true, if_pos hlt, ← h]

/-- The product is formed up to the largest argument for which that is of any use. -/
theorem factorial_of_value {n : Nat} (hfin : isFinite x = true) (hn : value x = n) :
    factorial x =
      if Factorial.maxExact < n then ⟨[.hugeFactorial x], .ok (ofRank false infinityRank)⟩
      else ⟨[.factorial n n !], .ok (Double.ofNat n !)⟩ := by
  have h0 := Double.not_lt_zero_of_value hfin hn
  have hne : x ≠ ofRank false infinityRank := by
    rintro rfl
    rw [Double.isFinite_infinity] at hfin
    cases hfin
  have hsome := Double.toNat?_eq_some_iff.2 ⟨hfin, hn⟩
  rw [factorial, if_neg h0, if_neg hne, hsome, ← Factorial.factorial_eq]

theorem factorial_of_natural {n : Nat} (hfin : isFinite x = true) (hn : value x = n) :
    (factorial x).result = .ok (Double.ofNat n !) ∧ guardedFactorial x = factorial x := by
  have h0 := Double.not_lt_zero_of_value hfin hn
  have hbne : (x != Double.floor x) = false := by
    have hwhole := Double.isWhole_of_value hfin hn
    rw [bne, Double.beq_floor (Double.isNaN_of_isFinite hfin) h0, hwhole, Bool.or_true]
    rfl
  have hlt : Double.ofNat Factorial.maxExact < x ↔ Factorial.maxExact < n :=
    Double.ofNat_lt_iff (by decide) hfin hn
  rw [factorial_of_value hfin hn, guardedFactorial, if_neg h0, hbne, if_neg Bool.false_ne_true]
  by_cases hbig : Factorial.maxExact < n
  · have hwritten : Factorial.maxWritten < n := lt_trans (by decide) hbig
    rw [if_pos (hlt.2 hbig), if_pos hbig, ofNat_factorial_of_lt hwritten]
    exact ⟨rfl, rfl⟩
  · have hsafe : n ≤ Double.maxSafeNat := (Nat.not_lt.1 hbig).trans (by decide)
    rw [if_neg (hlt.not.2 hbig), Double.toSafeNat?_eq_some_iff.2 ⟨hfin, hn, hsafe⟩, if_neg hbig,
      ← Factorial.factorial_eq]
    exact ⟨rfl, rfl⟩

end

/-! ## The kinds of arguments -/

theorem infinity_cases {x : Float} (hnan : isNaN x = false) (hfin : ¬ isFinite x = true) :
    x = ofRank true infinityRank ∧ x < 0 ∨ x = ofRank false infinityRank ∧ ¬ x < 0 := by
  have hle : rank x ≤ infinityRank := Nat.not_lt.1 (of_decide_eq_false hnan)
  have hge : ¬ rank x < infinityRank := fun h => hfin (decide_eq_true h)
  have he := Double.ofRank_isNegative_rank hnan
  rw [le_antisymm hle (Nat.not_lt.1 hge)] at he
  cases hneg : isNegative x with
  | false =>
    rw [hneg] at he
    refine .inr ⟨he.symm, ?_⟩
    rw [← he, Double.infinity_lt_zero_iff]
    exact Bool.false_ne_true
  | true =>
    rw [hneg] at he
    refine .inl ⟨he.symm, ?_⟩
    rw [← he]
    exact (Double.infinity_lt_zero_iff true).2 rfl

theorem lt_zero_cases (x : Float) :
    x < 0 ↔ x = ofRank true infinityRank ∨ isFinite x = true ∧ value x < 0 := by
  by_cases hfin : isFinite x = true
  · have hne : x ≠ ofRank true infinityRank := by
      rintro rfl
      rw [Double.isFinite_infinity] at hfin
      cases hfin
    rw [Double.lt_zero_iff_value hfin]
    simp only [hne, hfin, true_and, false_or]
  · simp only [hfin, Bool.false_eq_true, false_and, or_false]
    constructor
    · intro h0
      have hnan : isNaN x = false := by
        rw [← Bool.not_eq_true]
        exact fun h => Double.not_lt_zero_of_isNaN h h0
      rcases infinity_cases hnan hfin with h | h
      · exact h.1
      · exact absurd h0 h.2
    · rintro rfl
      exact (Double.infinity_lt_zero_iff true).2 rfl

theorem argument_cases (x : Float) :
    x < 0 ∨ (¬ x < 0 ∧ (isNaN x = true ∨ isFinite x = true ∧ Double.isWhole (rank x) = false)) ∨
      x = ofRank false infinityRank ∨ ∃ n : ℕ, isFinite x = true ∧ value x = n := by
  by_cases h0 : x < 0
  · exact .inl h0
  refine .inr ?_
  by_cases hnan : isNaN x = true
  · exact .inl ⟨h0, .inl hnan⟩
  rw [Bool.not_eq_true] at hnan
  by_cases hfin : isFinite x = true
  · by_cases hwhole : Double.isWhole (rank x) = true
    · exact .inr (.inr ⟨_, hfin, Double.value_eq_wholePart hfin h0 hwhole⟩)
    · exact .inl ⟨h0, .inr ⟨hfin, Bool.eq_false_iff.2 hwhole⟩⟩
  · rcases infinity_cases hnan hfin with h | h
    · exact absurd h.2 h0
    · exact .inr (.inl h.1)

/-- A double with a fractional part is positive and equals no natural number. -/
theorem not_whole_iff {x : Float} (hfin : isFinite x = true) :
    ¬ x < 0 ∧ Double.isWhole (rank x) = false ↔ 0 < value x ∧ ∀ n : ℕ, value x ≠ n := by
  constructor
  · rintro ⟨h0, hwhole⟩
    have hn : ∀ n : ℕ, value x ≠ n := by
      intro n h
      rw [Double.isWhole_of_value hfin h] at hwhole
      exact Bool.noConfusion hwhole
    rw [Double.lt_zero_iff_value hfin, not_lt] at h0
    refine ⟨lt_of_le_of_ne h0 ?_, hn⟩
    intro h
    apply hn 0
    rw [← h, Nat.cast_zero]
  · rintro ⟨hpos, hn⟩
    have h0 : ¬ x < 0 := by
      rw [Double.lt_zero_iff_value hfin]
      exact not_lt.2 hpos.le
    refine ⟨h0, Bool.eq_false_iff.2 ?_⟩
    intro hwhole
    exact hn _ (Double.value_eq_wholePart hfin h0 hwhole)

theorem result_eq_negative_iff (x : Float) :
    (factorial x).result = .error (.negativeFactorial x) ↔ x < 0 := by
  constructor
  · intro h
    rcases argument_cases x with h0 | ⟨h0, hx⟩ | hx | ⟨n, hfin, hn⟩
    · exact h0
    · rw [(factorial_of_not_whole h0 hx).1] at h
      cases h
    · rw [(factorial_of_infinite hx).1] at h
      cases h
    · rw [(factorial_of_natural hfin hn).1] at h
      cases h
  · intro h0
    rw [(factorial_of_lt_zero h0).1]
    rfl

theorem result_eq_fractional_iff (x : Float) :
    (factorial x).result = .error (.fractionalFactorial x) ↔
      isNaN x = true ∨ isFinite x = true ∧ 0 < value x ∧ ∀ n : ℕ, value x ≠ n := by
  constructor
  · intro h
    rcases argument_cases x with h0 | ⟨h0, hx⟩ | hx | ⟨n, hfin, hn⟩
    · rw [(factorial_of_lt_zero h0).1] at h
      cases h
    · rcases hx with hnan | ⟨hfin, hwhole⟩
      · exact .inl hnan
      · exact .inr ⟨hfin, (not_whole_iff hfin).1 ⟨h0, hwhole⟩⟩
    · rw [(factorial_of_infinite hx).1] at h
      cases h
    · rw [(factorial_of_natural hfin hn).1] at h
      cases h
  · rintro (hnan | ⟨hfin, hx⟩)
    · rw [(factorial_of_not_whole (Double.not_lt_zero_of_isNaN hnan) (.inl hnan)).1]
      rfl
    · obtain ⟨h0, hwhole⟩ := (not_whole_iff hfin).2 hx
      rw [(factorial_of_not_whole h0 (.inr ⟨hfin, hwhole⟩)).1]
      rfl

theorem eq_of_result_eq_error {x : Float} {e : DomainError} (h : (factorial x).result = .error e) :
    e = .negativeFactorial x ∨ e = .fractionalFactorial x := by
  rcases argument_cases x with h0 | ⟨h0, hx⟩ | hx | ⟨n, hfin, hn⟩
  · rw [(factorial_of_lt_zero h0).1] at h
    cases h
    exact .inl rfl
  · rw [(factorial_of_not_whole h0 hx).1] at h
    cases h
    exact .inr rfl
  · rw [(factorial_of_infinite hx).1] at h
    cases h
  · rw [(factorial_of_natural hfin hn).1] at h
    cases h

theorem guardedFactorial_eq (x : Float) : guardedFactorial x = factorial x := by
  rcases argument_cases x with h0 | ⟨h0, hx⟩ | hx | ⟨n, hfin, hn⟩
  · exact (factorial_of_lt_zero h0).2
  · exact (factorial_of_not_whole h0 hx).2
  · exact (factorial_of_infinite hx).2
  · exact (factorial_of_natural hfin hn).2

theorem exists_toSafeNat?_eq {x : Float} (h0 : ¬ x < 0) (hfloor : (x != Double.floor x) = false)
    (hlt : ¬ Double.ofNat Factorial.maxExact < x) : ∃ n, Double.toSafeNat? x = some n := by
  rcases argument_cases x with hneg | ⟨_, hx⟩ | rfl | ⟨n, hfin, hn⟩
  · exact absurd hneg h0
  · rw [bne_floor_of_not_whole h0 hx] at hfloor
    exact Bool.noConfusion hfloor
  · exact absurd (Double.ofNat_lt_infinity (by decide)) hlt
  · rw [Double.ofNat_lt_iff (by decide) hfin hn, Nat.not_lt] at hlt
    exact ⟨n, Double.toSafeNat?_eq_some_iff.2 ⟨hfin, hn, hlt.trans (by decide)⟩⟩

/-- Just the doubles below zero are refused as negative, and just NaN and the positive doubles with
a fractional part as fractional. Infinity is its own factorial. That of a natural number is the
double nearest to the product, also where the product is not formed; and the last guard never
refuses what the ones before it let through. -/
theorem factorial_meaning (x : Float) :
    ((factorial x).result = .error (.negativeFactorial x) ↔ x < 0) ∧
      (x < 0 ↔ x = ofRank true infinityRank ∨ isFinite x = true ∧ value x < 0) ∧
      ((factorial x).result = .error (.fractionalFactorial x) ↔
        isNaN x = true ∨ isFinite x = true ∧ 0 < value x ∧ ∀ n : ℕ, value x ≠ n) ∧
      (∀ e, (factorial x).result = .error e →
        e = .negativeFactorial x ∨ e = .fractionalFactorial x) ∧
      (x = ofRank false infinityRank → (factorial x).result = .ok x) ∧
      (∀ n : ℕ, isFinite x = true → value x = n →
        (factorial x).result = .ok (Double.ofNat n !) ∧
          IsNearest (n ! : ℕ) (Double.ofNat n !)) ∧
      guardedFactorial x = factorial x ∧
      (¬ x < 0 → (x != Double.floor x) = false → ¬ Double.ofNat Factorial.maxExact < x →
        ∃ n, Double.toSafeNat? x = some n) := by
  refine ⟨result_eq_negative_iff x, lt_zero_cases x, result_eq_fractional_iff x, ?_, ?_, ?_,
    guardedFactorial_eq x, exists_toSafeNat?_eq⟩
  · intro e
    exact eq_of_result_eq_error
  · intro hx
    rw [(factorial_of_infinite hx).1]
  · intro n hfin hn
    exact ⟨(factorial_of_natural hfin hn).1, isNearest_ofNat _⟩

end Builtin

end LineCalculator
