import LineCalculator.Proofs.Double.Monotone
import LineCalculator.Proofs.Factorial
/-! # The report of a factorial

The digits of a factorial are reported just where its double is finite. Beyond it is reported by
its length, which is longer than that of every finite double, and the value is infinite.

* `SpellsOut text n`: the text is the decimal numeral of a number.
* `bitLength_spec`: the length of a number in binary.
* `isFinite_factorial_iff`: up to where factorials have a finite double.
* `isFinite_result_iff`: the values that the log accounts for with all their digits.
* `report_complete_iff_finite`: what is reported, and that the value is finite just where it is
  complete.
-/

namespace LineCalculator
set_option autoImplicit false
open Double (overflowThreshold infinityRank ofRank isFinite value)
open scoped Nat

/-! ## Numerals -/

/-- The text is the decimal numeral of the number. A zero leads only if it is the numeral. -/
structure SpellsOut (text : List Char) (n : Nat) : Prop where
  nonempty : text ≠ []
  digits : ∀ c ∈ text, c.isDigit = true
  value : Decimal.ofDigits text = n
  leading : 2 ≤ text.length → text.head? ≠ some '0'

theorem head?_toDigits_ne {n : Nat} (h : 0 < n) : (Nat.toDigits 10 n).head? ≠ some '0' := by
  induction n using Nat.strongRecOn with
  | ind n ih =>
    by_cases hn : n < 10
    · rw [Nat.toDigits_of_lt_base hn, List.head?_cons, Ne, Option.some_inj, Nat.digitChar_eq_zero]
      omega
    · rw [Nat.toDigits_of_base_le (by decide) (by omega),
        List.head?_append_of_ne_nil _ Nat.toDigits_ne_nil]
      exact ih (n / 10) (by omega) (by omega)

theorem spellsOut_toString (n : Nat) : SpellsOut (toString n).toList n := by
  rw [Nat.toString_eq_repr, Nat.toList_repr]
  refine ⟨Nat.toDigits_ne_nil, ?_, Nat.ofDigitChars_ten_toDigits, ?_⟩
  · intro c hc
    exact Nat.isDigit_of_mem_toDigits (by decide) (by decide) hc
  · intro hlen
    apply head?_toDigits_ne
    by_contra h0
    rw [Nat.eq_zero_of_not_pos h0, Nat.toDigits_of_lt_base (by decide)] at hlen
    simp at hlen

/-! ## Lengths -/

namespace Factorial

theorem bitLength_spec {n : Nat} (h : 0 < n) :
    2 ^ (bitLength n - 1) ≤ n ∧ n < 2 ^ bitLength n := by
  rw [bitLength, if_neg h.ne', Nat.add_sub_cancel]
  exact ⟨Nat.log2_self_le h.ne', Nat.lt_log2_self⟩

theorem lt_bitLength {n k : Nat} (h : 2 ^ k ≤ n) : k < bitLength n := by
  have hpos : 0 < n := (Nat.two_pow_pos k).trans_le h
  rw [bitLength, if_neg hpos.ne']
  exact Nat.lt_succ_of_le (Double.le_log2_of_two_pow_le h)

theorem summary_of_le {n : Nat} (h : n ≤ maxWritten) : summary n n ! = toString n ! := if_pos h

theorem summary_of_lt {n : Nat} (h : maxWritten < n) :
    summary n n ! = toString (bitLength n !) ++ "-bit integer" :=
  if_neg (Nat.not_le.2 h)

theorem two_pow_le_factorial {n : Nat} (h : maxWritten < n) : 2 ^ 1024 ≤ n ! := by
  have h171 : 2 ^ 1024 ≤ 171 ! := by decide +kernel
  exact h171.trans (Nat.factorial_le h)

theorem factorial_lt_overflowThreshold {n : Nat} (h : n ≤ maxWritten) : n ! < overflowThreshold := by
  have h170 : 170 ! < overflowThreshold := by decide +kernel
  exact (Nat.factorial_le h).trans_lt h170

theorem isFinite_factorial_iff {n : Nat} : isFinite (Double.ofNat n !) = true ↔ n ≤ maxWritten := by
  rw [Double.isFinite_ofNat_iff]
  constructor
  · intro h
    by_contra hn
    exact absurd (overflowThreshold_le_factorial (Nat.not_le.1 hn)) (Nat.not_le.2 h)
  · exact factorial_lt_overflowThreshold

end Factorial

/-! ## Values and their reports -/

namespace Builtin
variable {x v : Float} {n exact : Nat}

/-- A factorial is reported exactly where its product is formed. -/
theorem factorial_of_report (h : .factorial n exact ∈ (factorial x).events) :
    exact = n ! ∧ (factorial x).result = .ok (Double.ofNat n !) := by
  rcases argument_cases x with h0 | ⟨h0, hx⟩ | hx | ⟨m, hfin, hm⟩
  · rw [(factorial_of_lt_zero h0).1] at h
    cases h
  · rw [(factorial_of_not_whole h0 hx).1] at h
    cases h
  · rw [(factorial_of_infinite hx).1] at h
    simp at h
  · rw [factorial_of_value hfin hm] at h ⊢
    split at h
    · simp at h
    · rename_i hle
      rw [if_neg hle]
      simp at h
      obtain ⟨rfl, rfl⟩ := h
      exact ⟨rfl, rfl⟩

/-- A value is finite just where its digits are reported. -/
theorem isFinite_result_iff (h : (factorial x).result = .ok v) : isFinite v = true ↔
    ∃ n ≤ Factorial.maxWritten, (factorial x).events = [.factorial n n !] := by
  rcases argument_cases x with h0 | ⟨h0, hx⟩ | hx | ⟨m, hfin, hm⟩
  · rw [(factorial_of_lt_zero h0).1] at h
    cases h
  · rw [(factorial_of_not_whole h0 hx).1] at h
    cases h
  · rw [(factorial_of_infinite hx).1] at h ⊢
    cases h
    rw [hx, Double.isFinite_infinity]
    simp
  · rw [(factorial_of_natural hfin hm).1] at h
    cases h
    rw [Factorial.isFinite_factorial_iff, factorial_of_value hfin hm]
    constructor
    · intro hle
      have hformed : ¬ Factorial.maxExact < m := fun hlt =>
        absurd (lt_trans (by decide : Factorial.maxWritten < Factorial.maxExact) hlt)
          (Nat.not_lt.2 hle)
      rw [if_neg hformed]
      exact ⟨m, hle, rfl⟩
    · rintro ⟨n, hle, he⟩
      split at he
      · simp at he
      · simp at he
        exact he.1 ▸ hle

/-- A factorial has a finite double just up to `Factorial.maxWritten`, and just up to there its
report is its numeral; the report of a greater one tells its length, which is more than 1024 binary
digits. The doubles of factorials are in the order of their arguments. Where an application reports
a factorial without its digits, its value is infinite, and its value is finite just where all that
it reports is a factorial with its digits. -/
theorem report_complete_iff_finite :
    (∀ n : ℕ, (isFinite (Double.ofNat (Factorial.factorial n)) = true ↔ n ≤ Factorial.maxWritten) ∧
      (n ≤ Factorial.maxWritten →
        SpellsOut (Factorial.summary n (Factorial.factorial n)).toList n !) ∧
      (Factorial.maxWritten < n → ∃ b : ℕ,
        Factorial.summary n (Factorial.factorial n) = toString b ++ "-bit integer" ∧
          2 ^ (b - 1) ≤ n ! ∧ n ! < 2 ^ b ∧ 1024 < b)) ∧
      (∀ m n : ℕ, m ≤ n →
        Double.ofNat (Factorial.factorial m) ≤ Double.ofNat (Factorial.factorial n)) ∧
      (∀ (x : Float) (n exact : ℕ), .factorial n exact ∈ (factorial x).events →
        Factorial.maxWritten < n → (factorial x).result = .ok (ofRank false infinityRank)) ∧
      ∀ x v : Float, (factorial x).result = .ok v → (isFinite v = true ↔
        ∃ n ≤ Factorial.maxWritten, (factorial x).events = [.factorial n n !]) := by
  refine ⟨fun n => ?_, fun m n h => ?_, fun x n exact hreport h => ?_,
    fun x v => isFinite_result_iff⟩
  · rw [Factorial.factorial_eq]
    refine ⟨Factorial.isFinite_factorial_iff, fun h => ?_, fun h => ?_⟩
    · rw [Factorial.summary_of_le h]
      exact spellsOut_toString n !
    · obtain ⟨hlow, hhigh⟩ := Factorial.bitLength_spec (Nat.factorial_pos n)
      exact ⟨Factorial.bitLength n !, Factorial.summary_of_lt h, hlow, hhigh,
        Factorial.lt_bitLength (Factorial.two_pow_le_factorial h)⟩
  · rw [Factorial.factorial_eq, Factorial.factorial_eq]
    exact Double.ofNat_le_ofNat (Nat.factorial_le h)
  · rw [(factorial_of_report hreport).2, ofNat_factorial_of_lt h]

end Builtin

end LineCalculator
