import LineCalculator.Double.Rank
/-! # The double nearest to a ratio

* `roundHalfEven num den`: the whole number nearest to `num / den`, of two equally near the even
  one.
* `nearestRank num den`: the rank of the magnitude nearest to `num / den`, of two equally near the
  one with the even significand, infinity from half a step above the largest finite magnitude on.
* `nearest`, `ofNat`: the same as doubles.
-/

namespace LineCalculator.Double
set_option autoImplicit false

attribute [local instance] powNat

/-- The whole number nearest to `num / den`; a tie goes to the even neighbour. -/
def roundHalfEven (num den : Nat) : Nat :=
  let whole := num / den
  let left := num % den
  if 2 * left < den then whole
  else if den < 2 * left then whole + 1
  else whole + whole % 2

/-- The rank nearest to `num / den`. The ratio in units has `53 + step` binary digits before the
point when it is at least `2 ^ 52`; rounding it to 53 digits gives the significand, and a
significand that rounds up to `2 ^ 53` is carried into the next binade by the addition. -/
def nearestRank (num den : Nat) : Nat :=
  let scaled := num * one
  let step := (scaled / den).log2 - 52
  min infinityRank (step * 2 ^ (52 : Nat) + roundHalfEven scaled (den * 2 ^ step))

/-- The non-negative double nearest to `num / den`. -/
def nearest (num den : Nat) : Float := ofRank false (nearestRank num den)

/-- The double nearest to a natural number. -/
def ofNat (n : Nat) : Float := nearest n 1

end LineCalculator.Double
