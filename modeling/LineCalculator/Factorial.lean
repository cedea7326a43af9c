import LineCalculator.Double.Integral
/-! # Factorials

* `factorial n`: the exact product.
* `summary n exact`: how a factorial is reported, with all its digits while its double is finite,
  by its size beyond.
* `maxWritten`, `maxExact`: up to which argument the digits are reported, and the product is
  formed at all.
-/

namespace LineCalculator.Factorial
set_option autoImplicit false

/-- The largest argument whose factorial is computed exactly. -/
def maxExact : Nat := 10000

/-- The largest argument whose factorial is reported digit by digit, which is the largest one with
a finite double. -/
def maxWritten : Nat := 170

/-- The product of the numbers from 1 to `n`. -/
def factorial : Nat → Nat
  | 0 => 1
  | n + 1 => (n + 1) * factorial n

theorem factorial_pos (n : Nat) : 0 < factorial n := by
  induction n with
  | zero => exact Nat.one_pos
  | succ n ih => exact Nat.mul_pos n.succ_pos ih

/-- The number of binary digits, none for zero. -/
def bitLength (n : Nat) : Nat := if n = 0 then 0 else n.log2 + 1

/-- The report of `exact` as the factorial of `n`. -/
def summary (n exact : Nat) : String :=
  if n ≤ maxWritten then toString exact else s!"{bitLength exact}-bit integer"

end LineCalculator.Factorial
