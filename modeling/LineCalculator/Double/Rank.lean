/-! # Doubles as ranked magnitudes

Every finite double is a sign and a natural number of units, one unit being `2 ^ -1074`, the
smallest positive double. The magnitudes in ascending order are numbered by their rank, which is
the bit pattern without the sign.

* `rank x`, `isNegative x`: the two parts of a double; `ofRank` puts them together.
* `units r`: the magnitude of rank `r`, exactly, in units.
* `places`, `one`: the binary places of a unit, and the number of units of 1.
* `infinityRank`: the rank of infinity; the ranks above it are those of NaN.
-/

namespace LineCalculator.Double
set_option autoImplicit false

/-- The powers of core Lean, which the definitions use whatever else is imported. -/
abbrev powNat : Pow Nat Nat := instPowNat

attribute [local instance] powNat

/-- The number of binary places of the smallest positive double. -/
def places : Nat := 1074

/-- The number of units of 1. -/
def one : Nat := 2 ^ places

theorem one_pos : 0 < one := Nat.two_pow_pos places

/-- The rank of infinity, one above the rank of the largest finite magnitude. -/
def infinityRank : Nat := 2047 * 2 ^ (52 : Nat)

/-- Whether the sign bit is set; `-0.0` is negative in this sense. -/
def isNegative (x : Float) : Bool := 2 ^ (63 : Nat) ≤ x.toBits.toNat

/-- The place of the magnitude among all magnitudes, zero being the place of zero. -/
def rank (x : Float) : Nat := x.toBits.toNat % 2 ^ (63 : Nat)

/-- The double with the given sign and rank. -/
def ofRank (negative : Bool) (r : Nat) : Float :=
  Float.ofBits (UInt64.ofNat (if negative then 2 ^ (63 : Nat) + r else r))

def isFinite (x : Float) : Bool := rank x < infinityRank

def isInfinite (x : Float) : Bool := rank x = infinityRank

def isNaN (x : Float) : Bool := infinityRank < rank x

/-! ## The value of a rank -/

/-- The significand: 52 stored bits, and a leading one above the lowest binade. -/
def significand (r : Nat) : Nat :=
  if r < 2 ^ (52 : Nat) then r else 2 ^ (52 : Nat) + r % 2 ^ (52 : Nat)

/-- The power of two, in units, that the significand is scaled by. -/
def shift (r : Nat) : Nat := r / 2 ^ (52 : Nat) - 1

/-- The magnitude of rank `r` in units. At `infinityRank` it is `2 ^ 1024`, where the next
magnitude would be if the range went on. -/
def units (r : Nat) : Nat := significand r * 2 ^ shift r

@[simp] theorem units_zero : units 0 = 0 := by decide

theorem units_of_lt {r : Nat} (h : r < 2 ^ (52 : Nat)) : units r = r := by
  have h0 : r / 2 ^ (52 : Nat) = 0 := Nat.div_eq_of_lt h
  rw [units, significand, shift, if_pos h, h0, Nat.zero_sub, Nat.pow_zero, Nat.mul_one]

end LineCalculator.Double
