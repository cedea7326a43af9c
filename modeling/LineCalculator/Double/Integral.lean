import LineCalculator.Double.Nearest
/-! # Whole numbers among the doubles

* `floor`, `ceil`: the nearest whole double below and above; infinities and NaN stay as they are.
* `toNat?`: the natural number that a double equals, `-0.0` being 0.
* `toSafeNat?`: the same, up to the largest number below which every whole number is a double.
-/

namespace LineCalculator.Double
set_option autoImplicit false

attribute [local instance] powNat

/-- The largest whole number such that it and its successor are doubles that no other whole number
rounds to. -/
def maxSafeNat : Nat := 2 ^ (53 : Nat) - 1

/-- Whether the magnitude of rank `r` is a whole number. -/
def isWhole (r : Nat) : Bool := units r % one = 0

/-- The whole part of the magnitude of rank `r`. -/
def wholePart (r : Nat) : Nat := units r / one

/-- The nearest whole double that is not above `x`. -/
def floor (x : Float) : Float :=
  let r := rank x
  if !isFinite x || isWhole r then x
  else if isNegative x then ofRank true (nearestRank (wholePart r + 1) 1)
  else ofNat (wholePart r)

/-- The nearest whole double that is not below `x`. -/
def ceil (x : Float) : Float :=
  let r := rank x
  if !isFinite x || isWhole r then x
  else if isNegative x then ofRank true (nearestRank (wholePart r) 1)
  else ofNat (wholePart r + 1)

/-- The natural number that `x` equals. -/
def toNat? (x : Float) : Option Nat :=
  let r := rank x
  if isFinite x && (!isNegative x || r = 0) && isWhole r then some (wholePart r) else none

/-- The natural number that `x` equals, if it is at most `maxSafeNat`. -/
def toSafeNat? (x : Float) : Option Nat := (toNat? x).filter (· ≤ maxSafeNat)

end LineCalculator.Double
