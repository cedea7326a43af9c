import LineCalculator.Decimal.Shortest
/-! # Written doubles

A double is written with the digits of its shortest decimal. Two layouts are in use:

* `Layout.plain`: always positional, whole numbers without a point. Values are written so where
  they are put into an expression, and in the log.
* `Layout.pointed`: positional from `10 ^ -4` to below `10 ^ 16`, always with a point; in
  scientific form beyond. Answers are written so.
-/

namespace LineCalculator
set_option autoImplicit false

namespace Decimal

/-- The digits of the coefficient. -/
def digits (d : Decimal) : List Char := Nat.toDigits 10 d.coefficient

/-- The power of ten of the first digit. -/
def leading (d : Decimal) : Int := d.digits.length + d.exponent - 1

end Decimal

/-- How a decimal is laid out. -/
structure Layout where
  /-- The powers of ten of the first digit, from the first to below the second, for which the
  decimal is positional; all of them when absent. -/
  positional : Option (Int × Int)
  /-- What follows a positional whole number. -/
  wholeTail : List Char

namespace Layout

/-- Positional, a whole number without a point. -/
def plain : Layout := ⟨none, []⟩

/-- Positional from `10 ^ -4` to below `10 ^ 16`, with a digit on each side of the point. -/
def pointed : Layout := ⟨some (-4, 16), ['.', '0']⟩

/-- All digits in their places. -/
def writePositional (l : Layout) (d : Decimal) : List Char :=
  let digits := d.digits
  if 0 ≤ d.exponent then
    digits ++ List.replicate d.exponent.toNat '0' ++ l.wholeTail
  else
    let places := (-d.exponent).toNat
    if places < digits.length then
      digits.take (digits.length - places) ++ '.' :: digits.drop (digits.length - places)
    else
      '0' :: '.' :: (List.replicate (places - digits.length) '0' ++ digits)

/-- The first digit, a point and the other digits if there are any, and the power of ten of the
first digit. -/
def writeScientific (d : Decimal) : List Char :=
  let mantissa := match d.digits with
    | first :: second :: more => first :: '.' :: second :: more
    | digits => digits
  mantissa ++ 'e' :: (toString d.leading).toList

def isPositional (l : Layout) (d : Decimal) : Bool :=
  match l.positional with
  | none => true
  | some (low, high) => low ≤ d.leading && d.leading < high

/-- A decimal in this layout. -/
def writeDecimal (l : Layout) (d : Decimal) : List Char :=
  if l.isPositional d then l.writePositional d else writeScientific d

/-- A double in this layout: a sign if it is negative, zero included, and the shortest decimal.
NaN has no sign. -/
def write (l : Layout) (x : Float) : List Char :=
  if Double.isNaN x then ['N', 'a', 'N']
  else
    let magnitude :=
      if Double.isFinite x then l.writeDecimal (Decimal.shortest (Double.rank x))
      else ['i', 'n', 'f']
    if Double.isNegative x then '-' :: magnitude else magnitude

/-- The written double as a string. -/
def text (l : Layout) (x : Float) : String := String.ofList (l.write x)

end Layout

end LineCalculator
