import LineCalculator.Double.Nearest
/-! # Decimals and numerals

* `Decimal`: a coefficient and a power of ten.
* `Decimal.toFloat`: the nearest double.
* `Decimal.read?`: the decimal that a run of digits and points denotes. Such a run is a numeral
  when it has a digit and at most one point; digits may be missing on one side of the point.
-/

namespace LineCalculator
set_option autoImplicit false

attribute [local instance] Double.powNat

/-- The number `coefficient * 10 ^ exponent`. -/
structure Decimal where
  coefficient : Nat
  exponent : Int
deriving DecidableEq, Repr

namespace Decimal

/-- The double nearest to the decimal, ties to even, infinity when it is too large. -/
def toFloat (d : Decimal) : Float :=
  Double.nearest (d.coefficient * 10 ^ d.exponent.toNat) (10 ^ (-d.exponent).toNat)

/-- The value of a decimal digit. -/
def digitValue (c : Char) : Nat := c.toNat - '0'.toNat

/-- The number that a row of digits denotes. -/
def ofDigits (digits : List Char) : Nat :=
  digits.foldl (fun n c => 10 * n + digitValue c) 0

/-- The characters of a numeral. -/
def isNumeralChar (c : Char) : Bool := c.isDigit || c = '.'

/-- Reads a numeral; nothing if the run is none. -/
def read? (run : List Char) : Option Decimal :=
  let whole := run.takeWhile Char.isDigit
  match run.dropWhile Char.isDigit with
  | [] => if whole = [] then none else some ⟨ofDigits whole, 0⟩
  | c :: fraction =>
    if c = '.' ∧ fraction.all Char.isDigit ∧ whole ++ fraction ≠ [] then
      some ⟨ofDigits (whole ++ fraction), -(fraction.length : Int)⟩
    else none

end Decimal

end LineCalculator
