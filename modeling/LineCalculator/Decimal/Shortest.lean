import LineCalculator.Decimal.Numeral
/-! # The shortest decimal of a double

The decimal with the fewest digits among those that are read back as the same double, and of
those the nearest to its value.

Every double is a natural multiple of `10 ^ -1074`, since `2 ^ -1074 = 5 ^ 1074 * 10 ^ -1074`. So
the double, the two ends of the interval of reals that round to it, and the points of each decimal
grid are all natural numbers on one scale, here of half that size so that the ends are whole too.

* `Interval`: a magnitude with the ends of its rounding interval.
* `Interval.onGrid?`: the better one of the magnitude's two neighbours on a decimal grid, if one
  of them lies in the interval.
* `shortest r`: the point found on the coarsest grid that has one.
-/

namespace LineCalculator.Decimal
set_option autoImplicit false

attribute [local instance] Double.powNat

/-- A magnitude and the ends of the interval that rounds to it, in steps of `10 ^ -1074 / 2`. -/
structure Interval where
  low : Nat
  value : Nat
  high : Nat
  /-- Whether the ends themselves round to the magnitude. -/
  closed : Bool

namespace Interval

/-- The rounding interval of the magnitude of rank `r`: its ends lie half way to the neighbouring
magnitudes, and they belong to it when its significand is even. -/
def ofRank (r : Nat) : Interval where
  low := (Double.units (r - 1) + Double.units r) * 5 ^ Double.places
  value := 2 * Double.units r * 5 ^ Double.places
  high := (Double.units r + Double.units (r + 1)) * 5 ^ Double.places
  closed := r % 2 = 0

def contains (i : Interval) (v : Nat) : Bool :=
  if i.closed then i.low ≤ v && v ≤ i.high else i.low < v && v < i.high

/-- The coefficient, on the grid of multiples of `10 ^ (t - 1074)`, of the neighbour of the
magnitude that lies in the interval. Of two that do, the nearer one, and the upper one if they are
equally near. -/
def onGrid? (i : Interval) (t : Nat) : Option Nat :=
  let step := 2 * 10 ^ t
  let below := i.value / step
  let above := below + 1
  match i.contains (below * step), i.contains (above * step) with
  | false, false => none
  | true, false => some below
  | false, true => some above
  | true, true =>
    if i.value - below * step < above * step - i.value then some below else some above

/-- The first point found when the grid gets finer, from `10 ^ (t - 1074)` down. The finest grid
holds the magnitude itself. -/
def coarsest (i : Interval) : Nat → Decimal
  | 0 => ⟨i.value / 2, -Double.places⟩
  | t + 1 =>
    match i.onGrid? (t + 1) with
    | some d => ⟨d, (t + 1 : Nat) - Double.places⟩
    | none => i.coarsest t

/-- No fewer than the number of decimal digits of `n`, and at most one more. -/
def digitBound (n : Nat) : Nat := (n.log2 + 1) * 30103 / 100000 + 1

end Interval

/-- The shortest decimal of the magnitude of rank `r`. -/
def shortest (r : Nat) : Decimal :=
  if r = 0 then ⟨0, 0⟩
  else
    let i := Interval.ofRank r
    i.coarsest (Interval.digitBound i.value)

end LineCalculator.Decimal
