/-! # Ranges of characters

A property of characters is given by closed ranges of code points.

* `inRanges`: whether a character lies in one of the ranges.
-/

namespace LineCalculator.Text
set_option autoImplicit false

def inRanges (ranges : List (Nat × Nat)) (c : Char) : Bool :=
  ranges.any fun r => r.1 ≤ c.toNat && c.toNat ≤ r.2

end LineCalculator.Text
