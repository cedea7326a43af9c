/-! # Operators

The two signs, which also add and subtract, and the two operators that bind tighter.
-/

namespace LineCalculator.Expression
set_option autoImplicit false

/-- A sign: in front of an operand, or between the terms of a sum. -/
inductive Sign where
  | plus
  | minus
deriving DecidableEq, Repr

namespace Sign

/-- The operand with the sign in front. -/
def ofOperand : Sign → Float → Float
  | plus, x => x
  | minus, x => -x

/-- The sum or difference. -/
def combine : Sign → Float → Float → Float
  | plus, x, y => x + y
  | minus, x, y => x - y

end Sign

/-- An operator between the factors of a term. -/
inductive Scale where
  | times
  | over
deriving DecidableEq, Repr

/-- The product or quotient. -/
def Scale.combine : Scale → Float → Float → Float
  | times, x, y => x * y
  | .over, x, y => x / y

end LineCalculator.Expression
