import LineCalculator.Expression.Reading
import LineCalculator.Substitution
/-! # Evaluation

* `evaluate env expression`: the value of an expression, the bound names in it replaced first.
-/

namespace LineCalculator
set_option autoImplicit false

/-- The value of an expression. An error tells the expression as it was before substitution. -/
def evaluate [Substitution.PatternCompiler] (env : Environment) (expression : String) :
    Logged LineError Float :=
  ((Substitution.search env expression.toList).bind fun text =>
    (Expression.read env text).after (.evaluating (String.ofList text))).mapError
      (LineError.ofExpression expression)

end LineCalculator
