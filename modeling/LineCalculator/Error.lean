/-! # Errors

* `DomainError`: an argument that a function refuses.
* `ExpressionError`: what is wrong with the text of an expression. Positions are byte offsets, in
  UTF-8, into the text that was read, which is the one after substitution.
* `LineError`: what a line reports, with its `kind` and its `cause`.
-/

namespace LineCalculator
set_option autoImplicit false

/-- An argument outside the domain of a function. -/
inductive DomainError where
  | negativeFactorial (value : Float)
  | fractionalFactorial (value : Float)
deriving DecidableEq, Repr

def DomainError.message : DomainError → String
  | .negativeFactorial _ | .fractionalFactorial _ =>
    "Factorial is only defined for non-negative integers."

/-- Why an expression has no value. -/
inductive ExpressionError where
  /-- A character that starts no operand stands where one is due. -/
  | unexpectedCharacter (ch : Char) (position : Nat)
  /-- The text ends where an operand is due. -/
  | unexpectedEnd (position : Nat)
  /-- A parenthesis is open and what follows its contents does not close it. -/
  | missingParenthesis (position : Nat)
  /-- A run of digits and points that is no numeral. -/
  | malformedNumeral (literal : String) (position : Nat)
  /-- A lowercase word that is neither a function nor bound. -/
  | unknownName (name : String) (position : Nat)
  /-- The expression is complete and the text goes on. -/
  | trailingInput (ch : Char) (position : Nat)
  /-- Too many operands are open at once. -/
  | nestedTooDeeply (position : Nat)
  /-- A bound name could not be looked for in the text. -/
  | unsubstituted (name : String)
  /-- A function refused its argument. -/
  | domain (error : DomainError)
deriving DecidableEq, Repr

namespace ExpressionError

def message : ExpressionError → String
  | unexpectedCharacter ch position => s!"Unexpected - {ch} (at {position})"
  | unexpectedEnd position => s!"Unexpected end of input (at {position})"
  | missingParenthesis position => s!"Missing ')' (at {position})"
  | malformedNumeral literal position => s!"Malformed number - {literal} (at {position})"
  | unknownName name _ => s!"Unknown function or variable - {name}"
  | trailingInput ch position => s!"Unexpected - {ch} after end of expression (at {position})"
  | nestedTooDeeply position => s!"Expression nested too deeply (at {position})"
  | unsubstituted name => s!"Could not substitute variable - {name}"
  | domain error => error.message

/-- The message of the error underneath, if there is one. -/
def source : ExpressionError → Option String
  | domain error => some error.message
  | _ => none

end ExpressionError

/-- The coarse classes of errors. -/
inductive ErrorKind where
  /-- The text is not a well-formed expression. -/
  | malformed
  /-- A word is neither a function nor bound. -/
  | unknownName
  /-- A function refused its argument. -/
  | domain
  /-- The line is not a well-formed assignment. -/
  | assignment
deriving DecidableEq, Repr

/-- The error that a line reports. -/
inductive LineError where
  /-- The expression, as it was before substitution, has no value. -/
  | invalidExpression (expression : String) (cause : ExpressionError)
  /-- A function refused its argument. -/
  | domain (error : DomainError)
  /-- The line has no equals sign. -/
  | invalidAssignment (line : String)
  /-- What is to be bound is not a name. -/
  | invalidName (name : String)
deriving DecidableEq, Repr

namespace LineError

/-- The error of an expression as the error of its line: a refused argument keeps its own message,
anything else only repeats the expression. -/
def ofExpression (expression : String) : ExpressionError → LineError
  | .domain error => domain error
  | cause => invalidExpression expression cause

def kind : LineError → ErrorKind
  | invalidExpression _ (.unknownName ..) => .unknownName
  | invalidExpression _ (.domain _) | domain _ => .domain
  | invalidExpression .. => .malformed
  | invalidAssignment _ | invalidName _ => .assignment

def message : LineError → String
  | invalidExpression expression _ => s!"Invalid expression - {expression}"
  | domain error => error.message
  | invalidAssignment _ => "Invalid assignment syntax."
  | invalidName _ => "Invalid variable name."

/-- Why the expression has no value. -/
def cause : LineError → Option ExpressionError
  | invalidExpression _ cause => some cause
  | _ => none

/-- The message of the error underneath, if there is one. -/
def source : LineError → Option String
  | invalidExpression _ cause => some cause.message
  | domain error => some error.message
  | _ => none

end LineError

end LineCalculator
