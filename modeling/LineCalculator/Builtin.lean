import LineCalculator.Event
/-! # Built-in functions

* `Builtin`: the functions that an expression may apply, each to one argument.
* `Builtin.all`, `Builtin.name`, `Builtin.ofName?`: their order and their names.
* `Builtin.apply`: their values. Only the factorial refuses arguments or reports events; outside
  of their domains the others give NaN or an infinity.
-/

namespace LineCalculator
set_option autoImplicit false

inductive Builtin where
  | sqrt
  | sin
  | cos
  | tan
  | sinh
  | cosh
  | tanh
  /-- The logarithm to base ten. -/
  | log
  /-- The natural logarithm. -/
  | ln
  /-- The factorial. -/
  | fact
  | abs
  | ceil
  | floor
deriving DecidableEq, Repr

namespace Builtin

/-- All functions, in the order in which they are listed. -/
def all : List Builtin :=
  [sqrt, sin, cos, tan, sinh, cosh, tanh, log, ln, fact, abs, ceil, floor]

def name : Builtin → String
  | sqrt => "sqrt"
  | sin => "sin"
  | cos => "cos"
  | tan => "tan"
  | sinh => "sinh"
  | cosh => "cosh"
  | tanh => "tanh"
  | log => "log"
  | ln => "ln"
  | fact => "fact"
  | abs => "abs"
  | ceil => "ceil"
  | floor => "floor"

/-- The function of that name. -/
def ofName? (name : String) : Option Builtin := all.find? fun f => f.name = name

/-- How many radians a degree has. -/
def radiansPerDegree : Float := 0.017453292519943295

/-- The factorial of a double. A negative argument is refused, and so is one that is not whole.
Above `Factorial.maxExact` the product is not formed, since its double is infinite. -/
def factorial (x : Float) : Logged DomainError Float :=
  if x < 0 then .error (.negativeFactorial x)
  else if x = Double.ofRank false Double.infinityRank then ⟨[.hugeFactorial x], .ok x⟩
  else
    match Double.toNat? x with
    | none => .error (.fractionalFactorial x)
    | some n =>
      if Factorial.maxExact < n then
        ⟨[.hugeFactorial x], .ok (Double.ofRank false Double.infinityRank)⟩
      else
        let exact := Factorial.factorial n
        ⟨[.factorial n exact], .ok (Double.ofNat exact)⟩

/-- The value of a function. Angles are in degrees. -/
def apply : Builtin → Float → Logged DomainError Float
  | sqrt, x => .value x.sqrt
  | sin, x => .value (x * radiansPerDegree).sin
  | cos, x => .value (x * radiansPerDegree).cos
  | tan, x => .value (x * radiansPerDegree).tan
  | sinh, x => .value x.sinh
  | cosh, x => .value x.cosh
  | tanh, x => .value x.tanh
  | log, x => .value x.log10
  | ln, x => .value x.log
  | fact, x => factorial x
  | abs, x => .value x.abs
  | ceil, x => .value (Double.ceil x)
  | floor, x => .value (Double.floor x)

end Builtin

end LineCalculator
