import LineCalculator.Assignment
/-! # Sessions

A session answers one line after the other. It keeps nothing but the bindings.

* `Reply`: what a line produced; `Reply.display` is its text.
* `respond env line`: handles a line as a command, an assignment or an expression.
-/

namespace LineCalculator
set_option autoImplicit false

/-- What a line produced. -/
inductive Reply where
  /-- The value of an expression. -/
  | value (x : Float)
  /-- A name was bound. -/
  | assigned (name : String) (value : Float)
  /-- The instructions were asked for. -/
  | help
  /-- The bindings were asked for. -/
  | bindings (bindings : List Binding)
  /-- The line was blank. -/
  | empty
  /-- The end was asked for. -/
  | exit
deriving DecidableEq, Repr

namespace Reply

/-- The instructions, but for the list of functions. -/
def helpText : String := "\n".intercalate [
  "=== Bored Calculator -- Help ===",
  "1. Basic Arithmetic: Use +, -, *, /, and parentheses.",
  "   Example: 3 + 5 * (2 - 1)",
  "2. Variables: Assign values with '=', and use them in calculations.",
  "   Example: x = 5, y = 10, x + y * 2",
  "3. Built-in Constants: PI, E, G (gravitational constant).",
  "4. Functions take the factor right after them: sqrt 16 + 1 is sqrt(16) + 1.",
  "   - Trigonometry (degrees): sin(x), cos(x), tan(x)",
  "   - Hyperbolic: sinh(x), cosh(x), tanh(x)",
  "   - Logarithms: log(x) (base 10), ln(x) (natural log)",
  "   - Factorials: fact(x)",
  "   - Miscellaneous: sqrt(x), abs(x), ceil(x), floor(x)",
  "5. Commands: 'help' for instructions, ':vars' to list variables, 'exit' to quit."]

/-- A line of the list of bindings. -/
def bindingLine (b : Binding) : String := b.1 ++ " = " ++ Layout.pointed.text b.2

def display : Reply → String
  | value x => "Result > " ++ Layout.pointed.text x
  | assigned name x => "Assigned - " ++ bindingLine (name, x)
  | help => helpText ++ "\n   Available: " ++ ", ".intercalate (Builtin.all.map Builtin.name)
  | bindings bs => "\n".intercalate (bs.map bindingLine)
  | empty => ""
  | exit => "Exiting..."

end Reply

/-- Whether a text is a command, written in ASCII letters of either case. -/
def isCommand (command : String) (text : List Char) : Bool :=
  text.map Char.toLower = command.toList

section
variable [Substitution.PatternCompiler]

/-- Handles a line without blanks at its ends: the commands first, then blank lines, then
assignments, which are all lines with an equals sign; anything else is an expression. -/
def respondTrimmed (env : Environment) (text : List Char) : Step Reply :=
  if isCommand "exit" text then .value env .exit
  else if isCommand "help" text then .value env .help
  else if isCommand ":vars" text then .value env (.bindings env.bindings)
  else if text = [] then .value env .empty
  else if '=' ∈ text then (assign env (String.ofList text)).map fun b => .assigned b.1 b.2
  else (Step.ofLogged env (evaluate env (String.ofList text))).map .value

/-- Handles a line. -/
def respond (env : Environment) (line : String) : Step Reply :=
  respondTrimmed env (Text.trim line.toList)

end

end LineCalculator
