import LineCalculator.Evaluation
import LineCalculator.Text.Blank
/-! # Assignments

* `Step`: what a line leads to: the bindings after it, the events, and its result.
* `assign env line`: binds the name before the first equals sign to the value of the expression
  after it.
-/

namespace LineCalculator
set_option autoImplicit false

/-- What handling a line leads to. -/
structure Step (α : Type) where
  /-- The bindings afterwards. -/
  environment : Environment
  events : List Event
  result : Except LineError α

namespace Step
variable {α β : Type}

/-- An error, nothing else having happened. -/
def error (env : Environment) (e : LineError) : Step α := ⟨env, [], .error e⟩

/-- A value, nothing else having happened. -/
def value (env : Environment) (a : α) : Step α := ⟨env, [], .ok a⟩

def map (f : α → β) (s : Step α) : Step β := ⟨s.environment, s.events, s.result.map f⟩

/-- A computation that leaves the bindings as they are. -/
def ofLogged (env : Environment) (l : Logged LineError α) : Step α := ⟨env, l.events, l.result⟩

end Step

/-- The text before and after the first equals sign. -/
def splitAssignment? (line : List Char) : Option (List Char × List Char) :=
  match line.dropWhile (· ≠ '=') with
  | [] => none
  | _ :: rest => some (line.takeWhile (· ≠ '='), rest)

/-- What is logged about a binding that is about to be made. -/
def bindingEvent (env : Environment) (name : String) (value : Float) : Event :=
  match env.get? name with
  | some previous => .rebound name previous value
  | none => .bound name value

/-- Handles a line as an assignment. The expression is evaluated under the bindings before it, and
an error leaves them as they are. -/
def assign [Substitution.PatternCompiler] (env : Environment) (line : String) :
    Step (String × Float) :=
  match splitAssignment? line.toList with
  | none => .error env (.invalidAssignment line)
  | some (left, right) =>
    let name := String.ofList (Text.trim left)
    if h : IsName name then
      let evaluated := evaluate env (String.ofList (Text.trim right))
      match evaluated.result with
      | .ok value =>
        ⟨env.insert name h value, evaluated.events ++ [bindingEvent env name value],
          .ok (name, value)⟩
      | .error e => ⟨env, evaluated.events, .error e⟩
    else .error env (.invalidName name)

end LineCalculator
