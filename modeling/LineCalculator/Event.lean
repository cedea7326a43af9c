import LineCalculator.Decimal.Layout
import LineCalculator.Error
import LineCalculator.Factorial
/-! # Log events

* `Event`: what happened, with its `severity` and its `message`.
* `Logged ε α`: the events of a computation and its result. The events stay when it fails.
-/

namespace LineCalculator
set_option autoImplicit false

/-- How important an event is, least first. -/
inductive Severity where
  | debug
  | info
  | warn
deriving DecidableEq, Repr

namespace Severity

def name : Severity → String
  | debug => "DEBUG"
  | info => "INFO"
  | warn => "WARN"

/-- The place in the order of importance. -/
def level : Severity → Nat
  | debug => 0
  | info => 1
  | warn => 2

end Severity

/-- Something worth a line in the log. -/
inductive Event where
  /-- No pattern was made for all of the bound names together. -/
  | patternRejected (names : Nat) (reason : String)
  /-- The text, after substitution, is about to be read. -/
  | evaluating (text : String)
  /-- A factorial was computed exactly. -/
  | factorial (n exact : Nat)
  /-- A factorial was taken to be infinite without computing it. -/
  | hugeFactorial (x : Float)
  /-- A name got its first value. -/
  | bound (name : String) (value : Float)
  /-- A name got a new value. -/
  | rebound (name : String) (previous value : Float)
  /-- Why the expression of a line has no value. -/
  | cause (error : ExpressionError)
  /-- A line is about to be read from an input that is no terminal. -/
  | noTerminal
deriving DecidableEq, Repr

namespace Event

def severity : Event → Severity
  | factorial .. => .info
  | patternRejected .. | hugeFactorial _ => .warn
  | evaluating _ | bound .. | rebound .. | cause _ | noTerminal => .debug

def message : Event → String
  | patternRejected names reason =>
    "combined pattern for " ++ toString names ++ " variables rejected (" ++ reason
      ++ "), substituting one at a time"
  | evaluating text => "evaluating " ++ text
  | factorial n exact => "Factorial Result > " ++ Factorial.summary n exact
  | hugeFactorial x =>
    "fact(" ++ Layout.plain.text x ++ ") exceeds " ++ toString Factorial.maxExact
      ++ ", result is infinite"
  | bound name value => name ++ " bound to " ++ Layout.plain.text value
  | rebound name previous value =>
    name ++ ": " ++ Layout.plain.text previous ++ " -> " ++ Layout.plain.text value
  | cause error => error.message
  | noTerminal => "stdin is not a tty"

end Event

/-- A result and the events on the way to it. -/
structure Logged (ε α : Type) where
  events : List Event
  result : Except ε α

namespace Logged
variable {ε ε' α β γ : Type}

/-- A value, without an event. -/
def value (a : α) : Logged ε α := ⟨[], .ok a⟩

/-- An error, without an event. -/
def error (e : ε) : Logged ε α := ⟨[], .error e⟩

/-- Goes on with the value; the events of both parts follow each other. -/
def bind (l : Logged ε α) (f : α → Logged ε β) : Logged ε β :=
  match l.result with
  | .ok a => ⟨l.events ++ (f a).events, (f a).result⟩
  | .error e => ⟨l.events, .error e⟩

/-- The same with another form of error. -/
def mapError (f : ε → ε') (l : Logged ε α) : Logged ε' α :=
  ⟨l.events, l.result.mapError f⟩

/-- The same with an event in front. -/
def after (e : Event) (l : Logged ε α) : Logged ε α := ⟨e :: l.events, l.result⟩

instance : Monad (Logged ε) where
  pure := value
  bind := bind

@[simp] theorem value_bind (a : α) (f : α → Logged ε β) : (value a).bind f = f a := rfl

@[simp] theorem error_bind (e : ε) (f : α → Logged ε β) : (error e : Logged ε α).bind f = error e :=
  rfl

theorem bind_value (l : Logged ε α) : l.bind value = l := by
  obtain ⟨events, result⟩ := l
  cases result <;> simp [bind, value]

theorem bind_assoc (l : Logged ε α) (f : α → Logged ε β) (g : β → Logged ε γ) :
    (l.bind f).bind g = l.bind fun a => (f a).bind g := by
  obtain ⟨events, result⟩ := l
  cases result with
  | error e => rfl
  | ok a => cases h : (f a).result <;> simp [bind, h]

@[simp] theorem mapError_value (f : ε → ε') (a : α) :
    (value a : Logged ε α).mapError f = value a := rfl

@[simp] theorem mapError_error (f : ε → ε') (e : ε) :
    (error e : Logged ε α).mapError f = error (f e) := rfl

theorem mapError_bind (f : ε → ε') (l : Logged ε α) (g : α → Logged ε β) :
    (l.bind g).mapError f = (l.mapError f).bind fun a => (g a).mapError f := by
  obtain ⟨events, result⟩ := l
  cases result <;> rfl

@[simp] theorem result_value (a : α) : (value a : Logged ε α).result = .ok a := rfl

@[simp] theorem result_error (e : ε) : (error e : Logged ε α).result = .error e := rfl

theorem result_bind_eq_ok {l : Logged ε α} {f : α → Logged ε β} {b : β} :
    (l.bind f).result = .ok b ↔ ∃ a, l.result = .ok a ∧ (f a).result = .ok b := by
  obtain ⟨events, result⟩ := l
  cases result <;> simp [bind]

theorem result_bind {l : Logged ε α} {a : α} (h : l.result = .ok a) (f : α → Logged ε β) :
    (l.bind f).result = (f a).result := by
  obtain ⟨events, result⟩ := l
  cases h
  rfl

theorem events_bind {l : Logged ε α} {a : α} (h : l.result = .ok a) (f : α → Logged ε β) :
    (l.bind f).events = l.events ++ (f a).events := by
  obtain ⟨events, result⟩ := l
  cases h
  rfl

theorem bind_of_error {l : Logged ε α} {e : ε} (h : l.result = .error e) (f : α → Logged ε β) :
    l.bind f = ⟨l.events, .error e⟩ := by
  obtain ⟨events, result⟩ := l
  cases h
  rfl

theorem result_mapError_eq_ok {f : ε → ε'} {l : Logged ε α} {a : α} :
    (l.mapError f).result = .ok a ↔ l.result = .ok a := by
  obtain ⟨events, result⟩ := l
  cases result with
  | error e' => exact ⟨nofun, nofun⟩
  | ok b => exact ⟨fun h => congrArg _ (Except.ok.inj h), fun h => congrArg _ (Except.ok.inj h)⟩

theorem result_bind_eq_error {l : Logged ε α} {f : α → Logged ε β} {e : ε} :
    (l.bind f).result = .error e ↔
      l.result = .error e ∨ ∃ a, l.result = .ok a ∧ (f a).result = .error e := by
  obtain ⟨events, result⟩ := l
  cases result <;> simp [bind]

theorem result_mapError_eq_error {f : ε → ε'} {l : Logged ε α} {e' : ε'} :
    (l.mapError f).result = .error e' ↔ ∃ e, l.result = .error e ∧ f e = e' := by
  obtain ⟨events, result⟩ := l
  cases result with
  | ok a =>
    constructor
    · intro h
      cases h
    · rintro ⟨e, he, -⟩
      cases he
  | error e =>
    constructor
    · intro h
      cases h
      exact ⟨e, rfl, rfl⟩
    · rintro ⟨e, he, rfl⟩
      cases he
      rfl

end Logged

end LineCalculator
