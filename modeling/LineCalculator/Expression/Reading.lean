import LineCalculator.Builtin
import LineCalculator.Environment
import LineCalculator.Expression.Operator
import LineCalculator.Expression.Token
/-! # Reading an expression

An expression is read token by token and computed on the way. What is kept between two tokens is,
for each parenthesis that is open and for the outermost level, the sum so far, the product so far
and the signs and functions that wait for their operand.

    expression := term (("+" | "-") term)*
    term       := factor (("*" | "/") factor)*
    factor     := ("+" | "-") factor | "(" expression ")" | number | variable | function factor

* `State`: an operand is due, or a term is complete so far.
* `State.step`: the state after one more token; the events of functions that are applied at this
  token; or the error found at it.
* `State.finish`: the value when the text ends.
* `read env text`: the value of a text.
* `openFactors`: how many signs, functions and parentheses wait for an operand. When there are
  `maxOpenFactors` of them no operand is admitted.
-/

namespace LineCalculator.Expression
set_option autoImplicit false

/-- How many factors may be open at once: every sign, function and parenthesis on the way down,
and the number or variable at the end. -/
def maxOpenFactors : Nat := 256

/-- What waits for the operand after it. -/
inductive Waiting where
  | sign (s : Sign)
  | call (f : Builtin)
deriving DecidableEq, Repr

namespace Waiting

/-- The operand's value under what waits for it. -/
def apply : Waiting → Float → Logged DomainError Float
  | sign s, x => .value (s.ofOperand x)
  | call f, x => f.apply x

/-- The operand's value under all that waits for it, innermost first. -/
def applyAll : List Waiting → Float → Logged DomainError Float
  | [], x => .value x
  | w :: ws, x => (w.apply x).bind (applyAll ws)

end Waiting

/-- One level of parentheses at which an operand is due. -/
structure Level where
  /-- The sum so far and the sign after it. -/
  sum : Option (Float × Sign)
  /-- The product so far and the operator after it. -/
  product : Option (Float × Scale)
  /-- What waits for the operand, innermost first. -/
  waiting : List Waiting
deriving DecidableEq, Repr

namespace Level

/-- A level of which nothing was read. -/
def fresh : Level := ⟨none, none, []⟩

/-- One more sign or function in front of the operand. -/
def await (l : Level) (w : Waiting) : Level := { l with waiting := w :: l.waiting }

end Level

/-- How many factors are open around the innermost level: what waits at each level further out, and
the parenthesis after it. -/
def outside : List Level → Nat
  | [] => 0
  | level :: outer => level.waiting.length + 1 + outside outer

/-- How many factors are open where an operand is due. -/
def openFactors (level : Level) (outer : List Level) : Nat := level.waiting.length + outside outer

/-- What was read of an expression. -/
inductive State where
  /-- An operand is due at the innermost level. -/
  | due (level : Level) (outer : List Level)
  /-- At the innermost level a term is complete unless an operator continues it. -/
  | complete (sum : Option (Float × Sign)) (term : Float) (outer : List Level)
deriving DecidableEq, Repr

/-- A sum with one more term. -/
def total (sum : Option (Float × Sign)) (term : Float) : Float :=
  match sum with
  | none => term
  | some (x, s) => s.combine x term

/-- A product with one more factor. -/
def scaled (product : Option (Float × Scale)) (factor : Float) : Float :=
  match product with
  | none => factor
  | some (x, s) => s.combine x factor

/-- The state after an operand: everything that waits for it is applied to it, and it goes into
the product. -/
def Level.supply (level : Level) (outer : List Level) (operand : Float) :
    Logged ExpressionError State :=
  ((Waiting.applyAll level.waiting operand).mapError .domain).bind fun factor =>
    .value (.complete level.sum (scaled level.product factor) outer)

/-- The state in which the operand inside what was just opened is due, unless too many factors are
open. -/
def State.descend (level : Level) (outer : List Level) (position : Nat) :
    Logged ExpressionError State :=
  if maxOpenFactors ≤ openFactors level outer then .error (.nestedTooDeeply position)
  else .value (.due level outer)

/-- Reads a token where an operand is due. -/
def readOperand (env : Environment) (level : Level) (outer : List Level) (t : Token) :
    Logged ExpressionError State :=
  if t.run.first = '+' then State.descend (level.await (.sign .plus)) outer t.stop
  else if t.run.first = '-' then State.descend (level.await (.sign .minus)) outer t.stop
  else if t.run.first = '(' then State.descend .fresh (level :: outer) t.stop
  else
    match tokenKind t.run.first with
    | some .numeral =>
      match Decimal.read? t.run.text with
      | some d => level.supply outer d.toFloat
      | none => .error (.malformedNumeral (String.ofList t.run.text) t.start)
    | some .word =>
      let name := String.ofList t.run.text
      match Builtin.ofName? name with
      | some f => State.descend (level.await (.call f)) outer t.stop
      | none =>
        match env.get? name with
        | some x => level.supply outer x
        | none => .error (.unknownName name t.start)
    | none => .error (.unexpectedCharacter t.run.first t.start)

/-- Reads a token after a term. -/
def readOperator (sum : Option (Float × Sign)) (term : Float) (outer : List Level) (t : Token) :
    Logged ExpressionError State :=
  if t.run.first = '*' then .value (.due ⟨sum, some (term, .times), []⟩ outer)
  else if t.run.first = '/' then .value (.due ⟨sum, some (term, .over), []⟩ outer)
  else if t.run.first = '+' then .value (.due ⟨some (total sum term, .plus), none, []⟩ outer)
  else if t.run.first = '-' then .value (.due ⟨some (total sum term, .minus), none, []⟩ outer)
  else
    match outer with
    | [] => .error (.trailingInput t.run.first t.start)
    | level :: outer =>
      if t.run.first = ')' then level.supply outer (total sum term)
      else .error (.missingParenthesis t.start)

namespace State

/-- Nothing was read. -/
def start : State := due .fresh []

/-- The state after one more token. -/
def step (env : Environment) : State → Token → Logged ExpressionError State
  | due level outer, t => readOperand env level outer t
  | complete sum term outer, t => readOperator sum term outer t

/-- The value when the text ends at a byte offset. -/
def finish : State → Nat → Logged ExpressionError Float
  | due .., position => .error (.unexpectedEnd position)
  | complete sum term [], _ => .value (total sum term)
  | complete _ _ (_ :: _), position => .error (.missingParenthesis position)

/-- The state after some more tokens. -/
def run (env : Environment) (s : State) (ts : List Token) : Logged ExpressionError State :=
  ts.foldl (fun l t => l.bind fun s => s.step env t) (.value s)

@[simp] theorem run_nil (env : Environment) (s : State) : s.run env [] = .value s := rfl

theorem foldl_step (env : Environment) (l : Logged ExpressionError State) (ts : List Token) :
    ts.foldl (fun l t => l.bind fun s => s.step env t) l = l.bind fun s => s.run env ts := by
  induction ts generalizing l with
  | nil => exact (Logged.bind_value l).symm
  | cons t ts ih =>
    rw [List.foldl_cons, ih, Logged.bind_assoc]
    congr 1
    funext s
    rw [run, List.foldl_cons, Logged.value_bind, ih]

theorem run_cons (env : Environment) (s : State) (t : Token) (ts : List Token) :
    s.run env (t :: ts) = (s.step env t).bind fun s => s.run env ts := by
  rw [run, List.foldl_cons, Logged.value_bind, foldl_step]

theorem run_append (env : Environment) (s : State) (ts us : List Token) :
    s.run env (ts ++ us) = (s.run env ts).bind fun s => s.run env us := by
  rw [run, List.foldl_append, foldl_step]
  rfl

end State

/-- The value of a text, names being looked up in the environment. -/
def read (env : Environment) (text : List Char) : Logged ExpressionError Float :=
  (State.start.run env (tokens text)).bind fun s => s.finish (Text.byteLength text)

end LineCalculator.Expression
