import LineCalculator.Environment
import LineCalculator.Event
import LineCalculator.Text.Word
/-! # Substitution of bound names

Before an expression is read, every word that is a bound name is replaced by its value. A word is
a maximal run of word characters: where `x` is bound, neither `max` nor `x5` is touched.

The names are found by patterns, which are compiled first and may not become too large. One pattern
for all of them is tried, and if it is refused each name gets a pattern of its own.

* `render`: a value as it is put into an expression.
* `substitute env text`: the text in which all bound names are replaced at once.
* `substituteEach env text`: the same name by name, longest names first, each in the text that the
  ones before it left.
* `PatternCompiler`: what compiles the patterns; `PatternCompiler.bySize` goes by their size.
* `search env text`: the text after substitution, by the patterns that are compiled for the names.
* `searchEach env text`: the same with one pattern for each name. A name whose pattern is refused
  is an error.
-/

namespace LineCalculator.Substitution
set_option autoImplicit false
open Text

/-- A value written so that reading it gives the same value. NaN and the infinities have no
numeral, and stand as divisions that give them. -/
def render (x : Float) : List Char :=
  if Double.isNaN x then "(0/0)".toList
  else if Double.isInfinite x then
    if Double.isNegative x then "(-1/0)".toList else "(1/0)".toList
  else Layout.plain.write x

/-- The word itself, or its value if it is bound. -/
def replace (env : Environment) (word : List Char) : List Char :=
  match env.get? (String.ofList word) with
  | some x => render x
  | none => word

/-- The text with the value in the stead of every word that is a bound name. -/
def substitute (env : Environment) (text : List Char) : List Char :=
  (words text).flatMap fun r => replace env r.text

/-- The text with `value` in the stead of every word that is `name`. -/
def substituteWord (name : String) (value : Float) (text : List Char) : List Char :=
  (words text).flatMap fun r => if r.text = name.toList then render value else r.text

/-- Whether a binding comes before another one when longer names go first, and names of one length
in their order. -/
def longerFirst (a b : Binding) : Bool :=
  b.1.length < a.1.length || a.1.length = b.1.length && a.1 ≤ b.1

/-- Puts a binding in front of the first one that it comes before. -/
def insertByLength (b : Binding) : List Binding → List Binding
  | [] => [b]
  | a :: rest => if longerFirst b a then b :: a :: rest else a :: insertByLength b rest

/-- The bindings, those of longer names first. -/
def longestFirst (env : Environment) : List Binding := env.bindings.foldr insertByLength []

/-- The bound names in the order in which they are tried. -/
def triedNames (env : Environment) : List String := (longestFirst env).map Prod.fst

/-- The text after one name after the other was replaced, longest names first. -/
def substituteEach (env : Environment) (text : List Char) : List Char :=
  (longestFirst env).foldl (fun t b => substituteWord b.1 b.2 t) text

/-! ## Patterns -/

/-- The largest size, in bytes, that a compiled pattern for bound names may have. -/
def patternBudget : Nat := 64 * 1024 * 1024

/-- What compiles the patterns that find names as whole words. -/
class PatternCompiler where
  /-- Why no pattern within the budget is made for these names, which are tried in this order;
  nothing if one is made. -/
  refusal? (budget : Nat) (names : List String) : Option String

/-- How many letters the names have. -/
def letters (names : List String) : Nat := names.foldr (fun name n => name.length + n) 0

/-- The bytes of a pattern: 32 for each letter of a single name, and 68 where names are to be told
apart. -/
def patternSize : List String → Nat
  | [name] => 32 * name.length
  | names => 68 * letters names

/-- The compiler that refuses the patterns that are too large. -/
abbrev PatternCompiler.bySize : PatternCompiler where
  refusal? budget names :=
    if patternSize names ≤ budget then none
    else some s!"Compiled regex exceeds size limit of {budget} bytes."

section
variable [PatternCompiler]

/-- Why no pattern is made for these names. -/
def refusal? (names : List String) : Option String := PatternCompiler.refusal? patternBudget names

/-- The text with the value of a binding in the stead of its name, if that has a pattern. -/
def searchWord (text : List Char) (b : Binding) : Except ExpressionError (List Char) :=
  match refusal? [b.1] with
  | none => .ok (substituteWord b.1 b.2 text)
  | some _ => .error (.unsubstituted b.1)

/-- The text after substitution with one pattern for each name, longest names first. -/
def searchEach (env : Environment) (text : List Char) : Except ExpressionError (List Char) :=
  (longestFirst env).foldlM searchWord text

/-- The text after substitution with one pattern for all names, or for each one if that is
refused. -/
def search (env : Environment) (text : List Char) : Logged ExpressionError (List Char) :=
  if env.isEmpty then .value text
  else
    match refusal? (triedNames env) with
    | none => .value (substitute env text)
    | some reason => ⟨[.patternRejected env.size reason], searchEach env text⟩

end

end LineCalculator.Substitution
