import LineCalculator.Decimal.Numeral
import LineCalculator.Text.Run
/-! # Tokens of an expression

A token is a maximal run of digits and points, a maximal run of lowercase letters, or any other
single character. Spaces separate tokens and are none themselves; no other character is skipped.

* `Token`: a run and the byte offset where it starts.
* `tokens text`: the tokens of a text, in order.
-/

namespace LineCalculator.Expression
set_option autoImplicit false
open Text

/-- The classes of characters that run together. -/
inductive TokenKind where
  | numeral
  | word
deriving DecidableEq, Repr

/-- The class of a character; a character without one is a token of its own. -/
def tokenKind (c : Char) : Option TokenKind :=
  if Decimal.isNumeralChar c then some .numeral
  else if c.isLower then some .word
  else none

/-- A run of the text and the byte offset of its first character. -/
structure Token where
  run : Run
  start : Nat
deriving DecidableEq, Repr

namespace Token

/-- The byte offset just past the token. -/
def stop (t : Token) : Nat := t.start + t.run.size

end Token

/-- The runs from a byte offset on, without the spaces, each with its place. -/
def locate : Nat → List Run → List Token
  | _, [] => []
  | start, r :: rs =>
    if r.first = ' ' then locate (start + r.size) rs
    else ⟨r, start⟩ :: locate (start + r.size) rs

/-- The tokens of a text. -/
def tokens (text : List Char) : List Token := locate 0 (runs tokenKind text)

end LineCalculator.Expression
