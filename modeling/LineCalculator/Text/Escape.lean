/-! # Escapes for control characters

A log line must not ring, move or recolour the terminal it is shown on. The control characters
that do so are written by their code points; every other character, and so every line end and tab,
stands for itself.

* `shortControls`, `isHighControl`: the characters that are escaped.
* `escape`: the text with their escapes in it.

A backslash is not escaped, so the text cannot always be read back.
-/

namespace LineCalculator.Text
set_option autoImplicit false

/-- Bell, backspace, form feed, escape and delete. -/
def shortControls : List Char := ['\x07', '\x08', '\x0c', '\x1b', '\x7f']

/-- The controls beyond ASCII, U+0080 to U+009F. -/
def isHighControl (c : Char) : Bool := 0x80 ≤ c.toNat && c.toNat ≤ 0x9F

/-- Two lowercase hexadecimal digits, of a number below 256. -/
def hexPair (n : Nat) : List Char := [Nat.digitChar (n / 16), Nat.digitChar (n % 16)]

/-- A control character of ASCII is written `\x1b`, one beyond ASCII with `\u` and its digits in
braces. -/
def escapeChar (c : Char) : List Char :=
  if shortControls.contains c then '\\' :: 'x' :: hexPair c.toNat
  else if isHighControl c then '\\' :: 'u' :: '\x7b' :: hexPair c.toNat ++ ['\x7d']
  else [c]

/-- The text with each control character that a terminal acts on escaped. -/
def escape (text : List Char) : List Char := text.flatMap escapeChar

end LineCalculator.Text
