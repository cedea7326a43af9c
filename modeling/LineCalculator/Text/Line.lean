/-! # Lines

A line ends at a line feed, and one carriage return before that line feed belongs to the end of
the line. What follows the last line feed is a line too, unless it is empty.

* `nextLine?`: the first line of a text and what follows it.
* `lines`: all lines of a text.
-/

namespace LineCalculator.Text
set_option autoImplicit false

/-- A line whose end was a line feed, without the carriage return before it. -/
def dropReturn (line : List Char) : List Char :=
  if line.getLast? = some '\r' then line.dropLast else line

/-- The first line and the text after it; nothing when the text is empty. -/
def nextLine? : List Char → Option (List Char × List Char)
  | [] => none
  | text =>
    let line := text.takeWhile (· ≠ '\n')
    match text.dropWhile (· ≠ '\n') with
    | [] => some (line, [])
    | _ :: rest => some (dropReturn line, rest)

theorem length_lt_of_nextLine? {text line rest : List Char}
    (h : nextLine? text = some (line, rest)) : rest.length < text.length := by
  cases text with
  | nil => simp [nextLine?] at h
  | cons c cs =>
    simp only [nextLine?] at h
    have hle := (List.dropWhile_sublist (· ≠ '\n') (l := c :: cs)).length_le
    split at h
    · cases h
      exact Nat.succ_pos cs.length
    · rename_i hd
      rw [hd, List.length_cons] at hle
      cases h
      exact hle

/-- All lines of a text, in order. -/
def lines (text : List Char) : List (List Char) :=
  match _h : nextLine? text with
  | none => []
  | some (line, rest) => line :: lines rest
termination_by text.length
decreasing_by exact length_lt_of_nextLine? ‹_›

end LineCalculator.Text
