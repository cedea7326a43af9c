import LineCalculator.CommandLine.Arguments
import LineCalculator.Session
import LineCalculator.Text.Backspace
import LineCalculator.Text.Escape
import LineCalculator.Text.Line
/-! # Transcripts

What a run writes, and the two ways to feed it lines.

* `Transcript`: the lines on standard output and on standard error.
* `report`: what is written about one answered line; `stops`: whether it was the last one.
* `runScript`: answers the lines of a given text, up to an exit command.
* `runInteractive`: greets, and answers lines as they are read, up to an exit command or the end
  of the input. Backspaces in a line take effect, and each reading is logged.
* `run`: a whole run from its options.
-/

namespace LineCalculator.CommandLine
set_option autoImplicit false

/-- What is written, line by line, on standard output and standard error. An entry may itself
stretch over several lines. -/
structure Transcript where
  output : List String
  log : List String
deriving DecidableEq, Repr

namespace Transcript

def empty : Transcript := ⟨[], []⟩

/-- One transcript after the other. -/
def append (a b : Transcript) : Transcript := ⟨a.output ++ b.output, a.log ++ b.log⟩

instance : Append Transcript := ⟨append⟩

/-- The entries, each with a line feed after it. -/
def join (entries : List String) : String := String.join (entries.map (· ++ "\n"))

end Transcript

/-- The line that logs an event: its severity, right-aligned in five columns, and its message,
in which the control characters are escaped. -/
def logLine (e : Event) : String :=
  let severity := e.severity.name
  String.ofList (List.replicate (5 - severity.length) ' ') ++ severity ++ " "
    ++ String.ofList (Text.escape e.message.toList)

/-- The log lines of the events of at least the given severity. -/
def logLines (threshold : Severity) (events : List Event) : List String :=
  (events.filter fun e => threshold.level ≤ e.severity.level).map logLine

/-- Whether the session ends with this answer. -/
def stops (s : Step Reply) : Bool :=
  match s.result with
  | .ok .exit => true
  | _ => false

/-- What is written about one answered line: its events, and its reply or error. The cause of an
error is an event too. A blank line leaves no trace. -/
def report (threshold : Severity) (s : Step Reply) : Transcript :=
  match s.result with
  | .ok .empty => ⟨[], logLines threshold s.events⟩
  | .ok reply => ⟨[reply.display], logLines threshold s.events⟩
  | .error e =>
    ⟨["Error - " ++ e.message], logLines threshold (s.events ++ e.cause.toList.map .cause)⟩

/-- What is written before the first line is read. -/
def greeting : Transcript :=
  ⟨["Bored Calculator - The same Haskell calculator, but even worse (somehow)",
    "Type 'help' for instructions or 'exit' to quit."], []⟩

/-- What is written when the input ends. -/
def farewell : Transcript := ⟨[Reply.exit.display], []⟩

/-- What is written when the next line is about to be read. -/
def awaiting (threshold : Severity) : Transcript := ⟨[], logLines threshold [.noTerminal]⟩

/-- A transcript and the exit status after it. -/
structure Outcome where
  transcript : Transcript
  status : Nat
deriving DecidableEq, Repr

/-- The environment that a session starts with. -/
def Options.environment (o : Options) : Environment :=
  if o.noConstants then .empty else .standard

/-- What is reported of a file that cannot be read or is no text. -/
def unreadable (name : String) : Outcome :=
  ⟨⟨[], ["Failed to read the input file '" ++ name ++ "'. Perhaps this file does not exist?"]⟩, 1⟩

/-- The version that is printed. -/
def version : String := "boredcalc 0.1.0"

/-! ## Runs -/

section
variable [Substitution.PatternCompiler]

/-- Answers the given lines, up to an exit command. -/
def runLines (threshold : Severity) (env : Environment) : List (List Char) → Transcript
  | [] => .empty
  | line :: rest =>
    let s := respond env (String.ofList line)
    if stops s then report threshold s
    else report threshold s ++ runLines threshold s.environment rest

/-- Answers the lines of a text, up to an exit command. -/
def runScript (threshold : Severity) (env : Environment) (script : String) : Transcript :=
  runLines threshold env (Text.lines script.toList)

/-- The answer to a line as it was typed, with the backspaces in it. -/
def respondTyped (env : Environment) (line : List Char) : Step Reply :=
  respond env (String.ofList (Text.applyBackspaces line))

/-- Reads and answers one line after the other, up to an exit command or the end of the input. -/
def converse (threshold : Severity) (env : Environment) (input : List Char) : Transcript :=
  match _h : Text.nextLine? input with
  | none => awaiting threshold ++ farewell
  | some (line, rest) =>
    let s := respondTyped env line
    let written := awaiting threshold ++ report threshold s
    if stops s then written
    else written ++ converse threshold s.environment rest
termination_by input.length
decreasing_by exact Text.length_lt_of_nextLine? ‹_›

/-- Greets, and answers the lines of the input. -/
def runInteractive (threshold : Severity) (env : Environment) (input : String) : Transcript :=
  greeting ++ converse threshold env input.toList

/-- A whole run. The text of a file is asked for by its name, and is absent if the file cannot be
read or is no text. -/
def run (o : Options) (input : String) (fileText? : String → Option String) : Outcome :=
  match o.contents with
  | none => ⟨runInteractive o.threshold o.environment input, 0⟩
  | some contents =>
    if o.file then
      match fileText? contents with
      | some script => ⟨runScript o.threshold o.environment script, 0⟩
      | none => unreadable contents
    else ⟨runScript o.threshold o.environment contents, 0⟩

/-- The whole program: nothing if the arguments are refused. -/
def main? (arguments : List String) (input : String) (fileText? : String → Option String) :
    Option Outcome :=
  (Request.ofArguments? arguments).map fun
    | .version => ⟨⟨[version], []⟩, 0⟩
    | .run o => run o input fileText?

end

end LineCalculator.CommandLine
