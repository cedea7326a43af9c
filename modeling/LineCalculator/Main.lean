import LineCalculator.CommandLine.Transcript
/-! # The program

Reads arguments, files and standard input, and writes what the transcript says. Patterns are
refused by their size.
-/

namespace LineCalculator
set_option autoImplicit false

open CommandLine

/-- Writes a transcript: the log on standard error, the rest on standard output. -/
def write (t : Transcript) : IO Unit := do
  (← IO.getStderr).putStr (Transcript.join t.log)
  let out ← IO.getStdout
  out.putStr (Transcript.join t.output)
  out.flush

/-- The text of a file. -/
def readText? (name : String) : IO (Option String) := do
  try
    return String.fromUTF8? (← IO.FS.readBinFile name)
  catch _ => return none

attribute [local instance] Substitution.PatternCompiler.bySize in
/-- Answers the lines of standard input as they come. -/
partial def converseLoop (threshold : Severity) (env : Environment) : IO Unit := do
  write (awaiting threshold)
  let line ← (← IO.getStdin).getLine
  match Text.nextLine? line.toList with
  | none => write farewell
  | some (line, _) =>
    let s := respondTyped env line
    write (report threshold s)
    if stops s then return
    converseLoop threshold s.environment

end LineCalculator

open LineCalculator CommandLine in
attribute [local instance] Substitution.PatternCompiler.bySize in
def main (arguments : List String) : IO UInt32 := do
  match Request.ofArguments? arguments with
  | none => return 2
  | some .version =>
    IO.println version
    return 0
  | some (.run o) =>
    match o.contents with
    | none =>
      write greeting
      converseLoop o.threshold o.environment
      return 0
    | some contents =>
      let text ← if o.file then readText? contents else pure none
      let outcome := run o "" fun _ => text
      write outcome.transcript
      return outcome.status.toUInt32
