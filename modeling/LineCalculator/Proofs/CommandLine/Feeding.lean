import LineCalculator.CommandLine.Transcript
import LineCalculator.Proofs.Session.Replay
import LineCalculator.Proofs.Text.Lines
/-! # The ways to feed lines

Lines reach a session as an argument, from a file or through a pipe, and what is printed is the
same, but for the greeting and a farewell where the input of a pipe ends.

* `isExit line`, `throughExit lines`: exit commands, and the lines up to the first one.
* `printed s`, `printedLines env lines`: what is printed about one answer, and about some lines.
* `runLines_output`, `converse_output`: both loops print just this.
* `output?_feeding`: the three ways, from the arguments to what is printed.
-/

namespace LineCalculator
set_option autoImplicit false

namespace CommandLine
open Text Substitution

/-! ## Exit commands -/

def isExit (line : String) : Bool := isCommand "exit" (trim line.toList)

/-- The lines up to the first exit command, and that one. -/
def throughExit : List String → List String
  | [] => []
  | line :: rest => if isExit line then [line] else line :: throughExit rest

theorem stops_map {α : Type} {f : α → Reply} (s : Step α) (hf : ∀ a, f a ≠ .exit) :
    stops (s.map f) = false := by
  unfold stops Step.map
  cases s.result with
  | error e => rfl
  | ok a =>
    split
    · rename_i he
      exact absurd (Except.ok.inj he) (hf a)
    · rfl

theorem stops_respond [PatternCompiler] (env : Environment) (line : String) :
    stops (respond env line) = isExit line := by
  rw [isExit]
  rcases respond_forms env line with
    ⟨he, -, hr⟩ | ⟨he, -, reply, hreply, hr⟩ | ⟨he, -, hr⟩ | ⟨he, -, hr⟩
  · rw [hr, he]
    rfl
  · rw [hr, he]
    simp only [List.mem_cons, List.not_mem_nil, or_false] at hreply
    rcases hreply with rfl | rfl | rfl
    · rfl
    · rfl
    · rfl
  · rw [hr, he]
    refine stops_map _ fun b h => ?_
    cases h
  · rw [hr, he]
    refine stops_map _ fun x h => ?_
    cases h

theorem throughExit_append {line : String} (before after : List String)
    (h : isExit line = true) :
    throughExit (before ++ line :: after) = throughExit (before ++ [line]) := by
  induction before with
  | nil => simp [throughExit, h]
  | cons first before ih => simp only [List.cons_append, throughExit, ih]

/-! ## What is printed -/

/-- The entries that an answer puts on standard output. -/
def printed (s : Step Reply) : List String :=
  match s.result with
  | .ok .empty => []
  | .ok reply => [reply.display]
  | .error e => ["Error - " ++ e.message]

/-- The entries that some lines put on standard output. -/
def printedLines [PatternCompiler] (env : Environment) (lines : List String) : List String :=
  (steps env (throughExit lines)).flatMap printed

variable {threshold : Severity} {env : Environment} {line : String}

theorem output_report (threshold : Severity) (s : Step Reply) :
    (report threshold s).output = printed s := by
  unfold report printed
  cases s.result with
  | error e => rfl
  | ok reply => cases reply <;> rfl

theorem output_append (a b : Transcript) : (a ++ b).output = a.output ++ b.output := rfl

theorem output_awaiting (threshold : Severity) : (awaiting threshold).output = [] := rfl

theorem printedLines_cons [PatternCompiler] (env : Environment) (line : String)
    (rest : List String) : printedLines env (line :: rest) = printed (respond env line) ++
      if isExit line then [] else printedLines (respond env line).environment rest := by
  rw [printedLines, throughExit]
  split
  · rfl
  · rfl

theorem runLines_output [PatternCompiler] (lines : List (List Char)) :
    (runLines threshold env lines).output = printedLines env (lines.map String.ofList) := by
  induction lines generalizing env with
  | nil => rfl
  | cons line rest ih =>
    rw [runLines, List.map_cons, printedLines_cons, ← stops_respond env]
    split
    · rw [output_report, List.append_nil]
    · rw [output_append, output_report, ih]

/-! ## The two loops -/

def scriptLines (script : List Char) : List String := (lines script).map String.ofList

/-- The lines of an input, with their backspaces applied. -/
def typedLines (input : List Char) : List String :=
  (lines input).map fun line => String.ofList (applyBackspaces line)

theorem typedLines_eq_scriptLines {input : List Char} (h : backspace ∉ input) :
    typedLines input = scriptLines input := by
  refine List.map_congr_left fun line hline => ?_
  rw [applyBackspaces_eq_self fun hm => h (subset_of_mem_lines hline hm)]

theorem runScript_output [PatternCompiler] (threshold : Severity) (env : Environment)
    (script : String) :
    (runScript threshold env script).output = printedLines env (scriptLines script.toList) :=
  runLines_output _

/-- What is printed at the end of an input without an exit command. -/
def goodbye (lines : List String) : List String :=
  if lines.any isExit then [] else [Reply.exit.display]

theorem goodbye_cons (line : String) (rest : List String) :
    goodbye (line :: rest) = if isExit line then [] else goodbye rest := by
  rw [goodbye, List.any_cons]
  cases isExit line <;> rfl

section Converse
variable [PatternCompiler] {input rest : List Char}

theorem converse_of_none (h : nextLine? input = none) :
    (converse threshold env input).output = [Reply.exit.display] := by
  rw [converse]
  split
  · rfl
  · rename_i he
    rw [h] at he
    cases he

theorem converse_of_some {line : List Char} (h : nextLine? input = some (line, rest)) :
    (converse threshold env input).output = printed (respondTyped env line) ++
      if stops (respondTyped env line) then []
      else (converse threshold (respondTyped env line).environment rest).output := by
  rw [converse]
  split
  · rename_i he
    rw [h] at he
    cases he
  · rename_i he
    rw [h] at he
    cases he
    dsimp only
    split
    · rw [output_append, output_report, output_awaiting, List.nil_append, List.append_nil]
    · rw [output_append, output_append, output_report, output_awaiting, List.nil_append]

theorem converse_output (input : List Char) : (converse threshold env input).output =
    printedLines env (typedLines input) ++ goodbye (typedLines input) := by
  induction input using lines.induct generalizing env with
  | case1 input hn =>
    rw [converse_of_none hn, typedLines, lines_of_none hn]
    rfl
  | case2 input line rest hn ih =>
    have htyped : typedLines input = String.ofList (applyBackspaces line) :: typedLines rest := by
      rw [typedLines, lines_of_some hn, List.map_cons, typedLines]
    rw [converse_of_some hn, ih, htyped, printedLines_cons, goodbye_cons, ← stops_respond env,
      respondTyped]
    split
    · rw [List.append_nil, List.append_nil]
    · rw [List.append_assoc]

end Converse

/-! ## From the arguments -/

/-- The flags of a run that say how much is logged and whether there are constants. -/
def Options.flags (o : Options) : List String :=
  (if o.verbose then ["--verbose"] else []) ++ (if o.quiet then ["--quiet"] else []) ++
    if o.noConstants then ["--no-constants"] else []

/-- What is printed by the whole program; nothing if the arguments are refused. -/
def output? [PatternCompiler] (arguments : List String) (input : String)
    (fileText? : String → Option String) : Option (List String) :=
  (main? arguments input fileText?).map fun outcome => outcome.transcript.output

namespace Request
variable {o : Options}

theorem acceptAll?_flags (o : Options) (rest : List String) :
    acceptAll? .none false (o.flags ++ rest) =
      acceptAll? { o with file := false, contents := none } false rest := by
  obtain ⟨file, verbose, quiet, noConstants, contents⟩ := o
  cases verbose <;> cases quiet <;> cases noConstants <;> rfl

theorem ofArguments?_of_acceptAll? {arguments : List String}
    (h : acceptAll? .none false arguments = some (.run o))
    (hlevel : (o.verbose && o.quiet) = false) : ofArguments? arguments = some (.run o) := by
  simp [ofArguments?, h, hlevel]

theorem ofArguments?_contents (h : (o.verbose && o.quiet) = false) (s : String) :
    ofArguments? (o.flags ++ ["--", s]) =
      some (.run { o with file := false, contents := some s }) := by
  refine ofArguments?_of_acceptAll? ?_ h
  rw [acceptAll?_flags]
  rfl

theorem ofArguments?_file (h : (o.verbose && o.quiet) = false) (name : String) :
    ofArguments? (o.flags ++ ["--file", "--", name]) =
      some (.run { o with file := true, contents := some name }) := by
  refine ofArguments?_of_acceptAll? ?_ h
  rw [acceptAll?_flags]
  rfl

theorem ofArguments?_flags (h : (o.verbose && o.quiet) = false) :
    ofArguments? o.flags = some (.run { o with file := false, contents := none }) := by
  refine ofArguments?_of_acceptAll? ?_ h
  rw [← List.append_nil o.flags, acceptAll?_flags]
  rfl

end Request

section Feeding
variable [PatternCompiler] {o : Options} {fileText? : String → Option String}

theorem output?_contents (h : (o.verbose && o.quiet) = false) (s input : String) :
    output? (o.flags ++ ["--", s]) input fileText? =
      some (printedLines o.environment (scriptLines s.toList)) := by
  rw [output?, main?, Request.ofArguments?_contents h]
  exact congrArg some (runScript_output o.threshold o.environment s)

theorem output?_file (h : (o.verbose && o.quiet) = false) {name s : String}
    (hname : fileText? name = some s) (input : String) :
    output? (o.flags ++ ["--file", "--", name]) input fileText? =
      some (printedLines o.environment (scriptLines s.toList)) := by
  rw [output?, main?, Request.ofArguments?_file h]
  simp only [Option.map_some, run, if_true, hname]
  exact congrArg some (runScript_output o.threshold o.environment s)

theorem output?_pipe (h : (o.verbose && o.quiet) = false) (s : String) :
    output? o.flags s fileText? = some (greeting.output ++
      (printedLines o.environment (typedLines s.toList) ++ goodbye (typedLines s.toList))) := by
  rw [output?, main?, Request.ofArguments?_flags h]
  exact congrArg some (congrArg (greeting.output ++ ·) (converse_output s.toList))

/-- An argument, a file and a pipe feed the same lines to one session each, up to an exit command,
once the backspaces in the lines of the pipe were applied. -/
theorem output?_feeding (h : (o.verbose && o.quiet) = false) {name s : String}
    (hname : fileText? name = some s) (input : String) :
    output? (o.flags ++ ["--", s]) input fileText? =
        some (printedLines o.environment (scriptLines s.toList)) ∧
      output? (o.flags ++ ["--file", "--", name]) input fileText? =
        some (printedLines o.environment (scriptLines s.toList)) ∧
      output? o.flags s fileText? = some (greeting.output ++
        (printedLines o.environment (typedLines s.toList) ++ goodbye (typedLines s.toList))) ∧
      (backspace ∉ s.toList → typedLines s.toList = scriptLines s.toList) ∧
      (∀ env before line after, isExit line = true →
        printedLines env (before ++ line :: after) = printedLines env (before ++ [line])) ∧
      (∀ env line rest, isExit line = false → printedLines env (line :: rest) =
        printed (respond env line) ++ printedLines (respond env line).environment rest) ∧
      (∀ env line, trim line.toList = [] → printed (respond env line) = []) ∧
      ∀ env line e, (respond env line).result = .error e →
        printed (respond env line) = ["Error - " ++ e.message] ∧ isExit line = false := by
  refine ⟨output?_contents h s input, output?_file h hname input, output?_pipe h s,
    typedLines_eq_scriptLines, fun env before line after hexit => ?_, fun env line rest hexit => ?_,
    fun env line hblank => ?_, fun env line e he => ?_⟩
  · rw [printedLines, throughExit_append before after hexit, printedLines]
  · rw [printedLines_cons, hexit, if_neg Bool.false_ne_true]
  · rw [respond, hblank]
    rfl
  · constructor
    · rw [printed, he]
    · rw [← stops_respond env, stops, he]

end Feeding

attribute [local instance] PatternCompiler.bySize in
/-- One line is refused, one is blank, and one comes after the exit command. -/
theorem output?_feeding_session :
    let s := "x = 2\r\n1 +\n\nx\nexit\n2"
    let fileText? : String → Option String := fun name => if name = "script" then some s else none
    let shown := ["Assigned - x = 2.0", "Error - Invalid expression - 1 +", "Result > 2.0",
      "Exiting..."]
    ((Options.none.verbose && Options.none.quiet) = false ∧ fileText? "script" = some s) ∧
      output? ["--", s] "" fileText? = some shown ∧
      output? ["--file", "--", "script"] "" fileText? = some shown ∧
      output? [] s fileText? = some (greeting.output ++ shown) := by
  intro s fileText? shown
  have hlevel : (Options.none.verbose && Options.none.quiet) = false := rfl
  have hname : fileText? "script" = some s := if_pos rfl
  have hshown : printedLines Options.none.environment (scriptLines s.toList) = shown := by
    decide +kernel
  have hbackspace : backspace ∉ s.toList := by decide +kernel
  have hgoodbye : goodbye (scriptLines s.toList) = [] := by decide +kernel
  obtain ⟨hargument, hfile, hpipe, htyped, -⟩ := output?_feeding hlevel hname ""
  rw [hshown] at hargument hfile
  rw [htyped hbackspace, hshown, hgoodbye, List.append_nil] at hpipe
  exact ⟨⟨hlevel, hname⟩, hargument, hfile, hpipe⟩

attribute [local instance] PatternCompiler.bySize in
/-- The backspace is refused in an argument, and takes back a digit that comes through a pipe. -/
theorem output?_backspace :
    let s := "1\x082"
    let shown := ["Error - Invalid expression - 1\x082"]
    output? ["--", s] "" (fun _ => none) = some shown ∧
      output? [] s (fun _ => none) = some (greeting.output ++ ["Result > 2.0", "Exiting..."]) ∧
      output? [] s (fun _ => none) ≠
        some (greeting.output ++ (shown ++ goodbye (scriptLines s.toList))) := by
  decide +kernel

end CommandLine

end LineCalculator
