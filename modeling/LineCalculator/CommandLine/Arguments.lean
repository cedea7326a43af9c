import LineCalculator.Event
/-! # Command line arguments

* `Options`: what the arguments ask for.
* `Request.ofArguments?`: reads them. Arguments are taken in order, and the first one that asks for
  the version or cannot be accepted decides; there is nothing to answer in the second case.
-/

namespace LineCalculator.CommandLine
set_option autoImplicit false

/-- What a run is asked to do. -/
structure Options where
  /-- The lines stand in the file of that name. -/
  file : Bool
  /-- All events are logged. -/
  verbose : Bool
  /-- Only warnings are logged. -/
  quiet : Bool
  /-- The session starts without bindings. -/
  noConstants : Bool
  /-- The lines, or the name of their file. Without it, lines are read from standard input. -/
  contents : Option String
deriving DecidableEq, Repr

/-- No argument was given. -/
def Options.none : Options := ⟨false, false, false, false, Option.none⟩

/-- The severity from which on events are logged. -/
def Options.threshold (o : Options) : Severity :=
  if o.verbose then .debug else if o.quiet then .warn else .info

/-- The flags. -/
inductive Flag where
  | file
  | verbose
  | quiet
  | noConstants
  | version
deriving DecidableEq, Repr

namespace Flag

def ofLetter? : Char → Option Flag
  | 'f' => some file
  | 'v' => some verbose
  | 'q' => some quiet
  | 'V' => some version
  | _ => none

def ofWord? (word : String) : Option Flag :=
  if word = "file" then some file
  else if word = "verbose" then some verbose
  else if word = "quiet" then some quiet
  else if word = "no-constants" then some noConstants
  else if word = "version" then some version
  else none

end Flag

/-- What the arguments ask for. -/
inductive Request where
  /-- To print the version. -/
  | version
  | run (options : Options)
deriving DecidableEq, Repr

namespace Request

/-! ## Accepting arguments one by one

Each function takes the options so far and tells what is asked for with one more argument. -/

/-- Accepts a flag, which may be given once. -/
def accept? (o : Options) : Flag → Option Request
  | .file => if o.file then none else some (.run { o with file := true })
  | .verbose => if o.verbose then none else some (.run { o with verbose := true })
  | .quiet => if o.quiet then none else some (.run { o with quiet := true })
  | .noConstants => if o.noConstants then none else some (.run { o with noConstants := true })
  | .version => some .version

/-- Accepts joined flags of one letter each. -/
def acceptLetters? (o : Options) : List Char → Option Request
  | [] => some (.run o)
  | c :: cs =>
    match (Flag.ofLetter? c).bind (accept? o) with
    | none => none
    | some .version => some .version
    | some (.run o) => acceptLetters? o cs

/-- Accepts the lines or the file name, which may be given once. -/
def acceptContents? (o : Options) (argument : String) : Option Request :=
  match o.contents with
  | none => some (.run { o with contents := some argument })
  | some _ => none

/-- Accepts an argument that is not after the end of the flags. A hyphen alone is no flag. -/
def acceptArgument? (o : Options) (argument : String) : Option Request :=
  match argument.toList with
  | '-' :: '-' :: word => (Flag.ofWord? (String.ofList word)).bind (accept? o)
  | '-' :: c :: cs => acceptLetters? o (c :: cs)
  | _ => acceptContents? o argument

/-- Accepts the arguments in order; two hyphens end the flags. -/
def acceptAll? (o : Options) (flagsEnded : Bool) : List String → Option Request
  | [] => some (.run o)
  | argument :: rest =>
    if !flagsEnded && argument = "--" then acceptAll? o true rest
    else
      match if flagsEnded then acceptContents? o argument else acceptArgument? o argument with
      | none => none
      | some .version => some .version
      | some (.run o) => acceptAll? o flagsEnded rest

/-- What the arguments ask for; nothing if they are refused. Verbose and quiet exclude each
other. -/
def ofArguments? (arguments : List String) : Option Request :=
  match acceptAll? .none false arguments with
  | some (.run o) => if o.verbose && o.quiet then none else some (.run o)
  | other => other

end Request

end LineCalculator.CommandLine
