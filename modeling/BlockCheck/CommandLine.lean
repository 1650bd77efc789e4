import BlockCheck.Program.File

/-!
# The command line

`sjava [-v…|-q…] <FILE>` checks one file. The arguments are read from left to right: `-h` asks for help at once,
options may be bundled after one dash, and after `--` every argument is a file. The answer is an exit code and the
lines for the two output streams: 0 for a valid program, 1 for a rejected one, and 2 where the file or the command
line cannot be read.
-/

namespace BlockCheck

/-! ## Arguments -/

/-- What the arguments have asked for so far. -/
structure Options where
  /-- How often more output was asked for. -/
  verbose : Nat := 0
  /-- How often less output was asked for. -/
  quiet : Nat := 0
  file? : Option String := none
  deriving DecidableEq, Repr

/-- Why the arguments cannot be followed. -/
inductive UsageFault
  | unexpectedArgument (argument : String)
  | unexpectedValue (option : String)
  | emptyFile
  | missingFile
  /-- More and less output are both asked for. -/
  | conflictingOptions
  deriving DecidableEq, Repr

inductive Command
  | help
  /-- Check a file, and log the levels up to a rank. -/
  | check (rank : Nat) (path : String)
  deriving DecidableEq, Repr

namespace Options

/-- The options with a file, if they have none yet. -/
def withFile (o : Options) (path : String) : Except UsageFault Options :=
  if o.file?.isSome then .error (.unexpectedArgument path)
  else if path.isEmpty then .error .emptyFile
  else .ok { o with file? := some path }

/-- The options after one option letter; `none` if it asks for help. -/
def withLetter (o : Options) : Char → Except UsageFault (Option Options)
  | 'v' => .ok (some { o with verbose := o.verbose + 1 })
  | 'q' => .ok (some { o with quiet := o.quiet + 1 })
  | 'h' => .ok none
  | c => .error (.unexpectedArgument (String.ofList ['-', c]))

/-- The options after the letters of a bundle; `none` if one asks for help. -/
def withLetters (o : Options) : List Char → Except UsageFault (Option Options)
  | [] => .ok (some o)
  | c :: cs => do
    match ← o.withLetter c with
    | some o => o.withLetters cs
    | none => return none

/-- The options after an option in words, whose name may have a value attached; `none` if it asks for help. -/
def withWord (o : Options) (word : List Char) : Except UsageFault (Option Options) :=
  let name := String.ofList (word.takeWhile (· != '='))
  let known : Option (Option Options) :=
    match name with
    | "verbose" => some (some { o with verbose := o.verbose + 1 })
    | "quiet" => some (some { o with quiet := o.quiet + 1 })
    | "help" => some none
    | _ => none
  match known with
  | none => .error (.unexpectedArgument ("--" ++ name))
  | some o => if word.contains '=' then .error (.unexpectedValue ("--" ++ name)) else .ok o

/-- The options after all arguments, which are files only. -/
def withFiles (o : Options) : List String → Except UsageFault Options
  | [] => .ok o
  | path :: paths => do (← o.withFile path).withFiles paths

/-- The options after all arguments; `none` if one asks for help. -/
def withArguments (o : Options) : List String → Except UsageFault (Option Options)
  | [] => .ok (some o)
  | argument :: arguments => do
    match argument.toList with
    | ['-', '-'] => return some (← o.withFiles arguments)
    | '-' :: '-' :: word =>
      match ← o.withWord word with
      | some o => o.withArguments arguments
      | none => return none
    | '-' :: c :: cs =>
      match ← o.withLetters (c :: cs) with
      | some o => o.withArguments arguments
      | none => return none
    | _ => (← o.withFile argument).withArguments arguments

/-- The command that the options ask for. Without options, errors are logged. -/
def command (o : Options) : Except UsageFault Command :=
  match o.file? with
  | none => .error .missingFile
  | some path =>
    if 0 < o.verbose && 0 < o.quiet then .error .conflictingOptions
    else .ok (.check (LogLevel.error.rank + o.verbose - o.quiet) path)

end Options

/-- The command that the arguments ask for. -/
def Command.ofArguments (arguments : List String) : Except UsageFault Command := do
  match ← Options.withArguments {} arguments with
  | some o => o.command
  | none => return .help

/-! ## Answers -/

/-- How a run ends and what it prints. -/
structure Answer where
  exitCode : UInt32
  /-- Lines for the output stream. -/
  output : List String := []
  /-- Lines for the error stream. -/
  errors : List String := []
  deriving DecidableEq, Repr

def UsageFault.message : UsageFault → String
  | .unexpectedArgument argument => "unexpected argument '" ++ argument ++ "' found"
  | .unexpectedValue option => "unexpected value for '" ++ option ++ "'; no value is taken"
  | .emptyFile => "a value is required for '<FILE>'"
  | .missingFile => "the argument '<FILE>' is missing"
  | .conflictingOptions => "'--verbose' and '--quiet' cannot be used together"

def usage : String := "Usage: sjava [OPTIONS] <FILE>"

def helpLines : List String :=
  ["Static checker for sJava programs",
    "",
    usage,
    "",
    "Arguments:",
    "  <FILE>  Program to check",
    "",
    "Options:",
    "  -v, --verbose...  Increase logging verbosity",
    "  -q, --quiet...    Decrease logging verbosity",
    "  -h, --help        Print help"]

/-- The lines that tell a reader of a diagnostic. -/
def Diagnostic.lines (d : Diagnostic) : List String :=
  [d.code, "  " ++ d.message] ++
    d.labels.map (fun l => s!"  at byte {l.span.offset}, length {l.span.length}: " ++ l.text) ++
    d.help.toList.map ("  help: " ++ ·)

/-- The lines for the entries of a log whose levels are at most of the given rank. -/
def logLines (rank : Nat) (log : List LogEntry) : List String :=
  (log.filter fun e => e.level.rank ≤ rank).map fun e => "[" ++ e.level.name ++ "] " ++ e.message

/-- Checks a file and logs the verdict with the path as it was given. -/
def Command.runFile (path : String) (content : Option ByteArray) : Logged FileFault Report := do
  let report ← checkFile path content
  .tell .info (path ++ ": " ++ report.summary)
  return report

namespace Answer

/-- The answer to arguments that cannot be followed. -/
def ofUsageFault (f : UsageFault) : Answer where
  exitCode := 2
  errors := ["error: " ++ f.message, "", usage, "", "For more information, try '--help'."]

/-- The answer to a call for help. -/
def help : Answer := { exitCode := 0, output := helpLines }

/-- The answer for a file that holds the given bytes. -/
def ofFile (rank : Nat) (path : String) (content : Option ByteArray) : Answer :=
  let result := Command.runFile path content
  match result.outcome with
  | .ok _ => { exitCode := 0, errors := logLines rank result.log }
  | .error f => { exitCode := f.exitCode, errors := logLines rank result.log ++ f.diagnostic.lines }

end Answer

end BlockCheck
