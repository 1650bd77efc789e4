import BlockCheck.Program.MethodPass

/-!
# Checking a program

A program is checked in two passes: the lines outside of methods first, so that a method may use what is declared
after it, then every method in the order of declaration. The first fault ends the run. `check` gives the verdict, and
`run` gives it together with the log.
-/

namespace BlockCheck

/-- What is known of a program without faults. -/
structure Report where
  /-- The number of lines. -/
  lines : Nat
  /-- The global variables in the order of declaration. -/
  globals : List String
  /-- The methods in the order of declaration. -/
  methods : List String
  deriving DecidableEq, Repr

namespace Report

def summary (r : Report) : String :=
  s!"{r.lines} lines, {r.globals.length} global variables, {r.methods.length} methods"

/-- The report on a source with the given global declarations. -/
def of (source : Source) (globals : Scope) : Report where
  lines := source.lineCount
  globals := globals.vars.names
  methods := globals.methods.names

end Report

/-- Checks a program and logs the run. -/
def run (source : Source) : Logged Rejection Report := do
  .tell .debug ("Checking " ++ source.name)
  let p ← readGlobals source
  checkMethods source p.scopes 0 p.headers
  let report := Report.of source p.scopes.root
  .tell .info (source.name ++ " is valid: " ++ report.summary)
  return report

/-- Checks a program. -/
def check (source : Source) : Except Rejection Report := (run source).outcome

end BlockCheck
