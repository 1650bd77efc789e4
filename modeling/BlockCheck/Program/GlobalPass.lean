import BlockCheck.Line.Grammar
import BlockCheck.Program.Log
import BlockCheck.Program.Rejection

/-!
# The pass over the global scope

The first pass reads the lines outside of methods. It collects the global variables and the methods, and the lines
that declare methods; of the lines inside methods it only counts the braces.
-/

namespace BlockCheck

open Text (trim)

/-- What the log says of a line that is about to be checked: the kind of its statement, if that is known. -/
def lineLog (scopes : ScopeChain) (line : List Char) : List LogEntry :=
  match classifyLine line with
  | .ok (some kind) =>
    [⟨.trace, s!"Parsing {kind.description} in scope ScopeId({scopes.last}): " ++ String.ofList (trim line)⟩]
  | _ => []

/-- What the pass has collected. -/
structure GlobalPass where
  scopes : ScopeChain := .empty
  tracker : Tracker := ⟨.countOnly, 0⟩
  /-- The numbers of the lines that declare methods, in order. -/
  headers : List Nat := []
  deriving DecidableEq, Repr

namespace GlobalPass

/-- Checks a line outside of methods. -/
def readLine (p : GlobalPass) (line : NumberedLine) : Except LineFault GlobalPass :=
  if closesBlock line.chars then .error (.ofBlock .mismatchedBraces)
  else
    match p.scopes.checkLineAt .global line.chars with
    | .error f => .error f
    | .ok (kind?, scopes) =>
      .ok { p with
        scopes
        headers := if kind? = some .methodDeclaration then p.headers ++ [line.number] else p.headers }

/-- Counts the braces of a line. -/
def track (p : GlobalPass) (line : NumberedLine) : Except LineFault GlobalPass :=
  match p.tracker.accept line.chars p.scopes with
  | .error f => .error (.ofBlock f)
  | .ok (_, tracker, scopes) => .ok { p with tracker, scopes }

/-- Takes a line into account: checks it if it is outside of methods, and counts its braces. -/
def step (p : GlobalPass) (line : NumberedLine) : Except LineFault GlobalPass := do
  let p ← (if p.tracker.isGlobal then p.readLine line else .ok p)
  p.track line

/-- What the log says of a line. -/
def stepLog (p : GlobalPass) (line : NumberedLine) : List LogEntry :=
  if p.tracker.isGlobal && !closesBlock line.chars then lineLog p.scopes line.chars else []

/-- Takes all lines into account, up to the first fault. -/
def run (source : Source) : GlobalPass → List NumberedLine → Logged Rejection GlobalPass
  | p, [] => pure p
  | p, line :: lines => do
    let p ← ⟨p.stepLog line, (p.step line).mapError (.on source line.number)⟩
    run source p lines

end GlobalPass

/-- The pass over all lines of a source. At its end no block may be open. -/
def readGlobals (source : Source) : Logged Rejection GlobalPass := do
  let p ← GlobalPass.run source {} source.numberedLines
  if p.tracker.isGlobal then
    .tell .debug s!"Global scope holds {p.scopes.root.vars.size} variables and {p.headers.length} methods"
    return p
  else .fail (.on source source.lineCount (.ofBlock .mismatchedBraces))

end BlockCheck
