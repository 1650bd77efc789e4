import BlockCheck.Program.GlobalPass

/-!
# The pass over a method

A method is checked on its own: from a fresh copy of the global declarations, with a scope for the body that holds the
parameters, line by line until the block that its first line opened is closed. The last two statements must be
`return;` and the closing brace; blank lines and comments are no statements.
-/

namespace BlockCheck

/-- How far the body of a method has been checked. -/
structure MethodPass where
  scopes : ScopeChain
  tracker : Tracker := ⟨.switching, 0⟩
  /-- The statement before the last one. -/
  previous : Option StatementKind := none
  last : Option StatementKind := none
  deriving DecidableEq, Repr

namespace MethodPass

/-- Follows the braces of a line. -/
def track (p : MethodPass) (line : List Char) : Except LineFault MethodPass :=
  match p.tracker.accept line p.scopes with
  | .error f => .error (.ofBlock f)
  | .ok (_, tracker, scopes) => .ok { p with tracker, scopes }

/-- Checks a line in the innermost scope. -/
def readLine (p : MethodPass) (line : List Char) : Except LineFault MethodPass :=
  match p.scopes.checkLineAt .methodBody line with
  | .error f => .error f
  | .ok (none, scopes) => .ok { p with scopes }
  | .ok (some kind, scopes) => .ok { p with scopes, previous := p.last, last := some kind }

/-- Takes a line of the body into account: first its braces, then its statement. -/
def step (p : MethodPass) (line : List Char) : Except LineFault MethodPass := do
  let p ← p.track line
  p.readLine line

/-- The statements end as those of a method must. -/
def endsWithReturn (p : MethodPass) : Bool := p.previous = some .returnStatement && p.last = some .closeBlock

/-! ## What is logged -/

/-- What the log says of the braces of a line. -/
def trackLog (p : MethodPass) (line : List Char) : List LogEntry :=
  match p.tracker.accept line p.scopes with
  | .ok (.opened, _, scopes) => [⟨.trace, s!"Opened scope ScopeId({scopes.last})"⟩]
  | .ok (.closed, _, _) => [⟨.trace, s!"Closed scope ScopeId({p.scopes.last})"⟩]
  | _ => []

/-- What the log says of a line. -/
def stepLog (p : MethodPass) (line : List Char) : List LogEntry :=
  p.trackLog line ++
    match p.track line with
    | .ok p => lineLog p.scopes line
    | .error _ => []

/-! ## The body -/

/-- Checks lines until no block is open. Gives the line that closes the last one, if there is one. -/
def run (source : Source) : MethodPass → List NumberedLine → Logged Rejection (Option (Nat × MethodPass))
  | _, [] => pure none
  | p, line :: lines => do
    let p ← ⟨p.stepLog line.chars, (p.step line.chars).mapError (.on source line.number)⟩
    if p.tracker.isGlobal then return some (line.number, p) else run source p lines

/-- Declares parameters in the scope of the body. -/
def declare (p : MethodPass) (parameters : List (String × Variable)) : Except SymbolFault MethodPass := do
  let scopes ← parameters.foldlM (fun (c : ScopeChain) e => c.addVariable e.1 e.2) p.scopes
  return { p with scopes }

/-- Opens the scope of the body with the first line of the method and declares the parameters. -/
def enter (p : MethodPass) (header : List Char) (name : String) (m : Method) : Except LineFault MethodPass := do
  let p ← p.track header
  (p.declare m.parameters.entries).mapError fun _ => .ofBlock (.parametersNotInScope name)

end MethodPass

/-- Checks the body of the method that is declared `ordinal`-th, on the given line. -/
def checkMethod (source : Source) (globals : ScopeChain) (ordinal declaration : Nat) : Logged Rejection Unit :=
  match globals.methodAt? ordinal with
  | none => .fail (.on source declaration (.ofBlock (.parametersNotInScope s!"method #{ordinal + 1}")))
  | some (name, m) => do
    .tell .debug ("Checking method " ++ quoted name ++ s!" declared on line {declaration}")
    let start : MethodPass := { scopes := globals.restart }
    let header := (source.line? declaration).getD []
    let p ← ⟨start.trackLog header, (start.enter header name m).mapError (.on source declaration)⟩
    match ← p.run source (source.linesFrom (declaration + 1)) with
    | none => .fail (.on source source.lineCount (.ofBlock .mismatchedBraces))
    | some (closing, p) =>
      if p.endsWithReturn then .tell .trace ("Method " ++ quoted name ++ s!" ends on line {closing}")
      else .fail (.on source closing (.ofBlock (.missingReturn name)))

/-- Checks the bodies of methods that are declared on the given lines, in order, the first of them `ordinal`-th. -/
def checkMethods (source : Source) (globals : ScopeChain) : (ordinal : Nat) → List Nat → Logged Rejection Unit
  | _, [] => pure ()
  | ordinal, declaration :: rest => do
    checkMethod source globals ordinal declaration
    checkMethods source globals (ordinal + 1) rest

end BlockCheck
