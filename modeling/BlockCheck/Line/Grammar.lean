import BlockCheck.Line.Fault
import BlockCheck.Token.Cursor

/-!
# Statement forms

One rule for each kind of statement. A rule takes the tokens of its form from the cursor and checks the rules of
declaration and type as it goes; a declaration or an assignment changes the scopes. What a line has changed before it
fails stays changed, so the outcome of a step comes with the state it ended in.

`ScopeChain.checkLine` reads one line: it classifies the line by its first two tokens, applies the rule, and requires
that no token is left.
-/

namespace BlockCheck

/-- The scopes a line is checked in, and how far it has been read. -/
structure LineState where
  scopes : ScopeChain
  cursor : Cursor
  deriving DecidableEq, Repr

/-- Steps of checking a line. -/
abbrev LineM := EStateM LineFault LineState

namespace LineM

/-- A step of the cursor; the scopes stay as they are. -/
def ofCursor {α : Type} (m : CursorM α) : LineM α := fun s =>
  match m s.cursor with
  | .ok a cursor => .ok a { s with cursor }
  | .error f cursor => .error (.ofSyntax f) { s with cursor }

/-- A check that reads and changes nothing. -/
def ofRule {α : Type} (e : Except RuleFault α) : LineM α := fun s =>
  match e with
  | .ok a => .ok a s
  | .error f => .error (.ofRule f) s

/-- A check of the spelling of a token. -/
def ofSyntax {α : Type} (e : Except SyntaxFault α) : LineM α := fun s =>
  match e with
  | .ok a => .ok a s
  | .error f => .error (.ofSyntax f) s

instance : MonadLift CursorM LineM := ⟨ofCursor⟩

instance : MonadLift (Except SyntaxFault) LineM := ⟨ofSyntax⟩

instance : MonadLift (Except RuleFault) LineM := ⟨ofRule⟩

/-- Changes the scopes, or fails with the given fault. -/
def changeScopes (change : ScopeChain → Except SymbolFault ScopeChain) (fault : RuleFault) : LineM Unit := fun s =>
  match change s.scopes with
  | .ok scopes => .ok () { s with scopes }
  | .error _ => .error (.ofRule fault) s

/-- A step that is taken on a condition. -/
def when (condition : Bool) (m : LineM Unit) : LineM Unit := if condition then m else pure ()

/-- Fails because the next token is not what is expected. -/
def unexpected {α : Type} (expected : Expected) : LineM α := do
  throw (.ofSyntax ((← get).cursor.unexpected expected))

end LineM

namespace Grammar

open Cursor LineM

/-! ## Values -/

/-- The next token, which must be one that can be a value. It is not taken yet. -/
def upcomingValue : LineM Token := do
  match (← get).cursor.next with
  | some t => if t.category ∈ Category.values then pure t else unexpected .value
  | none => unexpected .value

/-- A name that is used as a value of the type must be that of a variable that can be used so. -/
def requireUsable (type : ValueType) (name : Token) : LineM Unit := do
  (← get).scopes.requireUsable type name

/-- A value for a variable of the type: a literal, or a name whose variable can be used. -/
def value (type : ValueType) : LineM Unit := do
  let t ← upcomingValue
  type.requireAssignable t
  discard (expect t.category)
  when (t.category = .identifier) (requireUsable type t)

/-! ## Variables -/

/-- The sign in front of an initial value. A final variable must have one. -/
def assignSign (isFinal : Bool) : LineM Bool :=
  if isFinal then (fun _ => true) <$> liftM (expect .assign) else advanceIf .assign

/-- A name to be declared and its value. The value is checked before the name is declared, so it cannot use it. -/
def declarator (type : ValueType) (isFinal : Bool) : LineM Unit := do
  let name ← expect .identifier
  let isInitialized ← assignSign isFinal
  when isInitialized (value type)
  changeScopes (·.addVariable name.name ⟨type, isFinal, isInitialized⟩)
    (.variableAlreadyDeclared name.name name.span)

/-- Declarators with commas between them, at most as many as the first argument says. -/
def declarators (type : ValueType) (isFinal : Bool) : Nat → LineM Unit
  | 0 => pure ()
  | n + 1 => do
    declarator type isFinal
    when (← advanceIf .comma) (declarators type isFinal n)

/-- The type keyword of a declaration that starts with the given token. -/
def typeKeyword (first : Token) : LineM Token :=
  if first.category = .kwFinal then expectOneOf ValueType.keywords else pure first

/-- The type of a declaration that starts with the given token. -/
def declaredType (first : Token) : LineM ValueType := do
  let keyword ← typeKeyword first
  match ValueType.ofKeyword? keyword.category with
  | some type => return type
  | none => unexpected (.oneOf ValueType.keywords)

/-- `[final] <type> <name> [= <value>], … ;` -/
def variableDeclaration (first : Token) : LineM Unit := do
  let type ← declaredType first
  declarators type (first.category = .kwFinal) (← get).cursor.bound
  discard (expect .semicolon)

/-- `<name> = <value>;` -/
def assignment (target : Token) : LineM Unit := do
  let v ← (← get).scopes.requireDeclared target
  discard (expect .assign)
  v.requireNonFinal target
  value v.type
  discard (expect .semicolon)
  modify fun s => { s with scopes := s.scopes.initializing target.name }

/-! ## Conditions -/

/-- Boolean values with `&&` or `||` between them, at most as many as the first argument says. -/
def operands : Nat → LineM Unit
  | 0 => pure ()
  | n + 1 => do
    value .boolean
    when (← advanceIfAny [.andAnd, .orOr]).isSome (operands n)

/-- `if (<value> && …) {`, and the same with `while` and with `||`. -/
def conditional : LineM Unit := do
  discard (expect .lparen)
  operands (← get).cursor.bound
  discard (expect .rparen)
  discard (expect .lbrace)

/-! ## Methods -/

/-- `[final] <type> <name>`, added to the parameters so far. -/
def parameter (m : Method) : LineM Method := do
  let isFinal ← advanceIf .kwFinal
  let keyword ← advanceIfAny ValueType.keywords
  match keyword.bind fun t => ValueType.ofKeyword? t.category with
  | none => throw (.ofRule (.missingParameterType ((← get).cursor.next.map Token.span)))
  | some type =>
    let name ← expect .identifier
    match m.addParameter name.name (.parameter type isFinal) with
    | .ok m => return m
    | .error _ => throw (.ofRule (.duplicateParameter name.name name.span))

/-- Parameters with commas between them, at most as many as the first argument says. -/
def parameters : Nat → Method → LineM Method
  | 0, m => pure m
  | n + 1, m => do
    let m ← parameter m
    if ← advanceIf .comma then parameters n m else return m

/-- A method may not have a name that starts with an underscore. -/
def requireMethodName (name : Token) : Except SyntaxFault Unit :=
  match name.text with
  | some text => if text.toList.head? = some '_' then .error (.unknownToken text name.span) else .ok ()
  | none => .ok ()

/-- The parameters and the parenthesis that ends them. -/
def parameterList : LineM Method := do
  if ← advanceIf .rparen then pure {}
  else do
    let m ← parameters (← get).cursor.bound {}
    discard (expect .rparen)
    pure m

/-- `void <name>([final] <type> <name>, …) {` -/
def methodDeclaration : LineM Unit := do
  let name ← expect .identifier
  requireMethodName name
  discard (expect .lparen)
  let m ← parameterList
  discard (expect .lbrace)
  changeScopes (·.addMethod name.name m) (.methodAlreadyDeclared name.name name.span)

/-- The arguments after the first, one for each type. -/
def moreArguments : List ValueType → LineM Unit
  | [] => pure ()
  | type :: types => do
    discard (expect .comma)
    value type
    moreArguments types

/-- Arguments with commas between them, one for each type. -/
def arguments : List ValueType → LineM Unit
  | [] => pure ()
  | type :: types => do
    value type
    moreArguments types

/-- `<name>(<value>, …);` -/
def methodCall (name : Token) : LineM Unit := do
  let m ← (← get).scopes.requireMethod name
  discard (expect .lparen)
  arguments m.parameterTypes
  discard (expect .rparen)
  discard (expect .semicolon)

/-! ## Statements -/

/-- The form of a kind of statement, from after its first token to its last. -/
def form (first : Token) : StatementKind → LineM Unit
  | .variableDeclaration => variableDeclaration first
  | .returnStatement => discard (expect .semicolon)
  | .conditional => conditional
  | .methodDeclaration => methodDeclaration
  | .assignment => assignment first
  | .methodCall => methodCall first
  | .closeBlock => pure ()

/-- A statement that takes up the whole line. -/
def statement (first : Token) (kind : StatementKind) : LineM Unit := do
  form first kind
  finish

end Grammar

/-- The token that starts the line, and the kind of statement that it starts; `none` if there is no token. -/
def Cursor.beginning (c : Cursor) : Except SyntaxFault (Option (Token × StatementKind)) :=
  match c.current with
  | none => .ok none
  | some first =>
    match StatementKind.classify first c.next with
    | .ok kind => .ok (some (first, kind))
    | .error f => .error f

/-- The kind of statement on a line as its first two tokens tell it; `none` if it is blank or a comment. -/
def classifyLine (line : List Char) : Except SyntaxFault (Option StatementKind) := do
  let c ← Cursor.ofLine line
  let beginning ← c.beginning
  return beginning.map Prod.snd

/-- Checks a line in the innermost scope. Gives the kind of statement it holds, `none` if it is blank or a comment,
and the scopes after it, whether it is right or wrong. -/
def ScopeChain.checkLine (scopes : ScopeChain) (line : List Char) :
    Except LineFault (Option StatementKind) × ScopeChain :=
  match Cursor.ofLine line with
  | .error f => (.error (.ofSyntax f), scopes)
  | .ok cursor =>
    match cursor.beginning with
    | .error f => (.error (.ofSyntax f), scopes)
    | .ok none => (.ok none, scopes)
    | .ok (some (first, kind)) =>
      match Grammar.statement first kind ⟨scopes, cursor⟩ with
      | .ok _ s => (.ok (some kind), s.scopes)
      | .error f s => (.error f, s.scopes)

/-- Checks a line that stands at the given place, which must allow its kind of statement. -/
def ScopeChain.checkLineAt (scopes : ScopeChain) (placement : Placement) (line : List Char) :
    Except LineFault (Option StatementKind × ScopeChain) :=
  match scopes.checkLine line with
  | (.error f, _) => .error f
  | (.ok none, scopes) => .ok (none, scopes)
  | (.ok (some kind), scopes) =>
    match kind.requireAllowed placement with
    | .error f => .error (.ofRule f)
    | .ok () => .ok (some kind, scopes)

end BlockCheck
