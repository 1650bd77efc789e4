import BlockCheck.Token.Scanner

/-!
# Statements

The seven kinds of statement, one to a line. The first token of a line decides the kind, except that a name needs the
second token as well (`StatementKind.ofCategories?`). A `Placement` says which kinds may stand in the global scope and
which inside a method.
-/

namespace BlockCheck

inductive StatementKind
  | variableDeclaration
  | returnStatement
  /-- The first line of an `if` or `while` block. -/
  | conditional
  | methodDeclaration
  | assignment
  | methodCall
  /-- A closing brace. -/
  | closeBlock
  deriving DecidableEq, Repr

namespace StatementKind

def all : List StatementKind :=
  [.variableDeclaration, .returnStatement, .conditional, .methodDeclaration, .assignment, .methodCall, .closeBlock]

def description : StatementKind → String
  | .variableDeclaration => "variable declaration"
  | .returnStatement => "return statement"
  | .conditional => "conditional block"
  | .methodDeclaration => "method declaration"
  | .assignment => "assignment"
  | .methodCall => "method call"
  | .closeBlock => "closing brace"

/-- The kind of a statement that starts with the given categories. -/
def ofCategories? : Category → Option Category → Option StatementKind
  | .kwFinal, _ | .kwInt, _ | .kwDouble, _ | .kwBoolean, _ | .kwChar, _ | .kwString, _ => some .variableDeclaration
  | .kwReturn, _ => some .returnStatement
  | .kwIf, _ | .kwWhile, _ => some .conditional
  | .kwVoid, _ => some .methodDeclaration
  | .identifier, some .assign => some .assignment
  | .identifier, some .lparen => some .methodCall
  | .rbrace, _ => some .closeBlock
  | _, _ => none

/-- The kind of the statement that starts with the given tokens. -/
def classify (first : Token) (second : Option Token) : Except SyntaxFault StatementKind :=
  match ofCategories? first.category (second.map Token.category) with
  | some kind => .ok kind
  | none => .error (.unknownStatement first.category (second.map Token.category) first.span)

end StatementKind

/-! ## Where statements may stand -/

inductive Placement
  | global
  | methodBody
  deriving DecidableEq, Repr

namespace Placement

def description : Placement → String
  | .global => "in the global scope"
  | .methodBody => "inside a method body"

/-- The kinds of statement that may stand there. -/
def allowed : Placement → List StatementKind
  | .global => [.methodDeclaration, .variableDeclaration, .assignment]
  | .methodBody => [.variableDeclaration, .conditional, .assignment, .returnStatement, .methodCall, .closeBlock]

end Placement

end BlockCheck
