import BlockCheck.Proofs.Line.StatementTree
import BlockCheck.Line.Grammar

/-!
# Programs as trees of blocks

A program taken apart by structure instead of by line: a list of items, each a line outside of methods or a whole
method, and in a method a `Block` for every nesting of braces. `lines` puts a tree back together. `Block.check` and
`MethodTree.check` check a tree by recursion on it, with one scope for each block that is around; nothing is counted.
`Accepted` is the verdict on a whole program.
-/

namespace BlockCheck

/-! ## Single lines -/

/-- The line is empty, holds blanks only, or is a comment. -/
def isBlankLine (line : List Char) : Bool := isComment line || Text.allBlank line

/-- The line is a closing brace, blanks around it apart. -/
def isClosingLine (line : List Char) : Bool := Text.trim line == ['\x7d']

/-- The scopes after a line that must hold a statement of one of the kinds. -/
def ScopeChain.takeLine (c : ScopeChain) (kinds : List StatementKind) (line : List Char) : Option ScopeChain :=
  match c.checkLine line with
  | (.ok (some kind), c') => if kind ∈ kinds then some c' else none
  | _ => none

/-- The method that a line declares, told from this line alone. -/
def declaredMethod? (line : List Char) : Option Method :=
  (ScopeChain.empty.takeLine [.methodDeclaration] line).bind fun c =>
    c.innermost.methods.entries.head?.map Prod.snd

/-! ## Blocks -/

/-- The lines of a block in order, each with what follows it. -/
inductive Block
  | nil
  | blank (line : List Char) (rest : Block)
  /-- A statement of the kind, on a line of its own. -/
  | statement (kind : StatementKind) (line : List Char) (rest : Block)
  /-- The first line of a conditional block, the lines inside, and the closing line. -/
  | conditional (head : List Char) (body : Block) (close : List Char) (rest : Block)

namespace Block

def lines : Block → List (List Char)
  | nil => []
  | blank line rest => line :: rest.lines
  | statement _ line rest => line :: rest.lines
  | conditional head body close rest => head :: (body.lines ++ close :: rest.lines)

/-- The kinds of statement that stand on a line of their own. -/
def kinds : List StatementKind := [.variableDeclaration, .assignment, .methodCall, .returnStatement]

/-- Checks a block in the given scopes. The condition of a conditional block is checked in the scopes around it, its
lines in one scope more, which is dropped at its end. -/
def check : Block → ScopeChain → Option ScopeChain
  | nil, c => some c
  | blank line rest, c => if isBlankLine line then rest.check c else none
  | statement kind line rest, c => if kind ∈ kinds then (c.takeLine [kind] line).bind rest.check else none
  | conditional head body close rest, c =>
    (c.takeLine [.conditional] head).bind fun c =>
      (body.check c.push).bind fun inner =>
        inner.pop?.bind fun outer => if isClosingLine close then rest.check outer else none

end Block

/-! ## Methods and programs -/

/-- A method: its first line, the statements up to the last `return;`, blank lines, and the closing line. -/
structure MethodTree where
  header : List Char
  body : Block
  finish : List Char
  blanks : List (List Char)
  close : List Char

namespace MethodTree

def lines (m : MethodTree) : List (List Char) := m.header :: (m.body.lines ++ m.finish :: (m.blanks ++ [m.close]))

/-- Checks a method in the given global scopes, with one scope for the parameters and what the body declares. -/
def check (m : MethodTree) (globals : ScopeChain) : Bool :=
  match declaredMethod? m.header with
  | none => false
  | some method =>
    match m.body.check (globals.push.withVariables method.parameters.entries) with
    | none => false
    | some c =>
      (c.takeLine [.returnStatement] m.finish).isSome && m.blanks.all isBlankLine && isClosingLine m.close

end MethodTree

/-- What stands outside of methods. -/
inductive Item
  | blank (line : List Char)
  | global (line : List Char)
  | method (m : MethodTree)

namespace Item

def lines : Item → List (List Char)
  | blank line => [line]
  | global line => [line]
  | method m => m.lines

/-- The global scopes after the item. Of a method only the first line matters. -/
def declare (c : ScopeChain) : Item → Option ScopeChain
  | blank line => if isBlankLine line then some c else none
  | global line => c.takeLine [.variableDeclaration, .assignment] line
  | method m => c.takeLine [.methodDeclaration] m.header

def check (globals : ScopeChain) : Item → Bool
  | blank _ | global _ => true
  | method m => m.check globals

end Item

/-- The global scopes after all items in order. -/
def globalsOf (c : ScopeChain) (items : List Item) : Option ScopeChain := items.foldlM Item.declare c

/-- A program is accepted if its global declarations are right, and then every method is. -/
def Accepted (items : List Item) : Prop :=
  ∃ globals, globalsOf .empty items = some globals ∧ ∀ item ∈ items, item.check globals = true

end BlockCheck
