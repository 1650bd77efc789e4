import BlockCheck.Rule
import Mathlib.Data.List.Forall2

/-!
# Statements as trees

What a line says, apart from how it is read: a `StatementTree` has the declarators, operands, parameters or arguments
of a statement as lists. `StatementTree.Written` is the grammar, as a relation between a tree and the tokens of a
line. `StatementTree.Legal` says which rules of declaration and type the statement must obey in the scopes it stands
in, and `StatementTree.effect` what it makes of them.
-/

namespace BlockCheck

/-! ## Parts of statements -/

/-- A name to be declared, and the value it is declared with. -/
structure Declarator where
  name : Token
  value : Option Token

namespace Declarator

/-- `<name>` or `<name> = <value>` -/
inductive Written : Declarator → List Token → Prop
  | bare {name : Token} : name.category = .identifier → Written ⟨name, none⟩ [name]
  | valued {name sign value : Token} : name.category = .identifier → sign.category = .assign →
      Written ⟨name, some value⟩ [name, sign, value]

/-- The declared variable under its name. -/
def entry (type : ValueType) (isFinal : Bool) (d : Declarator) : String × Variable :=
  (d.name.name, ⟨type, isFinal, d.value.isSome⟩)

end Declarator

/-- A parameter in the head of a method. -/
structure Parameter where
  isFinal : Bool
  type : ValueType
  name : Token

namespace Parameter

/-- `[final] <type> <name>` -/
inductive Written : Parameter → List Token → Prop
  | plain {type : ValueType} {keyword name : Token} : keyword.category = type.keyword →
      name.category = .identifier → Written ⟨false, type, name⟩ [keyword, name]
  | final {type : ValueType} {first keyword name : Token} : first.category = .kwFinal →
      keyword.category = type.keyword → name.category = .identifier →
      Written ⟨true, type, name⟩ [first, keyword, name]

/-- The parameter as a variable under its name. -/
def entry (p : Parameter) : String × Variable := (p.name.name, .parameter p.type p.isFinal)

end Parameter

/-- A token stands for itself. -/
def Token.Written (t : Token) (ts : List Token) : Prop := ts = [t]

/-- At least one item, and a separator between any two. -/
inductive Separated {α : Type} (separators : List Category) (Item : α → List Token → Prop) :
    List α → List Token → Prop
  | one {a : α} {ts : List Token} : Item a ts → Separated separators Item [a] ts
  | more {a : α} {as : List α} {t : Token} {ts us : List Token} : Item a ts → t.category ∈ separators →
      Separated separators Item as us → Separated separators Item (a :: as) (ts ++ t :: us)

/-- Any number of items, and a comma between any two. -/
def Listed {α : Type} (Item : α → List Token → Prop) (as : List α) (ts : List Token) : Prop :=
  as = [] ∧ ts = [] ∨ Separated [.comma] Item as ts

/-! ## The grammar -/

inductive StatementTree
  | variableDeclaration (isFinal : Bool) (type : ValueType) (declarators : List Declarator)
  | returnStatement
  | conditional (operands : List Token)
  | methodDeclaration (name : Token) (parameters : List Parameter)
  | assignment (target value : Token)
  | methodCall (name : Token) (arguments : List Token)
  | closeBlock

namespace StatementTree

def kind : StatementTree → StatementKind
  | variableDeclaration _ _ _ => .variableDeclaration
  | returnStatement => .returnStatement
  | conditional _ => .conditional
  | methodDeclaration _ _ => .methodDeclaration
  | assignment _ _ => .assignment
  | methodCall _ _ => .methodCall
  | closeBlock => .closeBlock

/-- The statement is written with these tokens. -/
inductive Written : StatementTree → List Token → Prop
  /-- `<type> <name> [= <value>], … ;` -/
  | variableDeclaration {type : ValueType} {ds : List Declarator} {keyword stop : Token} {ts : List Token} :
      keyword.category = type.keyword → Separated [.comma] Declarator.Written ds ts → stop.category = .semicolon →
      Written (.variableDeclaration false type ds) (keyword :: (ts ++ [stop]))
  /-- `final <type> <name> = <value>, … ;` -/
  | finalDeclaration {type : ValueType} {ds : List Declarator} {first keyword stop : Token} {ts : List Token} :
      first.category = .kwFinal → keyword.category = type.keyword → Separated [.comma] Declarator.Written ds ts →
      (∀ d ∈ ds, d.value.isSome = true) → stop.category = .semicolon →
      Written (.variableDeclaration true type ds) (first :: keyword :: (ts ++ [stop]))
  /-- `return ;` -/
  | returnStatement {first stop : Token} : first.category = .kwReturn → stop.category = .semicolon →
      Written .returnStatement [first, stop]
  /-- `if ( <value> && … ) {`, and the same with `while` and with `||` -/
  | conditional {operands : List Token} {first left right brace : Token} {ts : List Token} :
      first.category ∈ [.kwIf, .kwWhile] → left.category = .lparen →
      Separated [.andAnd, .orOr] Token.Written operands ts → right.category = .rparen → brace.category = .lbrace →
      Written (.conditional operands) (first :: left :: (ts ++ [right, brace]))
  /-- `void <name> ( [final] <type> <name>, … ) {` -/
  | methodDeclaration {ps : List Parameter} {first name left right brace : Token} {ts : List Token} :
      first.category = .kwVoid → name.category = .identifier → left.category = .lparen →
      Listed Parameter.Written ps ts → right.category = .rparen → brace.category = .lbrace →
      Written (.methodDeclaration name ps) (first :: name :: left :: (ts ++ [right, brace]))
  /-- `<name> = <value> ;` -/
  | assignment {target sign value stop : Token} : target.category = .identifier → sign.category = .assign →
      stop.category = .semicolon → Written (.assignment target value) [target, sign, value, stop]
  /-- `<name> ( <value>, … ) ;` -/
  | methodCall {arguments : List Token} {name left right stop : Token} {ts : List Token} :
      name.category = .identifier → left.category = .lparen → Listed Token.Written arguments ts →
      right.category = .rparen → stop.category = .semicolon →
      Written (.methodCall name arguments) (name :: left :: (ts ++ [right, stop]))
  /-- a lone closing brace -/
  | closeBlock {brace : Token} : brace.category = .rbrace → Written .closeBlock [brace]

end StatementTree

/-! ## The rules -/

namespace ScopeChain

/-- The name resolves to a variable that has a value, and the value may be used as one of type `expected`. -/
def Usable (c : ScopeChain) (expected : ValueType) (name : String) : Prop :=
  ∃ v, c.visibleVariable? name = some v ∧ v.isInitialized = true ∧ v.type ∈ expected.sources

/-- The token is a value of the type: a literal of it, or a name that is usable as one. -/
def Fits (c : ScopeChain) (type : ValueType) (value : Token) : Prop :=
  value.category ∈ type.assignable ∧ (value.category = .identifier → c.Usable type value.name)

/-- The scopes with variables added to the innermost one. -/
def withVariables (c : ScopeChain) (entries : List (String × Variable)) : ScopeChain :=
  c.setInnermost { c.innermost with vars := ⟨c.innermost.vars.entries ++ entries⟩ }

/-- The scopes with the declared variables. -/
def declaring (c : ScopeChain) (isFinal : Bool) (type : ValueType) (ds : List Declarator) : ScopeChain :=
  c.withVariables (ds.map (Declarator.entry type isFinal))

/-- The scopes with a method added to the innermost one. -/
def withMethod (c : ScopeChain) (name : String) (m : Method) : ScopeChain :=
  c.setInnermost { c.innermost with methods := ⟨c.innermost.methods.entries ++ [(name, m)]⟩ }

/-- The rules for declarators: their names are new, and a value may use the declarators before its own. -/
structure Declarable (c : ScopeChain) (isFinal : Bool) (type : ValueType) (ds : List Declarator) : Prop where
  fits : ∀ i d v, ds[i]? = some d → d.value = some v → (c.declaring isFinal type (ds.take i)).Fits type v
  distinct : (ds.map fun d => d.name.name).Nodup
  fresh : ∀ d ∈ ds, c.innermost.vars.contains d.name.name = false

end ScopeChain

namespace StatementTree

/-- The statement obeys the rules of declaration and type in the scopes `c`. -/
def Legal (c : ScopeChain) : StatementTree → Prop
  | variableDeclaration isFinal type ds => c.Declarable isFinal type ds
  | returnStatement => True
  | conditional operands => ∀ v ∈ operands, c.Fits .boolean v
  | methodDeclaration name ps =>
    name.name.toList.head? ≠ some '_' ∧ (ps.map fun p => p.name.name).Nodup ∧
      c.innermost.methods.contains name.name = false
  | assignment target value =>
    ∃ v, c.visibleVariable? target.name = some v ∧ v.isFinal = false ∧ c.Fits v.type value
  | methodCall name arguments =>
    ∃ m, c.visibleMethod? name.name = some m ∧ List.Forall₂ c.Fits m.parameterTypes arguments
  | closeBlock => True

/-- The scopes after the statement. -/
def effect (c : ScopeChain) : StatementTree → ScopeChain
  | variableDeclaration isFinal type ds => c.declaring isFinal type ds
  | methodDeclaration name ps => c.withMethod name.name ⟨⟨ps.map Parameter.entry⟩⟩
  | assignment target _ => c.initializing target.name
  | returnStatement | conditional _ | methodCall _ _ | closeBlock => c

end StatementTree

end BlockCheck
