import BlockCheck.Scope.Symbol

/-!
# Scope chains

The scopes that are open at a place of a program, from the innermost block out to the global scope. Names are looked
up from the inside out, so the innermost declaration wins; declarations go into the innermost scope.

Scopes are numbered from the outside: the global scope is 0 and the innermost is `last`. `outward? n` is the chain as
it is seen from scope `n`, and `atScope n` applies an operation there.
-/

namespace BlockCheck

/-- The declarations of one block. -/
structure Scope where
  vars : SymbolTable Variable := {}
  methods : SymbolTable Method := {}
  deriving DecidableEq, Repr

inductive ScopeChain
  | global (scope : Scope)
  /-- A block inside the scopes of `outer`. -/
  | block (scope : Scope) (outer : ScopeChain)
  deriving DecidableEq, Repr

namespace ScopeChain

/-- The chain before any declaration. -/
def empty : ScopeChain := .global {}

/-- The number of the innermost scope. -/
def last : ScopeChain → Nat
  | .global _ => 0
  | .block _ outer => outer.last + 1

/-- The number of open scopes. -/
def depth (c : ScopeChain) : Nat := c.last + 1

def innermost : ScopeChain → Scope
  | .global s => s
  | .block s _ => s

def root : ScopeChain → Scope
  | .global s => s
  | .block _ outer => outer.root

/-- The scopes from the global one inwards. -/
def toList : ScopeChain → List Scope
  | .global s => [s]
  | .block s outer => outer.toList ++ [s]

/-- The number of the scope around scope `n`. -/
def parent? : Nat → Option Nat
  | 0 => none
  | n + 1 => some n

theorem length_toList (c : ScopeChain) : c.toList.length = c.depth := by
  induction c with
  | global => rfl
  | block s outer ih => simp [toList, ih, depth, last]

/-! ## Opening and closing blocks -/

/-- Opens an empty block. -/
def push (c : ScopeChain) : ScopeChain := .block {} c

/-- Closes the innermost block. The global scope is never closed. -/
def pop? : ScopeChain → Option ScopeChain
  | .global _ => none
  | .block _ outer => some outer

/-- A chain of its own that starts with the global declarations. -/
def restart (c : ScopeChain) : ScopeChain := .global c.root

/-! ## Declaring -/

/-- Replaces the innermost scope. -/
def setInnermost (c : ScopeChain) (s : Scope) : ScopeChain :=
  match c with
  | .global _ => .global s
  | .block _ outer => .block s outer

/-- Declares a variable in the innermost scope. -/
def addVariable (c : ScopeChain) (name : String) (v : Variable) : Except SymbolFault ScopeChain := do
  let vars ← c.innermost.vars.insert name v
  return c.setInnermost { c.innermost with vars }

/-- Declares a method in the innermost scope. -/
def addMethod (c : ScopeChain) (name : String) (m : Method) : Except SymbolFault ScopeChain := do
  let methods ← c.innermost.methods.insert name m
  return c.setInnermost { c.innermost with methods }

/-! ## Looking up -/

/-- The innermost variable of the name. -/
def visibleVariable? (name : String) : ScopeChain → Option Variable
  | .global s => s.vars.get? name
  | .block s outer => s.vars.get? name <|> outer.visibleVariable? name

/-- The innermost method of the name. -/
def visibleMethod? (name : String) : ScopeChain → Option Method
  | .global s => s.methods.get? name
  | .block s outer => s.methods.get? name <|> outer.visibleMethod? name

def lookupVariable (c : ScopeChain) (name : String) : Except SymbolFault Variable :=
  match c.visibleVariable? name with
  | some v => .ok v
  | none => .error (.notFound name)

def lookupMethod (c : ScopeChain) (name : String) : Except SymbolFault Method :=
  match c.visibleMethod? name with
  | some m => .ok m
  | none => .error (.notFound name)

/-- The global method declared `n`-th, counted from 0. -/
def methodAt? (c : ScopeChain) (n : Nat) : Option (String × Method) := c.root.methods.entry? n

/-- Marks the innermost variable of the name initialized, if there is one. -/
def initializing (name : String) : ScopeChain → ScopeChain
  | .global s => .global { s with vars := s.vars.modify name .markInitialized }
  | .block s outer =>
    if s.vars.contains name then
      .block { s with vars := s.vars.modify name .markInitialized } outer
    else .block s (outer.initializing name)

/-- Marks the innermost variable of the name initialized; there must be one. -/
def markInitialized (c : ScopeChain) (name : String) : Except SymbolFault ScopeChain := do
  discard (c.lookupVariable name)
  return c.initializing name

/-! ## Numbered scopes -/

/-- The chain as it is seen from scope `n`; `none` if there is no such scope. -/
def outward? (n : Nat) : ScopeChain → Option ScopeChain
  | .global s => if n = 0 then some (.global s) else none
  | .block s outer => if n = outer.last + 1 then some (.block s outer) else outer.outward? n

/-- Applies an operation to the chain as it is seen from scope `n`, and keeps the scopes inside of it. `none` if there
is no such scope. -/
def atScope {ε : Type} (n : Nat) (f : ScopeChain → Except ε ScopeChain) :
    ScopeChain → Option (Except ε ScopeChain)
  | .global s => if n = 0 then some (f (.global s)) else none
  | .block s outer =>
    if n = outer.last + 1 then some (f (.block s outer)) else (outer.atScope n f).map (ScopeChain.block s <$> ·)

theorem outward?_last (c : ScopeChain) : c.outward? c.last = some c := by
  cases c <;> simp [outward?, last]

/-- The scopes that can be named are those up to the innermost. -/
theorem isSome_outward? (c : ScopeChain) (n : Nat) : (c.outward? n).isSome = decide (n ≤ c.last) := by
  induction c with
  | global s => cases n <;> simp [outward?, last]
  | block s outer ih =>
    simp only [outward?, last]
    split
    · next h => simp [h]
    · next h => rw [ih]; exact decide_eq_decide.2 (by omega)

end ScopeChain

end BlockCheck
