import BlockCheck.Diagnostic

/-!
# Symbol tables

A symbol table lists names with what they stand for, in the order of their declaration. A name is declared once:
`insert` refuses a name that is there. The order is what gives parameters their positions and methods their numbers,
and no operation changes it (`names_insert`, `names_modify`).
-/

namespace BlockCheck

inductive SymbolFault
  | alreadyDeclared (name : String)
  | notFound (name : String)
  deriving DecidableEq, Repr

def SymbolFault.diagnostic : SymbolFault → Diagnostic
  | .alreadyDeclared name =>
    { message := quoted name ++ " is already declared in this scope"
      code := "sjava::resolve::already_declared"
      help := none
      labels := [] }
  | .notFound name =>
    { message := quoted name ++ " is not declared"
      code := "sjava::resolve::not_found"
      help := none
      labels := [] }

structure SymbolTable (α : Type) where
  /-- Names and symbols in the order of declaration. -/
  entries : List (String × α) := []
  deriving DecidableEq, Repr

namespace SymbolTable

variable {α : Type} (t : SymbolTable α)

def names : List String := t.entries.map Prod.fst

def size : Nat := t.entries.length

def contains (name : String) : Bool := t.names.contains name

def get? (name : String) : Option α := t.entries.lookup name

/-- The entry declared `n`-th, counted from 0. -/
def entry? (n : Nat) : Option (String × α) := t.entries[n]?

/-- What the name stands for. -/
def find (name : String) : Except SymbolFault α :=
  match t.get? name with
  | some a => .ok a
  | none => .error (.notFound name)

/-- Declares a name, which must be new to the table. -/
def insert (name : String) (a : α) : Except SymbolFault (SymbolTable α) :=
  if t.contains name then .error (.alreadyDeclared name) else .ok ⟨t.entries ++ [(name, a)]⟩

/-- Changes what the name stands for, if it is there. -/
def modify (name : String) (f : α → α) : SymbolTable α :=
  ⟨t.entries.map fun e => if e.1 = name then (e.1, f e.2) else e⟩

/-- Changes what the name stands for; it must be there. -/
def update (name : String) (f : α → α) : Except SymbolFault (SymbolTable α) :=
  if t.contains name then .ok (t.modify name f) else .error (.notFound name)

variable {t}

theorem names_insert {t' : SymbolTable α} {name : String} {a : α} (h : t.insert name a = .ok t') :
    t'.names = t.names ++ [name] := by
  unfold insert at h
  split at h
  · cases h
  · cases h; simp [names]

@[simp] theorem names_modify (name : String) (f : α → α) : (t.modify name f).names = t.names := by
  simp only [names, modify, List.map_map]
  exact List.map_congr_left fun e _ => by simp only [Function.comp_apply]; split <;> rfl

/-- The table holds what it can look up. -/
theorem isSome_get? (name : String) : (t.get? name).isSome = t.contains name := by
  obtain ⟨entries⟩ := t
  simp only [get?, contains, names]
  induction entries with
  | nil => rfl
  | cons e es ih =>
    obtain ⟨n, a⟩ := e
    rw [List.lookup_cons, List.map_cons, List.contains_cons]
    cases h : name == n <;> simp [ih]

end SymbolTable

end BlockCheck
