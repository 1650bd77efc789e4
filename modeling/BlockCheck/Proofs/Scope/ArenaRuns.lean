import BlockCheck.Proofs.Line.ScopeChanges
import BlockCheck.Proofs.Scope.Arena
import Mathlib.Logic.Relation

/-!
# Runs over an arena

A tree of scopes is worked on by calls that open and close scopes, declare names and mark variables at any open scope,
check lines in the current scope and copy the tree (`TreeCall`). What a call does to an arena is said by
`Arena.Step`; a walk that never ends or a scope that is missing leaves it without a result.

One step over the arena of a chain is the operation on the chain (`ScopeChain.step_arena`), and so is a run
(`ScopeChain.runs_arena`). Hence every arena that is reached is stacked, every call at a scope that exists has one
result, and lookups find the innermost declaration (`scope_arena_invariant`).
-/

namespace BlockCheck

/-! ## Changes at one scope -/

namespace Scope

/-- Declares a variable in the scope. -/
def addVariable (s : Scope) (name : String) (v : Variable) : Except SymbolFault Scope := do
  let vars ← s.vars.insert name v
  return { s with vars }

/-- Declares a method in the scope. -/
def addMethod (s : Scope) (name : String) (m : Method) : Except SymbolFault Scope := do
  let methods ← s.methods.insert name m
  return { s with methods }

end Scope

/-- A change of a tree of scopes at one of them. -/
inductive ScopeEdit
  | addVariable (name : String) (v : Variable)
  | addMethod (name : String) (m : Method)
  /-- Mark the variable initialized that is visible under the name. -/
  | mark (name : String)
  deriving DecidableEq, Repr

/-- What the change comes to in the innermost scope of a chain. -/
def ScopeEdit.onChain (c : ScopeChain) : ScopeEdit → Except SymbolFault ScopeChain
  | addVariable name v => c.addVariable name v
  | addMethod name m => c.addMethod name m
  | mark name => c.markInitialized name

namespace Arena

/-- What marking comes to where this is found: the variable is marked where it stands. -/
def markingFound (a : Arena) (name : String) : Option (Nat × Variable) → Except SymbolFault Arena
  | some (n, _) => .ok (a.marking n name)
  | none => .error (.notFound name)

/-- What the change comes to at scope `n`: a changed arena or a fault. -/
inductive Edits (a : Arena) (n : Nat) : ScopeEdit → Except SymbolFault Arena → Prop
  | addVariable {name : String} {v : Variable} {r : Except SymbolFault Arena} :
      a.atCell n (·.addVariable name v) = some r → Edits a n (.addVariable name v) r
  | addMethod {name : String} {m : Method} {r : Except SymbolFault Arena} :
      a.atCell n (·.addMethod name m) = some r → Edits a n (.addMethod name m) r
  | mark {name : String} {found : Option (Nat × Variable)} : a.Walk (·.vars.get? name) (some n) found →
      Edits a n (.mark name) (a.markingFound name found)

/-- The chain of scopes that is found when the numbers are followed outwards from scope `n`. -/
inductive Shows (a : Arena) : Nat → ScopeChain → Prop
  | global {n : Nat} {s : Scope} : a.cells[n]? = some ⟨none, s⟩ → Shows a n (.global s)
  | block {n m : Nat} {s : Scope} {outer : ScopeChain} : a.cells[n]? = some ⟨some m, s⟩ → Shows a m outer →
      Shows a n (.block s outer)

/-- Changes of the current scope one after the other, none of which fails. -/
def Changes : Arena → Arena → Prop := Relation.ReflTransGen fun a a' => ∃ e, a.Edits a.current e (.ok a')

end Arena

/-! ## Calls -/

inductive TreeCall
  | push
  | pop
  /-- Go on with the copy of the tree. -/
  | duplicate
  | edit (n : Nat) (e : ScopeEdit)
  | parse (line : List Char)
  deriving DecidableEq, Repr

/-- What the call makes of a chain. A change that fails makes nothing of it, and there is no result if it is to be made
at a scope that does not exist. -/
def TreeCall.onChain (c : ScopeChain) : TreeCall → Option ScopeChain
  | push => some c.push
  | pop => some (c.pop?.getD c)
  | duplicate => some c.restart
  | edit n e => (c.atScope n e.onChain).map fun r => r.toOption.getD c
  | parse line => some (c.checkLine line).2

/-- The scope at which the call is made exists. -/
def TreeCall.IsOpen (a : Arena) : TreeCall → Prop
  | edit n _ => n < a.cells.length
  | push | pop | duplicate | parse _ => True

namespace Arena

/-- What the call makes of the arena. A line is checked in the chain that the current scope shows, and what it does is
done by changes of the current scope. -/
inductive Step (a : Arena) : TreeCall → Arena → Prop
  | push : Step a .push a.push
  | pop {closed : Option Nat} {a' : Arena} : a.pop? = some (closed, a') → Step a .pop a'
  | duplicate {a' : Arena} : a.duplicate? = some a' → Step a .duplicate a'
  | edit {n : Nat} {e : ScopeEdit} {r : Except SymbolFault Arena} : a.Edits n e r →
      Step a (.edit n e) (r.toOption.getD a)
  | parse {c : ScopeChain} {line : List Char} {a' : Arena} : a.Shows a.current c → Changes a a' →
      a'.Shows a'.current (c.checkLine line).2 → Step a (.parse line) a'

/-- A scope that is changed exists. -/
theorem Edits.lt_length {a : Arena} {n : Nat} {e : ScopeEdit} {r : Except SymbolFault Arena} (h : a.Edits n e r) :
    n < a.cells.length := by
  have hcell : ∀ {f : Scope → Except SymbolFault Scope}, a.atCell n f = some r → n < a.cells.length := fun hr => by
    obtain ⟨cell, hcell, -⟩ := Option.map_eq_some_iff.1 hr
    exact (List.getElem?_eq_some_iff.1 hcell).1
  cases h with
  | addVariable h => exact hcell h
  | addMethod h => exact hcell h
  | mark h => exact h.lt_length

/-- The calls lead from one arena to the other. -/
inductive Runs : List TreeCall → Arena → Arena → Prop
  | nil {a : Arena} : Runs [] a a
  | cons {call : TreeCall} {calls : List TreeCall} {a a' a'' : Arena} : a.Step call a' → Runs calls a' a'' →
      Runs (call :: calls) a a''

theorem Shows.unique {a : Arena} {n : Nat} {c c' : ScopeChain} (h : a.Shows n c) (h' : a.Shows n c') : c = c' := by
  induction h generalizing c' with
  | global hcell =>
    cases h' with
    | global hcell' => cases hcell.symm.trans hcell'; rfl
    | block hcell' => cases hcell.symm.trans hcell'
  | block hcell _ ih =>
    cases h' with
    | global hcell' => cases hcell.symm.trans hcell'
    | block hcell' houter =>
      cases hcell.symm.trans hcell'
      rw [ih houter]

end Arena

/-- The answer to a lookup that has found this. -/
def lookedUp {β : Type} (name : String) : Option (Nat × β) → Except SymbolFault β
  | some (_, b) => .ok b
  | none => .error (.notFound name)

/-- Looking the name up from scope `n` ends, in one way only: with the entry of the last of the scopes up to `n` that
hold the name, and with a fault if none of them does. -/
def Arena.LooksUp {β : Type} (a : Arena) (get : Scope → Option β) (n : Nat) (name : String)
    (answer : Except SymbolFault β) : Prop :=
  ∃ found, a.FoundLast get n found ∧ (∀ r, a.Walk get (some n) r ↔ r = found) ∧ answer = lookedUp name found

/-! ## Over the arena of a chain -/

namespace ScopeChain

variable {c c' inner : ScopeChain} {n : Nat} {name : String} {e : ScopeEdit} {call : TreeCall} {a' : Arena}

theorem lookupVariable_eq (c : ScopeChain) (name : String) :
    c.lookupVariable name = lookedUp name (c.nearest? (·.vars.get? name)) := by
  rw [lookupVariable, visibleVariable?_eq]
  cases c.nearest? (·.vars.get? name) <;> rfl

theorem lookupMethod_eq (c : ScopeChain) (name : String) :
    c.lookupMethod name = lookedUp name (c.nearest? (·.methods.get? name)) := by
  rw [lookupMethod, visibleMethod?_eq]
  cases c.nearest? (·.methods.get? name) <;> rfl

/-- Marking the variable that is nearest, if there is one. -/
theorem markInitialized_eq (c : ScopeChain) (name : String) : c.markInitialized name =
    match c.nearest? (·.vars.get? name) with
    | some _ => .ok (c.initializing name)
    | none => .error (.notFound name) := by
  rw [markInitialized, lookupVariable_eq]
  cases c.nearest? (·.vars.get? name) <;> rfl

theorem addVariable_eq (c : ScopeChain) (name : String) (v : Variable) :
    c.addVariable name v = c.setInnermost <$> c.innermost.addVariable name v := by
  rw [addVariable, Scope.addVariable]
  cases c.innermost.vars.insert name v <;> rfl

theorem addMethod_eq (c : ScopeChain) (name : String) (m : Method) :
    c.addMethod name m = c.setInnermost <$> c.innermost.addMethod name m := by
  rw [addMethod, Scope.addMethod]
  cases c.innermost.methods.insert name m <;> rfl

/-- Marking in the cell where the name is found is marking in the chain. -/
theorem markingFound_extend (inner : ScopeChain) (rest : List Scope) (name : String) :
    (inner.extend rest).arena.markingFound name (inner.nearest? (·.vars.get? name)) =
      (fun c => (c.extend rest).arena) <$> inner.markInitialized name := by
  rw [markInitialized_eq]
  cases hnearest : inner.nearest? (·.vars.get? name) with
  | none => rfl
  | some mv => exact congrArg Except.ok (arena_initializing rest hnearest).symm

/-- **A change in the arena is the change in the chain** as it is seen from the scope. -/
theorem edits_extend (inner : ScopeChain) (rest : List Scope) {r : Except SymbolFault Arena} :
    (inner.extend rest).arena.Edits inner.last e r ↔ r = (fun c => (c.extend rest).arena) <$> e.onChain inner := by
  constructor
  · intro h
    cases h with
    | addVariable h =>
      rw [atCell_extend, ← addVariable_eq] at h
      exact (Option.some.inj h).symm
    | addMethod h =>
      rw [atCell_extend, ← addMethod_eq] at h
      exact (Option.some.inj h).symm
    | mark hwalk =>
      rw [hwalk.unique (walk_extend _ inner rest)]
      exact markingFound_extend inner rest _
  · rintro rfl
    cases e with
    | addVariable name v => exact .addVariable (by rw [atCell_extend, ← addVariable_eq]; rfl)
    | addMethod name m => exact .addMethod (by rw [atCell_extend, ← addMethod_eq]; rfl)
    | mark name =>
      have h := Arena.Edits.mark (walk_extend (·.vars.get? name) inner rest)
      rwa [markingFound_extend] at h

/-- A change of the current scope of an arena is a change of the innermost scope. -/
theorem edits_current : c.arena.Edits c.arena.current e (.ok a') ↔ ∃ c', e.onChain c = .ok c' ∧ a' = c'.arena := by
  refine (edits_extend c []).trans ?_
  cases e.onChain c <;> simp [extend, eq_comm]

theorem shows_extend (inner : ScopeChain) (rest : List Scope) :
    (inner.extend rest).arena.Shows inner.last inner := by
  induction inner generalizing rest with
  | global s => exact .global (getElem?_arena_extend (global s) rest)
  | block s outer ih => exact .block (getElem?_arena_extend (block s outer) rest) (ih (s :: rest))

/-- What the current scope shows of the arena of a chain is the chain. -/
theorem shows_current : c.arena.Shows c.arena.current inner ↔ inner = c := by
  have hshows : c.arena.Shows c.arena.current c := shows_extend c []
  exact ⟨fun h => h.unique hshows, fun h => h ▸ hshows⟩

/-- Changes of the current scope lead to arenas of chains only. -/
theorem exists_of_changes (h : c.arena.Changes a') : ∃ c' : ScopeChain, a' = c'.arena := by
  induction h with
  | refl => exact ⟨c, rfl⟩
  | tail _ hlast ih =>
    obtain ⟨c', rfl⟩ := ih
    obtain ⟨e, he⟩ := hlast
    obtain ⟨c'', -, hc''⟩ := edits_current.1 he
    exact ⟨c'', hc''⟩

/-- What a line makes of the scopes can be made by changes of the current scope. -/
theorem changes_checkLine (c : ScopeChain) (line : List Char) : c.arena.Changes (c.checkLine line).2.arena := by
  -- All that a line does to the scopes are the three changes, so what can be reached by them is kept.
  have hstable : Stable fun c' => c.arena.Changes c'.arena := {
    addVariable := fun c' c'' name v hc' _ h => hc'.tail ⟨.addVariable name v, edits_current.2 ⟨c'', h, rfl⟩⟩
    addMethod := fun c' c'' name m hc' h => hc'.tail ⟨.addMethod name m, edits_current.2 ⟨c'', h, rfl⟩⟩
    initializing := fun c' name hc' => by
      cases hnearest : c'.nearest? (·.vars.get? name) with
      | none => rwa [initializing_of_nearest?_none hnearest]
      | some mv =>
        have hmark : c'.markInitialized name = .ok (c'.initializing name) := by rw [markInitialized_eq, hnearest]
        exact hc'.tail ⟨.mark name, edits_current.2 ⟨_, hmark, rfl⟩⟩ }
  exact hstable.checkLine .refl line

/-- A change at an open scope, of the arena and of the chain. -/
theorem step_edit_extend {rest : List Scope} :
    (inner.extend rest).arena.Step (.edit inner.last e) a' ↔
      ∃ c', (TreeCall.edit inner.last e).onChain (inner.extend rest) = some c' ∧ a' = c'.arena := by
  have hkept : ∀ r : Except SymbolFault ScopeChain,
      ((fun c => (c.extend rest).arena) <$> r).toOption.getD (inner.extend rest).arena =
        (((·.extend rest) <$> r).toOption.getD (inner.extend rest)).arena := by
    intro r
    cases r <;> rfl
  simp only [TreeCall.onChain, atScope_extend, Option.map_some, Option.some.injEq, exists_eq_left', ← hkept]
  constructor
  · intro h
    cases h with
    | edit h => rw [(edits_extend inner rest).1 h]
  · rintro rfl
    exact .edit ((edits_extend inner rest).2 rfl)

/-- **One call on the arena of a chain is the call on the chain.** -/
theorem step_arena : c.arena.Step call a' ↔ ∃ c', call.onChain c = some c' ∧ a' = c'.arena := by
  constructor
  · intro h
    cases h with
    | push => exact ⟨c.push, rfl, c.arena_push.symm⟩
    | pop h =>
      rw [arena_pop?] at h
      exact ⟨_, rfl, (congrArg Prod.snd (Option.some.inj h)).symm⟩
    | duplicate h =>
      rw [arena_duplicate?] at h
      exact ⟨c.restart, rfl, (Option.some.inj h).symm⟩
    | edit h =>
      obtain ⟨inner, rest, rfl, rfl⟩ := exists_extend_of_lt h.lt_length
      exact step_edit_extend.1 (.edit h)
    | parse hshows hchanges hshows' =>
      cases shows_current.1 hshows
      obtain ⟨c', rfl⟩ := exists_of_changes hchanges
      exact ⟨_, rfl, by rw [shows_current.1 hshows']⟩
  · rintro ⟨c', hc', rfl⟩
    cases call with
    | push =>
      cases hc'
      exact c.arena_push ▸ .push
    | pop =>
      cases hc'
      exact .pop c.arena_pop?
    | duplicate =>
      cases hc'
      exact .duplicate c.arena_duplicate?
    | edit n e =>
      have hn : n ≤ c.last := by
        by_contra hlt
        rw [TreeCall.onChain, atScope_of_lt (Nat.lt_of_not_le hlt)] at hc'
        cases hc'
      obtain ⟨inner, rest, rfl, rfl⟩ := exists_extend hn
      exact step_edit_extend.2 ⟨c', hc', rfl⟩
    | parse line =>
      cases hc'
      exact .parse (shows_current.2 rfl) (c.changes_checkLine line) (shows_current.2 rfl)

/-- **A run over the arena of a chain is the run over the chain.** -/
theorem runs_arena {calls : List TreeCall} :
    Arena.Runs calls c.arena a' ↔ ∃ c', calls.foldlM TreeCall.onChain c = some c' ∧ a' = c'.arena := by
  induction calls generalizing c with
  | nil =>
    constructor
    · rintro ⟨⟩
      exact ⟨c, rfl, rfl⟩
    · rintro ⟨c', hc', rfl⟩
      cases hc'
      exact .nil
  | cons call calls ih =>
    constructor
    · intro h
      cases h with
      | cons hstep hruns =>
        obtain ⟨c₁, hc₁, rfl⟩ := step_arena.1 hstep
        obtain ⟨c', hc', rfl⟩ := ih.1 hruns
        exact ⟨c', by rw [List.foldlM_cons, hc₁]; exact hc', rfl⟩
    · rintro ⟨c', hc', rfl⟩
      rw [List.foldlM_cons] at hc'
      obtain ⟨c₁, hc₁, hrest⟩ := Option.bind_eq_some_iff.1 hc'
      exact .cons (step_arena.2 ⟨c₁, hc₁, rfl⟩) (ih.2 ⟨c', hrest, rfl⟩)

/-- Every call at an open scope has a result. -/
theorem exists_onChain (h : call.IsOpen c.arena) : ∃ c', call.onChain c = some c' := by
  cases call with
  | edit n e =>
    obtain ⟨inner, rest, rfl, rfl⟩ := exists_extend_of_lt h
    rw [TreeCall.onChain, atScope_extend]
    exact ⟨_, rfl⟩
  | push => exact ⟨_, rfl⟩
  | pop => exact ⟨_, rfl⟩
  | duplicate => exact ⟨_, rfl⟩
  | parse line => exact ⟨_, rfl⟩

/-- A lookup in the arena is the lookup in the chain as it is seen from the scope. -/
theorem looksUp_extend {β : Type} (get : Scope → Option β) (inner : ScopeChain) (rest : List Scope) (name : String) :
    (inner.extend rest).arena.LooksUp get inner.last name (lookedUp name (inner.nearest? get)) := by
  have hwalk := walk_extend get inner rest
  have hfound := ((inner.extend rest).stacked_arena.walk_iff hwalk.lt_length).1 hwalk
  exact ⟨_, hfound, fun r => ⟨fun h => h.unique hwalk, fun h => h ▸ hwalk⟩, rfl⟩

end ScopeChain

/-! ## Everything that is reached -/

/-- Marking changes the entry that a lookup finds. -/
theorem Arena.Stacked.edits_mark {a : Arena} {n : Nat} {name : String} {found : Option (Nat × Variable)}
    (ha : a.Stacked) (hn : n < a.cells.length) (hfound : a.FoundLast (·.vars.get? name) n found)
    (r : Except SymbolFault Arena) : a.Edits n (.mark name) r ↔ r = a.markingFound name found := by
  have hwalk := (ha.walk_iff hn).2 hfound
  constructor
  · intro h
    cases h with
    | mark hwalk' => rw [hwalk'.unique hwalk]
  · rintro rfl
    exact .mark hwalk

/-- **The invariant of the arena.** Whatever calls an arena has been through since it was new: at least one scope is
open, the current scope is the last one, and the scope around each scope is the one in front of it. The scopes are
those of the chain on which the same calls were made.

So every further call at an open scope has exactly one result. A name is looked up in the scopes up to the one where
the lookup starts, and the entry of the last of them that holds it is the answer, the same as in the chain; marking a
variable changes this entry. Closing removes the last scope, or nothing if it is the only one, and the scope that is
opened next is empty, though it has the number of the one that was closed. -/
theorem scope_arena_invariant {calls : List TreeCall} {a : Arena} (h : Arena.Runs calls .new a) :
    a.Stacked ∧
    (∃ c, calls.foldlM TreeCall.onChain .empty = some c ∧ a = c.arena ∧
      ∀ n < a.cells.length, ∃ seen, c.outward? n = some seen ∧ ∀ name,
        a.LooksUp (·.vars.get? name) n name (seen.lookupVariable name) ∧
        a.LooksUp (·.methods.get? name) n name (seen.lookupMethod name)) ∧
    (∀ call, call.IsOpen a → ∃! a', a.Step call a') ∧
    (∀ n < a.cells.length, ∀ name found, a.FoundLast (·.vars.get? name) n found →
      ∀ r, a.Edits n (.mark name) r ↔ r = a.markingFound name found) ∧
    (a.current = 0 → a.pop? = some (none, a)) ∧
    (a.current ≠ 0 → a.pop? = some (some a.current, ⟨a.cells.dropLast, a.current - 1⟩)) ∧
    (∀ n a', a.pop? = some (some n, a') → a'.push.current = n ∧ a'.push.cells[n]? = some ⟨some a'.current, {}⟩) := by
  rw [← ScopeChain.arena_empty] at h
  obtain ⟨c, hc, rfl⟩ := ScopeChain.runs_arena.1 h
  have ha := c.stacked_arena
  refine ⟨ha, ⟨c, hc, rfl, fun n hn => ?_⟩, fun call hcall => ?_, fun n hn name found hfound => ha.edits_mark hn hfound,
    ha.pop?_of_root, ha.pop?_of_block, fun n a' => ha.push_of_pop?⟩
  · obtain ⟨seen, rest, rfl, rfl⟩ := ScopeChain.exists_extend_of_lt hn
    refine ⟨seen, ScopeChain.outward?_extend seen rest, fun name => ?_⟩
    rw [ScopeChain.lookupVariable_eq, ScopeChain.lookupMethod_eq]
    exact ⟨ScopeChain.looksUp_extend _ seen rest name, ScopeChain.looksUp_extend _ seen rest name⟩
  · obtain ⟨c', hc'⟩ := ScopeChain.exists_onChain hcall
    refine ⟨c'.arena, ScopeChain.step_arena.2 ⟨c', hc', rfl⟩, fun a' hstep => ?_⟩
    obtain ⟨c'', hc'', rfl⟩ := ScopeChain.step_arena.1 hstep
    cases hc'.symm.trans hc''
    rfl

/-- A block is closed and another one is opened: what the first one declared is not found in the second, and what the
global scope declares is. -/
theorem scope_arena_invariant_of_reopening :
    let x : Variable := ⟨.int, false, true⟩
    let calls := [TreeCall.parse "int a = 1;".toList, .push, .edit 1 (.addVariable "b" x), .pop, .push]
    ∃ a, Arena.Runs calls .new a ∧ a.Stacked ∧ a.current = 1 ∧
      a.LooksUp (·.vars.get? "a") 1 "a" (.ok x) ∧ a.LooksUp (·.vars.get? "b") 1 "b" (.error (.notFound "b")) := by
  intro x calls
  let c : ScopeChain := .block {} (.global { vars := ⟨[("a", x)]⟩ })
  have hc : calls.foldlM TreeCall.onChain .empty = some c := by decide +kernel
  have hruns : Arena.Runs calls .new c.arena := ScopeChain.runs_arena.2 ⟨c, hc, rfl⟩
  obtain ⟨hstacked, ⟨c', hc', -, hlookups⟩, -⟩ := scope_arena_invariant hruns
  cases hc.symm.trans hc'
  obtain ⟨seen, hseen, hnames⟩ := hlookups 1 (by decide)
  cases hseen
  exact ⟨c.arena, hruns, hstacked, rfl, (hnames "a").1, (hnames "b").1⟩

end BlockCheck
