import BlockCheck.Proofs.Scope.Numbering

/-!
# Scopes in an arena

The open scopes can also be kept in one list, each with the number of the scope around it, and with a handle on the
current one (`Arena`). Opening, closing and copying update the list, the numbers and the handle separately, and a name
is looked up by walking from scope to scope along the numbers (`Arena.Walk`).

The operations keep the arena stacked: the current scope is the last one, and the number of each scope but the first
leads to the one in front of it (`Arena.Stacked`). The stacked arenas are those of the chains
(`Arena.stacked_iff_exists_chain`), and there the operations are the ones on chains (`ScopeChain.arena_push`,
`ScopeChain.arena_pop?`, `ScopeChain.atCell_extend`, `ScopeChain.walk_extend`). In a stacked arena every walk ends, with
what the last of the scopes holds in which there is something to be found (`Arena.Stacked.walk_iff`).
-/

namespace BlockCheck

/-- A scope in an arena. -/
structure Arena.Cell where
  /-- The number of the scope around this one. -/
  parent : Option Nat
  scope : Scope
  deriving DecidableEq, Repr

structure Arena where
  cells : List Arena.Cell
  /-- The number of the current scope. -/
  current : Nat
  deriving DecidableEq, Repr

namespace Arena

section Operations

variable {β ε : Type}

/-- The arena with an empty global scope. -/
def new : Arena := ⟨[⟨none, {}⟩], 0⟩

/-- Opens an empty scope in the current one and makes it the current one. -/
def push (a : Arena) : Arena := ⟨a.cells ++ [⟨some a.current, {}⟩], a.cells.length⟩

/-- Drops the current scope and all behind it and returns to the one around it; tells the number of the scope that was
closed. The global scope is not closed, and nothing is told. `none` if the current scope is missing. -/
def pop? (a : Arena) : Option (Option Nat × Arena) :=
  a.cells[a.current]?.map fun cell =>
    match cell.parent with
    | none => (none, a)
    | some outer => (some a.current, ⟨a.cells.take a.current, outer⟩)

/-- A new arena that starts with the declarations of the first scope. `none` if there is no scope. -/
def duplicate? (a : Arena) : Option Arena := a.cells[0]?.map fun cell => ⟨[⟨none, cell.scope⟩], 0⟩

/-- Replaces scope `n` by what is made of it. `none` if it is missing. -/
def atCell (a : Arena) (n : Nat) (f : Scope → Except ε Scope) : Option (Except ε Arena) :=
  a.cells[n]?.map fun cell => (fun s => ⟨a.cells.set n ⟨cell.parent, s⟩, a.current⟩) <$> f cell.scope

/-- Marks the variable in scope `n` initialized. -/
def marking (a : Arena) (n : Nat) (name : String) : Arena :=
  ⟨a.cells.modify n fun cell => ⟨cell.parent, cell.scope.marking name⟩, a.current⟩

/-- What is found in scope `n`. -/
def foundIn (a : Arena) (get : Scope → Option β) (n : Nat) : Option β :=
  a.cells[n]?.bind fun cell => get cell.scope

/-- The walk outwards from a scope ends where something is found, or outside of all scopes. It goes through scopes that
exist only. -/
inductive Walk (a : Arena) (get : Scope → Option β) : Option Nat → Option (Nat × β) → Prop
  | outside : Walk a get none none
  | found {n : Nat} {cell : Cell} {b : β} : a.cells[n]? = some cell → get cell.scope = some b →
      Walk a get (some n) (some (n, b))
  | outwards {n : Nat} {cell : Cell} {r : Option (Nat × β)} : a.cells[n]? = some cell → get cell.scope = none →
      Walk a get cell.parent r → Walk a get (some n) r

end Operations

section Walks

variable {β : Type} {a : Arena} {get : Scope → Option β} {n : Nat} {start : Option Nat} {r r' : Option (Nat × β)}

/-- A walk ends in one way at most. -/
theorem Walk.unique (h : a.Walk get start r) (h' : a.Walk get start r') : r = r' := by
  induction h with
  | outside => cases h'; rfl
  | found hcell hb =>
    cases h' with
    | found hcell' hb' =>
      cases hcell.symm.trans hcell'
      cases hb.symm.trans hb'
      rfl
    | outwards hcell' hnone =>
      cases hcell.symm.trans hcell'
      cases hb.symm.trans hnone
  | outwards hcell hnone _ ih =>
    cases h' with
    | found hcell' hb' =>
      cases hcell.symm.trans hcell'
      cases hnone.symm.trans hb'
    | outwards hcell' _ hwalk' =>
      cases hcell.symm.trans hcell'
      exact ih hwalk'

theorem Walk.lt_length (h : a.Walk get (some n) r) : n < a.cells.length := by
  cases h with
  | found hcell => exact (List.getElem?_eq_some_iff.1 hcell).1
  | outwards hcell => exact (List.getElem?_eq_some_iff.1 hcell).1

/-- Scope `j` is the last of the scopes up to `n` in which something is found, and `b` is found there; nothing if there
is no such scope. -/
def FoundLast (a : Arena) (get : Scope → Option β) (n : Nat) : Option (Nat × β) → Prop
  | none => ∀ m ≤ n, a.foundIn get m = none
  | some (j, b) => j ≤ n ∧ a.foundIn get j = some b ∧ ∀ m ≤ n, j < m → a.foundIn get m = none

theorem FoundLast.unique (h : a.FoundLast get n r) (h' : a.FoundLast get n r') : r = r' := by
  match r, r', h, h' with
  | none, none, _, _ => rfl
  | none, some (j, b), hnone, ⟨hj, hb, _⟩ => cases (hnone j hj).symm.trans hb
  | some (j, b), none, ⟨hj, hb, _⟩, hnone => cases (hnone j hj).symm.trans hb
  | some (j, b), some (j', b'), ⟨hj, hb, hlast⟩, ⟨hj', hb', hlast'⟩ =>
    rcases Nat.lt_trichotomy j j' with hlt | rfl | hlt
    · cases (hlast j' hj' hlt).symm.trans hb'
    · cases hb.symm.trans hb'
      rfl
    · cases (hlast' j hj hlt).symm.trans hb

end Walks

/-! ## Stacked arenas -/

/-- The scopes are open one in the other, and the last one is the current one. -/
structure Stacked (a : Arena) : Prop where
  nonempty : a.cells ≠ []
  current : a.current + 1 = a.cells.length
  outermost : ∀ cell, a.cells[0]? = some cell → cell.parent = none
  parent : ∀ n cell, a.cells[n + 1]? = some cell → cell.parent = some n

section Stacked

variable {β : Type} {a : Arena} {get : Scope → Option β} {n : Nat} {r : Option (Nat × β)}

theorem foundIn_of_cell {cell : Cell} (h : a.cells[n]? = some cell) : a.foundIn get n = get cell.scope := by
  rw [foundIn, h]
  rfl

/-- A walk ends, because every step leads to the scope in front. -/
theorem Stacked.exists_walk (ha : a.Stacked) (hn : n < a.cells.length) :
    ∃ r, a.Walk get (some n) r ∧ a.FoundLast get n r := by
  induction n with
  | zero =>
    have hcell := List.getElem?_eq_getElem hn
    cases hget : get a.cells[0].scope with
    | some b =>
      refine ⟨some (0, b), .found hcell hget, Nat.le_refl _, by rw [foundIn_of_cell hcell, hget], ?_⟩
      intro m hm hpos
      omega
    | none =>
      have hwalk : a.Walk get a.cells[0].parent none := ha.outermost _ hcell ▸ .outside
      refine ⟨none, .outwards hcell hget hwalk, fun m hm => ?_⟩
      rw [Nat.le_zero.1 hm, foundIn_of_cell hcell, hget]
  | succ n ih =>
    have hcell := List.getElem?_eq_getElem hn
    cases hget : get a.cells[n + 1].scope with
    | some b =>
      refine ⟨some (n + 1, b), .found hcell hget, Nat.le_refl _, by rw [foundIn_of_cell hcell, hget], ?_⟩
      intro m hm hlt
      omega
    | none =>
      obtain ⟨r, hwalk, hfound⟩ := ih (Nat.lt_of_succ_lt hn)
      have hhere : a.foundIn get (n + 1) = none := by rw [foundIn_of_cell hcell, hget]
      refine ⟨r, .outwards hcell hget (ha.parent _ _ hcell ▸ hwalk), ?_⟩
      match r, hfound with
      | none, hnone =>
        intro m hm
        rcases Nat.le_succ_iff.1 hm with hle | rfl
        · exact hnone m hle
        · exact hhere
      | some (j, b), ⟨hj, hb, hlast⟩ =>
        refine ⟨Nat.le_succ_of_le hj, hb, fun m hm hlt => ?_⟩
        rcases Nat.le_succ_iff.1 hm with hle | rfl
        · exact hlast m hle hlt
        · exact hhere

/-- **In a stacked arena the innermost entry is found**: the walk ends with the last of the scopes that hold one. -/
theorem Stacked.walk_iff (ha : a.Stacked) (hn : n < a.cells.length) :
    a.Walk get (some n) r ↔ a.FoundLast get n r := by
  obtain ⟨r', hwalk, hfound⟩ : ∃ r', a.Walk get (some n) r' ∧ a.FoundLast get n r' := ha.exists_walk hn
  exact ⟨fun h => hwalk.unique h ▸ hfound, fun h => hfound.unique h ▸ hwalk⟩

/-- The current scope exists, and the number of the one around it is the one before its own. -/
theorem Stacked.exists_current (ha : a.Stacked) :
    ∃ s, a.cells[a.current]? = some ⟨ScopeChain.parent? a.current, s⟩ := by
  have hlt : a.current < a.cells.length := by
    have := ha.current
    omega
  obtain ⟨cell, hcell⟩ : ∃ cell, a.cells[a.current]? = some cell := ⟨_, List.getElem?_eq_getElem hlt⟩
  have hparent : cell.parent = ScopeChain.parent? a.current := by
    cases hcurrent : a.current with
    | zero => exact ha.outermost cell (hcurrent ▸ hcell)
    | succ n => exact ha.parent n cell (hcurrent ▸ hcell)
  exact ⟨cell.scope, by rw [hcell, ← hparent]⟩

/-- The global scope is not closed. -/
theorem Stacked.pop?_of_root (ha : a.Stacked) (h : a.current = 0) : a.pop? = some (none, a) := by
  obtain ⟨s, hcell⟩ := ha.exists_current
  rw [pop?, hcell, h]
  rfl

/-- Closing another scope removes the last one. -/
theorem Stacked.pop?_of_block (ha : a.Stacked) (h : a.current ≠ 0) :
    a.pop? = some (some a.current, ⟨a.cells.dropLast, a.current - 1⟩) := by
  obtain ⟨s, hcell⟩ := ha.exists_current
  obtain ⟨n, hn⟩ := Nat.exists_eq_succ_of_ne_zero h
  have hlast : a.cells.length - 1 = a.current := by rw [← ha.current, Nat.add_sub_cancel]
  have hparent : ScopeChain.parent? a.current = some (a.current - 1) := by
    rw [hn]
    rfl
  rw [pop?, hcell, hparent, List.dropLast_eq_take, hlast]
  rfl

/-- A scope that is opened after another was closed has its number and is empty. -/
theorem Stacked.push_of_pop? (ha : a.Stacked) {a' : Arena} (h : a.pop? = some (some n, a')) :
    a'.push.current = n ∧ a'.push.cells[n]? = some ⟨some a'.current, {}⟩ := by
  by_cases hroot : a.current = 0
  · rw [ha.pop?_of_root hroot] at h
    cases h
  · rw [ha.pop?_of_block hroot] at h
    cases h
    have hlast : a.cells.dropLast.length = a.current := by
      rw [List.length_dropLast, ← ha.current, Nat.add_sub_cancel]
    refine ⟨hlast, ?_⟩
    rw [push, ← hlast]
    exact List.getElem?_concat_length

end Stacked

end Arena

/-! ## The arena of a chain -/

namespace ScopeChain

variable {β ε : Type} {c inner : ScopeChain} {n : Nat}

/-- The scopes with the number of the one in front of each. -/
def linked (scopes : List Scope) : List Arena.Cell := scopes.mapIdx fun n s => ⟨parent? n, s⟩

theorem getElem?_linked (scopes : List Scope) (n : Nat) :
    (linked scopes)[n]? = scopes[n]?.map fun s => ⟨parent? n, s⟩ := List.getElem?_mapIdx

@[simp] theorem length_linked (scopes : List Scope) : (linked scopes).length = scopes.length := List.length_mapIdx

theorem linked_set (scopes : List Scope) (n : Nat) (s : Scope) :
    linked (scopes.set n s) = (linked scopes).set n ⟨parent? n, s⟩ := List.mapIdx_set

theorem linked_modify (scopes : List Scope) (n : Nat) (f : Scope → Scope) :
    linked (scopes.modify n f) = (linked scopes).modify n fun cell => ⟨cell.parent, f cell.scope⟩ := by
  refine List.ext_getElem? fun m => ?_
  simp only [getElem?_linked, List.getElem?_modify]
  cases scopes[m]? with
  | none => rfl
  | some s => by_cases hm : n = m <;> simp [hm]

theorem linked_concat (scopes : List Scope) (s : Scope) :
    linked (scopes ++ [s]) = linked scopes ++ [⟨parent? scopes.length, s⟩] := List.mapIdx_concat

theorem linked_take (scopes : List Scope) (n : Nat) : linked (scopes.take n) = (linked scopes).take n := by
  refine List.ext_getElem? fun m => ?_
  simp only [getElem?_linked, List.getElem?_take]
  split <;> rfl

/-- The scopes of the chain in an arena. -/
def arena (c : ScopeChain) : Arena := ⟨linked c.toList, c.last⟩

theorem length_arena (c : ScopeChain) : c.arena.cells.length = c.last + 1 := by
  rw [arena, length_linked, length_toList_eq]

/-- The scopes up to an open one are a chain, inside of which the others are. -/
theorem exists_extend_of_lt (h : n < c.arena.cells.length) : ∃ inner rest, c = extend inner rest ∧ inner.last = n := by
  rw [length_arena] at h
  exact exists_extend (Nat.lt_succ_iff.1 h)

theorem stacked_arena (c : ScopeChain) : c.arena.Stacked where
  nonempty h := by
    have hlength := c.length_arena
    rw [h] at hlength
    cases hlength
  current := c.length_arena.symm
  outermost cell h := by
    rw [arena, getElem?_linked] at h
    obtain ⟨s, -, rfl⟩ := Option.map_eq_some_iff.1 h
    rfl
  parent n cell h := by
    rw [arena, getElem?_linked] at h
    obtain ⟨s, -, rfl⟩ := Option.map_eq_some_iff.1 h
    rfl

theorem exists_toList {scopes : List Scope} (h : scopes ≠ []) : ∃ c : ScopeChain, c.toList = scopes := by
  cases scopes with
  | nil => exact absurd rfl h
  | cons s rest => exact ⟨(global s).extend rest, by simp⟩

end ScopeChain

/-- **The stacked arenas are those of the chains.** -/
theorem Arena.stacked_iff_exists_chain {a : Arena} : a.Stacked ↔ ∃ c : ScopeChain, a = c.arena := by
  refine ⟨fun ha => ?_, fun ⟨c, hc⟩ => hc ▸ c.stacked_arena⟩
  have hscopes : a.cells.map Cell.scope ≠ [] := by simpa using ha.nonempty
  obtain ⟨c, hc⟩ := ScopeChain.exists_toList hscopes
  have hlength : a.cells.length = c.last + 1 := by rw [← c.length_toList_eq, hc, List.length_map]
  have hcells : a.cells = ScopeChain.linked c.toList := by
    refine List.ext_getElem? fun n => ?_
    rw [hc, ScopeChain.getElem?_linked, List.getElem?_map]
    cases hcell : a.cells[n]? with
    | none => rfl
    | some cell =>
      have hparent : cell.parent = ScopeChain.parent? n := by
        cases n with
        | zero => exact ha.outermost cell hcell
        | succ n => exact ha.parent n cell hcell
      simp [← hparent]
  have hcurrent : a.current = c.last := by
    have := ha.current
    omega
  exact ⟨c, by rw [ScopeChain.arena, ← hcells, ← hcurrent]⟩

namespace ScopeChain

/-! ## The operations on chains -/

section Operations

variable {β ε : Type} {c inner : ScopeChain} {n : Nat}

theorem arena_empty : empty.arena = Arena.new := rfl

theorem arena_push (c : ScopeChain) : c.push.arena = c.arena.push := by
  have hlength := c.length_toList_eq
  simp [arena, push, Arena.push, linked_concat, last, parent?, hlength]

theorem arena_pop? (c : ScopeChain) :
    c.arena.pop? = some (c.pop?.map fun _ => c.last, (c.pop?.getD c).arena) := by
  cases c with
  | global s => rfl
  | block s outer =>
    have hlength := outer.length_toList_eq
    have hcell : (block s outer).arena.cells[outer.last + 1]? = some ⟨some outer.last, s⟩ := by
      rw [arena, getElem?_linked, toList_block, List.getElem?_append_right (by omega)]
      simp [hlength, parent?]
    have htake : (block s outer).arena.cells.take (outer.last + 1) = linked outer.toList := by
      rw [arena, ← linked_take, toList_block, ← hlength, List.take_left]
    show Option.map _ (block s outer).arena.cells[outer.last + 1]? = _
    rw [hcell]
    show some (some (outer.last + 1), Arena.mk ((block s outer).arena.cells.take (outer.last + 1)) outer.last) = _
    rw [htake]
    rfl

theorem arena_duplicate? (c : ScopeChain) : c.arena.duplicate? = some c.restart.arena := by
  have hroot : c.toList[0]? = some c.root := by
    have htake := congrArg (·[0]?) c.toList_restart
    simpa [restart] using htake.symm
  simp [arena, Arena.duplicate?, hroot, restart, last, linked, parent?]

/-- The cell of a scope in the arena of a longer chain. -/
theorem getElem?_arena_extend (inner : ScopeChain) (rest : List Scope) :
    (inner.extend rest).arena.cells[inner.last]? = some ⟨parent? inner.last, inner.innermost⟩ := by
  rw [arena, getElem?_linked, toList_extend, List.getElem?_append_left inner.last_lt_length, getElem?_last]
  rfl

/-- Replacing a scope replaces its cell. -/
theorem arena_of_toList_set {c' : ScopeChain} {s : Scope} (h : c'.toList = c.toList.set n s) :
    c'.arena = ⟨c.arena.cells.set n ⟨parent? n, s⟩, c.arena.current⟩ := by
  have hlast : c'.last = c.last := last_eq_of_length (by rw [h, List.length_set])
  rw [arena, h, hlast, linked_set]
  rfl

/-- Changing the scope in one cell is changing the innermost scope of what is seen from there. -/
theorem atCell_extend (inner : ScopeChain) (rest : List Scope) (f : Scope → Except ε Scope) :
    (inner.extend rest).arena.atCell inner.last f =
      some ((fun c => (c.extend rest).arena) <$> (inner.setInnermost <$> f inner.innermost)) := by
  have hset : ∀ s, ((inner.setInnermost s).extend rest).toList = (inner.extend rest).toList.set inner.last s := by
    intro s
    simp only [toList_extend, toList_setInnermost, List.set_append_left _ _ inner.last_lt_length]
  rw [Arena.atCell, getElem?_arena_extend]
  cases hf : f inner.innermost with
  | error e => simp [hf]
  | ok s => simp [hf, arena_of_toList_set (hset s)]

/-- Marking the variable that is nearest marks it in the cell of its scope. -/
theorem arena_initializing {name : String} {v : Variable} {m : Nat} (rest : List Scope)
    (h : inner.nearest? (·.vars.get? name) = some (m, v)) :
    ((inner.initializing name).extend rest).arena = (inner.extend rest).arena.marking m name := by
  have hm : m < inner.toList.length := Nat.lt_of_le_of_lt (nearest?_le_last h) inner.last_lt_length
  have hscopes : ((inner.initializing name).extend rest).toList =
      (inner.extend rest).toList.modify m (·.marking name) := by
    rw [toList_extend, toList_extend, toList_initializing h, modify_append_left _ hm]
  have hlast : ((inner.initializing name).extend rest).last = (inner.extend rest).last :=
    last_eq_of_length (by rw [hscopes, List.length_modify])
  rw [arena, hscopes, hlast, linked_modify]
  rfl

/-- Walking outwards goes through the scopes of a chain. -/
theorem walk_extend (get : Scope → Option β) (inner : ScopeChain) (rest : List Scope) :
    (inner.extend rest).arena.Walk get (some inner.last) (inner.nearest? get) := by
  have hcell := getElem?_arena_extend
  induction inner generalizing rest with
  | global s =>
    cases hget : get s with
    | some b => simpa [nearest?, hget] using .found (hcell (global s) rest) hget
    | none => simpa [nearest?, hget] using .outwards (hcell (global s) rest) hget .outside
  | block s outer ih =>
    cases hget : get s with
    | some b => simpa [nearest?, hget] using .found (hcell (block s outer) rest) hget
    | none => simpa [nearest?, hget] using .outwards (hcell (block s outer) rest) hget (ih (s :: rest))

end Operations

end ScopeChain

end BlockCheck
