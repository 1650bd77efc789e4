import BlockCheck.Proofs.Line.Declaring
import Mathlib.Data.List.Induction

/-!
# Scopes by number

The open scopes of a chain are a list in which the global scope is the first one and the innermost is the last
(`ScopeChain.toList`), and the list is all there is to a chain (`ScopeChain.toList_inj`). What the operations on chains
do is said here of the list: declaring changes its last scope, and marking a variable initialized changes the scope with
the largest number that holds the name (`ScopeChain.toList_initializing`), which is where names are found
(`ScopeChain.nearest?`). A chain seen from scope `n` has the first `n + 1` of the scopes (`ScopeChain.exists_extend`).
-/

namespace BlockCheck

/-! ## One scope -/

/-- The scope with the variable of the name marked initialized. -/
def Scope.marking (s : Scope) (name : String) : Scope := { s with vars := s.vars.modify name .markInitialized }

theorem Scope.marking_of_get?_none {s : Scope} {name : String} (h : s.vars.get? name = none) :
    s.marking name = s := by
  rw [marking, SymbolTable.modify_of_get?_none _ h]

namespace ScopeChain

variable {β : Type} {c c' outer inner : ScopeChain} {s : Scope} {n : Nat} {name : String} {get : Scope → Option β}

/-! ## The list of the scopes -/

@[simp] theorem toList_global (s : Scope) : (global s).toList = [s] := rfl

@[simp] theorem toList_block (s : Scope) (outer : ScopeChain) : (block s outer).toList = outer.toList ++ [s] := rfl

theorem length_toList_eq (c : ScopeChain) : c.toList.length = c.last + 1 := c.length_toList

theorem last_lt_length (c : ScopeChain) : c.last < c.toList.length := by
  rw [length_toList_eq]
  exact Nat.lt_succ_self _

theorem last_eq_of_length (h : c'.toList.length = c.toList.length) : c'.last = c.last := by
  rw [length_toList_eq, length_toList_eq] at h
  exact Nat.succ.inj h

/-- **A chain is the list of its scopes.** -/
theorem toList_inj : c.toList = c'.toList ↔ c = c' := by
  refine ⟨fun h => ?_, congrArg toList⟩
  induction c generalizing c' with
  | global s =>
    cases c' with
    | global s' => cases h; rfl
    | block s' outer' =>
      have := congrArg List.length h
      simp [length_toList_eq] at this
  | block s outer ih =>
    cases c' with
    | global s' =>
      have := congrArg List.length h
      simp [length_toList_eq] at this
    | block s' outer' =>
      obtain ⟨houter, hs⟩ := List.append_inj' h rfl
      cases hs
      rw [ih houter]

theorem getElem?_last (c : ScopeChain) : c.toList[c.last]? = some c.innermost := by
  cases c with
  | global s => rfl
  | block s outer => simp [last, innermost, ← length_toList_eq]

theorem toList_setInnermost (c : ScopeChain) (s : Scope) : (c.setInnermost s).toList = c.toList.set c.last s := by
  cases c with
  | global s => rfl
  | block s outer => simp [setInnermost, last, ← length_toList_eq]

/-- Setting the innermost scope to what is made of it changes the last scope. -/
theorem toList_setInnermost_apply (c : ScopeChain) (f : Scope → Scope) :
    (c.setInnermost (f c.innermost)).toList = c.toList.modify c.last f := by
  rw [toList_setInnermost, List.modify_eq_set_getElem?, getElem?_last]
  rfl

/-- Changing one of the first scopes leaves those behind them as they are. -/
theorem modify_append_left {scopes rest : List Scope} (f : Scope → Scope) (h : n < scopes.length) :
    (scopes ++ rest).modify n f = scopes.modify n f ++ rest := by
  simp [List.modify_eq_set_getElem?, List.getElem?_append_left h, List.getElem?_eq_getElem h,
    List.set_append_left _ _ h]

theorem toList_restart (c : ScopeChain) : c.restart.toList = c.toList.take 1 := by
  induction c with
  | global s => rfl
  | block s outer ih =>
    rw [toList_block, List.take_append_of_le_length (by simp [length_toList_eq])]
    exact ih

/-! ## Where names are found -/

/-- The number of the innermost scope in which something is found, and what is found there. -/
def nearest? (get : Scope → Option β) : ScopeChain → Option (Nat × β)
  | .global s => (get s).map fun b => (0, b)
  | .block s outer => ((get s).map fun b => (outer.last + 1, b)) <|> outer.nearest? get

/-- The last of the scopes in which something is found has this number, and this is found there; none if there is
no such scope. -/
def IsNearest (scopes : List Scope) (get : Scope → Option β) : Option (Nat × β) → Prop
  | none => ∀ s ∈ scopes, get s = none
  | some (n, b) => (∃ s, scopes[n]? = some s ∧ get s = some b) ∧ ∀ m s, n < m → scopes[m]? = some s → get s = none

theorem isNearest_nearest? (get : Scope → Option β) (c : ScopeChain) : IsNearest c.toList get (c.nearest? get) := by
  induction c with
  | global s =>
    rw [nearest?]
    cases hs : get s with
    | none => simpa [IsNearest] using hs
    | some b =>
      refine ⟨⟨s, rfl, hs⟩, fun m s' hm hs' => ?_⟩
      have := (List.getElem?_eq_some_iff.1 hs').1
      simp at this
      omega
  | block s outer ih =>
    rw [nearest?]
    cases hs : get s with
    | some b =>
      refine ⟨⟨s, by simp [← length_toList_eq], hs⟩, fun m s' hm hs' => ?_⟩
      have := (List.getElem?_eq_some_iff.1 hs').1
      simp [length_toList_eq] at this
      omega
    | none =>
      show IsNearest (outer.toList ++ [s]) get (outer.nearest? get)
      cases hnearest : outer.nearest? get with
      | none =>
        rw [hnearest] at ih
        simpa [IsNearest, or_imp, forall_and, hs] using ih
      | some nb =>
        obtain ⟨n, b⟩ := nb
        rw [hnearest] at ih
        obtain ⟨⟨s', hs', hb⟩, hinner⟩ := ih
        have hn := (List.getElem?_eq_some_iff.1 hs').1
        refine ⟨⟨s', by rw [List.getElem?_append_left hn, hs'], hb⟩, fun m t hm ht => ?_⟩
        rcases Nat.lt_or_ge m outer.toList.length with hlt | hge
        · exact hinner m t hm (by rwa [List.getElem?_append_left hlt] at ht)
        · rw [List.getElem?_append_right hge, List.getElem?_singleton] at ht
          obtain ⟨-, ht⟩ := Option.ite_none_right_eq_some.1 ht
          cases ht
          exact hs

theorem nearest?_le_last {b : β} (h : c.nearest? get = some (n, b)) : n ≤ c.last := by
  have hnearest := c.isNearest_nearest? get
  rw [h] at hnearest
  obtain ⟨⟨s, hs, -⟩, -⟩ := hnearest
  have := (List.getElem?_eq_some_iff.1 hs).1
  rw [length_toList_eq] at this
  omega

theorem visibleVariable?_eq (name : String) (c : ScopeChain) :
    c.visibleVariable? name = (c.nearest? (·.vars.get? name)).map Prod.snd := by
  induction c with
  | global s => cases h : s.vars.get? name <;> simp [visibleVariable?, nearest?, h]
  | block s outer ih => cases h : s.vars.get? name <;> simp [visibleVariable?, nearest?, h, ih]

theorem visibleMethod?_eq (name : String) (c : ScopeChain) :
    c.visibleMethod? name = (c.nearest? (·.methods.get? name)).map Prod.snd := by
  induction c with
  | global s => cases h : s.methods.get? name <;> simp [visibleMethod?, nearest?, h]
  | block s outer ih => cases h : s.methods.get? name <;> simp [visibleMethod?, nearest?, h, ih]

/-! ## Marking a variable -/

/-- Where no scope holds the name nothing is marked. -/
theorem initializing_of_nearest?_none (h : c.nearest? (·.vars.get? name) = none) : c.initializing name = c := by
  induction c with
  | global s =>
    have hs : s.vars.get? name = none := Option.map_eq_none_iff.1 h
    exact congrArg global (Scope.marking_of_get?_none hs)
  | block s outer ih =>
    cases hs : s.vars.get? name with
    | some v => simp [nearest?, hs] at h
    | none =>
      have hcontains : s.vars.contains name = false := by rw [← SymbolTable.isSome_get?, hs]; rfl
      simp only [nearest?, hs, Option.map_none, Option.orElse_eq_orElse, Option.orElse_none] at h
      simp [initializing, hcontains, ih h]

/-- **Marking a variable changes the scope in which its name is found**, and no other one. -/
theorem toList_initializing {v : Variable} (h : c.nearest? (·.vars.get? name) = some (n, v)) :
    (c.initializing name).toList = c.toList.modify n (·.marking name) := by
  induction c with
  | global s =>
    obtain ⟨v, -, heq⟩ := Option.map_eq_some_iff.1 h
    cases heq
    rfl
  | block s outer ih =>
    cases hs : s.vars.get? name with
    | some v =>
      have hcontains : s.vars.contains name = true := by rw [← SymbolTable.isSome_get?, hs]; rfl
      simp only [nearest?, hs] at h
      cases h
      simp [initializing, hcontains, Scope.marking, ← length_toList_eq, List.modify_eq_set_getElem?]
    | none =>
      have hcontains : s.vars.contains name = false := by rw [← SymbolTable.isSome_get?, hs]; rfl
      have houter : outer.nearest? (·.vars.get? name) = some (n, v) := by
        simpa [nearest?, hs] using h
      have hn : n < outer.toList.length := Nat.lt_of_le_of_lt (nearest?_le_last houter) outer.last_lt_length
      simp [initializing, hcontains, ih houter, modify_append_left _ hn]

/-! ## Seen from one scope -/

/-- The chain with more scopes inside. -/
def extend (c : ScopeChain) (scopes : List Scope) : ScopeChain := scopes.foldl (fun c s => .block s c) c

theorem extend_append (c : ScopeChain) (scopes : List Scope) (s : Scope) :
    c.extend (scopes ++ [s]) = .block s (c.extend scopes) := by
  rw [extend, List.foldl_append]
  rfl

@[simp] theorem toList_extend (c : ScopeChain) (scopes : List Scope) : (c.extend scopes).toList = c.toList ++ scopes := by
  induction scopes using List.reverseRecOn with
  | nil => simp [extend]
  | append_singleton scopes s ih => rw [extend_append, toList_block, ih, List.append_assoc]

theorem last_le_extend (c : ScopeChain) (scopes : List Scope) : c.last ≤ (c.extend scopes).last := by
  have h := length_toList_eq (c.extend scopes)
  rw [toList_extend, List.length_append, length_toList_eq] at h
  omega

/-- The scopes up to one of them are a chain, inside of which the others are. -/
theorem exists_extend (h : n ≤ c.last) : ∃ inner scopes, c = extend inner scopes ∧ inner.last = n := by
  induction c with
  | global s => exact ⟨.global s, [], rfl, (Nat.le_zero.1 h).symm⟩
  | block s outer ih =>
    by_cases hn : n = outer.last + 1
    · exact ⟨.block s outer, [], rfl, hn.symm⟩
    · have hle : n ≤ outer.last := by
        rw [last] at h
        omega
      obtain ⟨inner, scopes, rfl, hlast⟩ := ih hle
      exact ⟨inner, scopes ++ [s], (extend_append inner scopes s).symm, hlast⟩

theorem outward?_extend (c : ScopeChain) (scopes : List Scope) : (c.extend scopes).outward? c.last = some c := by
  induction scopes using List.reverseRecOn with
  | nil => exact c.outward?_last
  | append_singleton scopes s ih =>
    have := c.last_le_extend scopes
    rw [extend_append, outward?, if_neg (by omega), ih]

theorem atScope_extend {ε : Type} (c : ScopeChain) (scopes : List Scope) (f : ScopeChain → Except ε ScopeChain) :
    (c.extend scopes).atScope c.last f = some ((·.extend scopes) <$> f c) := by
  induction scopes using List.reverseRecOn with
  | nil => cases c <;> cases hf : f _ <;> simp [extend, atScope, last, hf]
  | append_singleton scopes s ih =>
    have := c.last_le_extend scopes
    rw [extend_append, atScope, if_neg (by omega), ih]
    cases f c with
    | error e => rfl
    | ok c' => simp [extend_append]

/-- There is no scope behind the innermost one. -/
theorem atScope_of_lt {ε : Type} (h : c.last < n) (f : ScopeChain → Except ε ScopeChain) : c.atScope n f = none := by
  induction c with
  | global s => exact if_neg (Nat.ne_of_gt h)
  | block s outer ih =>
    rw [last] at h
    rw [atScope, if_neg (Nat.ne_of_gt h), ih (Nat.lt_of_succ_lt h)]
    rfl

end ScopeChain

end BlockCheck
