import BlockCheck.Proofs.Line.Declaring

/-!
# Entries of final variables

A table is settled if its final variables are initialized (`SymbolTable.Settled`), and one table keeps the finals of
another if every final variable of that is in it as it was (`SymbolTable.KeepsFinals`); both are meant scope by scope
for chains. Declaring a name keeps all entries. Marking a variable initialized changes one entry, and in settled scopes
this is not that of a final variable (`SymbolTable.KeepsFinals.modify`). So both of what a line can do to the scopes
keep the final variables, and so does opening, closing or copying scopes, as far as they stay open.
-/

namespace BlockCheck

/-! ## Tables -/

namespace SymbolTable

variable {t t' t'' : SymbolTable Variable} {name : String} {v : Variable}

/-- Every final variable of the table is initialized. -/
def Settled (t : SymbolTable Variable) : Prop := ∀ e ∈ t.entries, e.2.isFinal = true → e.2.isInitialized = true

/-- The final variables of the first table are in the second one as they were. -/
def KeepsFinals (t t' : SymbolTable Variable) : Prop :=
  ∀ name v, t.get? name = some v → v.isFinal = true → t'.get? name = some v

theorem KeepsFinals.refl (t : SymbolTable Variable) : t.KeepsFinals t := fun _ _ h _ => h

theorem KeepsFinals.trans (h : t.KeepsFinals t') (h' : t'.KeepsFinals t'') : t.KeepsFinals t'' :=
  fun name v hv hfinal => h' name v (h name v hv hfinal) hfinal

theorem Settled.get? (h : t.Settled) (hv : t.get? name = some v) (hfinal : v.isFinal = true) :
    v.isInitialized = true := h (name, v) (mem_of_get? hv) hfinal

theorem KeepsFinals.insert (h : t.insert name v = .ok t') : t.KeepsFinals t' := fun _ _ hu _ => get?_of_insert h hu

theorem Settled.insert (ht : t.Settled) (h : t.insert name v = .ok t') (hv : v.isFinal = true → v.isInitialized = true) :
    t'.Settled := by
  obtain ⟨-, rfl⟩ := insert_eq_ok.1 h
  intro e he
  rcases List.mem_append.1 he with he | he
  · exact ht e he
  · rw [List.mem_singleton.1 he]
    exact hv

/-- In a settled table a final variable is initialized already. -/
theorem KeepsFinals.modify (ht : t.Settled) (name : String) : t.KeepsFinals (t.modify name .markInitialized) := by
  intro other v hv hfinal
  have hmarked : v.markInitialized = v := by
    rw [Variable.markInitialized, ← ht.get? hv hfinal]
  rw [get?_modify _ hv, hmarked, ite_self]

theorem Settled.modify (ht : t.Settled) (name : String) : (t.modify name .markInitialized).Settled := by
  intro e he hfinal
  obtain ⟨d, hd, rfl⟩ := List.mem_map.1 he
  by_cases hname : d.1 = name
  · simp [hname, Variable.markInitialized]
  · rw [if_neg hname] at hfinal ⊢
    exact ht d hd hfinal

end SymbolTable

/-! ## Chains -/

namespace ScopeChain

variable {c c' c'' : ScopeChain} {s : Scope} {n : Nat} {name : String} {v : Variable}

/-- Every final variable of every scope is initialized. -/
def Settled (c : ScopeChain) : Prop := ∀ s ∈ c.toList, s.vars.Settled

/-- The same scopes are open, and each has kept its final variables. -/
inductive KeepsFinals : ScopeChain → ScopeChain → Prop
  | global {s s' : Scope} (h : s.vars.KeepsFinals s'.vars) : KeepsFinals (.global s) (.global s')
  | block {s s' : Scope} {outer outer' : ScopeChain} (h : s.vars.KeepsFinals s'.vars)
      (houter : KeepsFinals outer outer') : KeepsFinals (.block s outer) (.block s' outer')

/-- The variable of the name that scope `n` declares. -/
def variableIn? (c : ScopeChain) (n : Nat) (name : String) : Option Variable :=
  (c.outward? n).bind fun c => c.innermost.vars.get? name

@[simp] theorem settled_global : (global s).Settled ↔ s.vars.Settled := by simp [Settled, toList]

@[simp] theorem settled_block : (block s c).Settled ↔ s.vars.Settled ∧ c.Settled := by
  simp [Settled, toList, or_imp, forall_and, and_comm]

theorem settled_empty : empty.Settled := by simp [empty, SymbolTable.Settled]

namespace KeepsFinals

theorem refl (c : ScopeChain) : KeepsFinals c c := by
  induction c with
  | global s => exact .global (.refl _)
  | block s outer ih => exact .block (.refl _) ih

theorem trans (h : KeepsFinals c c') (h' : KeepsFinals c' c'') : KeepsFinals c c'' := by
  induction h generalizing c'' with
  | global h =>
    cases h' with
    | global h' => exact .global (h.trans h')
  | block h _ ih =>
    cases h' with
    | block h' houter => exact .block (h.trans h') (ih houter)

theorem last_eq (h : KeepsFinals c c') : c'.last = c.last := by
  induction h with
  | global => rfl
  | block _ _ ih => simp [last, ih]

/-- A final variable is where it was. -/
theorem variableIn? (h : KeepsFinals c c') (hv : c.variableIn? n name = some v) (hfinal : v.isFinal = true) :
    c'.variableIn? n name = some v := by
  unfold ScopeChain.variableIn? at hv ⊢
  induction h with
  | global h =>
    by_cases hn : n = 0
    · simp only [outward?, if_pos hn, Option.bind_some] at hv ⊢
      exact h name v hv hfinal
    · simp [outward?, hn] at hv
  | @block s s' outer outer' h houter ih =>
    rw [outward?] at hv ⊢
    rw [houter.last_eq]
    by_cases hn : n = outer.last + 1
    · rw [if_pos hn] at hv ⊢
      exact h name v hv hfinal
    · rw [if_neg hn] at hv ⊢
      exact ih hv

end KeepsFinals

/-! ### The innermost scope -/

theorem keepsFinals_setInnermost (h : c.innermost.vars.KeepsFinals s.vars) : KeepsFinals c (c.setInnermost s) := by
  cases c with
  | global => exact .global h
  | block => exact .block h (.refl _)

theorem Settled.setInnermost (hc : c.Settled) (hs : s.vars.Settled) : (c.setInnermost s).Settled := by
  cases c with
  | global => exact settled_global.2 hs
  | block => exact settled_block.2 ⟨hs, (settled_block.1 hc).2⟩

theorem Settled.innermost (hc : c.Settled) : c.innermost.vars.Settled := by
  cases c with
  | global => exact settled_global.1 hc
  | block => exact (settled_block.1 hc).1

/-- The final variables stay as they were, and all of them are initialized. -/
def SafelyBecomes (c c' : ScopeChain) : Prop := KeepsFinals c c' ∧ c'.Settled

theorem SafelyBecomes.trans (h : c.SafelyBecomes c') (h' : c'.SafelyBecomes c'') : c.SafelyBecomes c'' :=
  ⟨h.1.trans h'.1, h'.2⟩

theorem safelyBecomes_addVariable (hc : c.Settled) (hv : v.isFinal = true → v.isInitialized = true)
    (h : c.addVariable name v = .ok c') : c.SafelyBecomes c' := by
  obtain ⟨hfresh, rfl⟩ := addVariable_eq_ok.1 h
  have hinsert : c.innermost.vars.insert name v = .ok ⟨c.innermost.vars.entries ++ [(name, v)]⟩ :=
    SymbolTable.insert_eq_ok.2 ⟨hfresh, rfl⟩
  exact ⟨keepsFinals_setInnermost (.insert hinsert), hc.setInnermost (hc.innermost.insert hinsert hv)⟩

theorem safelyBecomes_addMethod {m : Method} (hc : c.Settled)
    (h : c.addMethod name m = .ok c') : c.SafelyBecomes c' := by
  obtain ⟨-, rfl⟩ := addMethod_eq_ok.1 h
  exact ⟨keepsFinals_setInnermost (.refl _), hc.setInnermost hc.innermost⟩

theorem safelyBecomes_initializing (hc : c.Settled) (name : String) : c.SafelyBecomes (c.initializing name) := by
  induction c with
  | global s =>
    rw [settled_global] at hc
    exact ⟨.global (.modify hc name), settled_global.2 (hc.modify name)⟩
  | block s outer ih =>
    obtain ⟨hs, houter⟩ := settled_block.1 hc
    rw [initializing]
    split
    · exact ⟨.block (.modify hs name) (.refl _), settled_block.2 ⟨hs.modify name, houter⟩⟩
    · obtain ⟨hkeeps, hsettled⟩ := ih houter
      exact ⟨.block (.refl _) hkeeps, settled_block.2 ⟨hs, hsettled⟩⟩

end ScopeChain

end BlockCheck
