import BlockCheck.Proofs.Line.StatementTree
import BlockCheck.Proofs.Scope.Entries

/-!
# Adding declarations to scopes

Declaring a name in the innermost scope succeeds if the name is new there, and appends it (`addVariable_eq_ok`,
`addMethod_eq_ok`). Declarators are declared one after another: a list of them obeys the rules if its first one does
and the others do once it is declared (`declarable_cons`).
-/

namespace BlockCheck

namespace ScopeChain

variable {c c' : ScopeChain}

@[simp] theorem innermost_setInnermost (c : ScopeChain) (s : Scope) : (c.setInnermost s).innermost = s := by
  cases c <;> rfl

@[simp] theorem setInnermost_setInnermost (c : ScopeChain) (s s' : Scope) :
    (c.setInnermost s).setInnermost s' = c.setInnermost s' := by cases c <;> rfl

@[simp] theorem setInnermost_innermost (c : ScopeChain) : c.setInnermost c.innermost = c := by cases c <;> rfl

/-! ## One name -/

theorem addVariable_eq_ok {name : String} {v : Variable} :
    c.addVariable name v = .ok c' ↔ c.innermost.vars.contains name = false ∧ c' = c.withVariables [(name, v)] := by
  unfold addVariable withVariables
  constructor
  · intro h
    cases hi : c.innermost.vars.insert name v with
    | error f => rw [hi] at h; cases h
    | ok vars =>
      obtain ⟨hn, rfl⟩ := SymbolTable.insert_eq_ok.1 hi
      rw [hi] at h
      cases h
      exact ⟨hn, rfl⟩
  · rintro ⟨hn, rfl⟩
    rw [SymbolTable.insert_eq_ok.2 ⟨hn, rfl⟩]
    rfl

theorem addMethod_eq_ok {name : String} {m : Method} :
    c.addMethod name m = .ok c' ↔ c.innermost.methods.contains name = false ∧ c' = c.withMethod name m := by
  unfold addMethod withMethod
  constructor
  · intro h
    cases hi : c.innermost.methods.insert name m with
    | error f => rw [hi] at h; cases h
    | ok methods =>
      obtain ⟨hn, rfl⟩ := SymbolTable.insert_eq_ok.1 hi
      rw [hi] at h
      cases h
      exact ⟨hn, rfl⟩
  · rintro ⟨hn, rfl⟩
    rw [SymbolTable.insert_eq_ok.2 ⟨hn, rfl⟩]
    rfl

/-! ## Several variables -/

theorem withVariables_nil (c : ScopeChain) : c.withVariables [] = c := by
  unfold withVariables
  rw [List.append_nil]
  exact setInnermost_innermost c

theorem withVariables_append (c : ScopeChain) (es fs : List (String × Variable)) :
    (c.withVariables es).withVariables fs = c.withVariables (es ++ fs) := by
  unfold withVariables
  rw [innermost_setInnermost, setInnermost_setInnermost, List.append_assoc]

variable {isFinal : Bool} {type : ValueType}

theorem declaring_nil (c : ScopeChain) : c.declaring isFinal type [] = c := c.withVariables_nil

theorem declaring_cons (c : ScopeChain) (d : Declarator) (ds : List Declarator) :
    c.declaring isFinal type (d :: ds) = (c.declaring isFinal type [d]).declaring isFinal type ds := by
  unfold declaring
  rw [withVariables_append]
  rfl

/-- A name is new after a declaration if it was new before and another one is declared. -/
theorem contains_withVariables (c : ScopeChain) (e : String × Variable) (name : String) :
    (c.withVariables [e]).innermost.vars.contains name = false ↔
      c.innermost.vars.contains name = false ∧ name ≠ e.1 := by
  rw [withVariables, innermost_setInnermost]
  exact SymbolTable.contains_append_entry

/-- Different names that are new are declared one after another. -/
theorem foldlM_addVariable {entries : List (String × Variable)} (hnames : (entries.map Prod.fst).Nodup)
    (hnew : ∀ e ∈ entries, c.innermost.vars.contains e.1 = false) :
    entries.foldlM (fun c e => c.addVariable e.1 e.2) c = .ok (c.withVariables entries) := by
  induction entries generalizing c with
  | nil => exact congrArg _ c.withVariables_nil.symm
  | cons e es ih =>
    rw [List.map_cons, List.nodup_cons] at hnames
    have hrest : ∀ f ∈ es, (c.withVariables [e]).innermost.vars.contains f.1 = false := fun f hf =>
      (contains_withVariables c e f.1).2 ⟨hnew f (List.mem_cons_of_mem _ hf), fun h =>
        hnames.1 (List.mem_map.2 ⟨f, hf, h⟩)⟩
    rw [List.foldlM_cons, addVariable_eq_ok.2 ⟨hnew e List.mem_cons_self, rfl⟩]
    show es.foldlM (fun c e => c.addVariable e.1 e.2) (c.withVariables [e]) = _
    rw [ih hnames.2 hrest, withVariables_append]
    rfl

theorem declarable_nil (c : ScopeChain) : c.Declarable isFinal type [] :=
  ⟨fun _ _ _ h => (nomatch h), List.nodup_nil, fun _ h => (nomatch h)⟩

/-- **Declarators are declared from left to right.** -/
theorem declarable_cons {d : Declarator} {ds : List Declarator} :
    c.Declarable isFinal type (d :: ds) ↔
      (∀ v, d.value = some v → c.Fits type v) ∧ c.innermost.vars.contains d.name.name = false ∧
        (c.declaring isFinal type [d]).Declarable isFinal type ds := by
  constructor
  · rintro ⟨hfits, hdistinct, hfresh⟩
    rw [List.map_cons, List.nodup_cons] at hdistinct
    refine ⟨fun v hv => ?_, hfresh d List.mem_cons_self, ?_, hdistinct.2, fun e he => ?_⟩
    · have h := hfits 0 d v rfl hv
      rwa [List.take_zero, declaring_nil] at h
    · intro i e v hi hv
      have h := hfits (i + 1) e v hi hv
      rwa [List.take_succ_cons, declaring_cons] at h
    · exact (contains_withVariables c _ _).2 ⟨hfresh e (List.mem_cons_of_mem _ he), fun h =>
        hdistinct.1 (List.mem_map.2 ⟨e, he, h⟩)⟩
  · rintro ⟨hfit, hnew, hfits, hdistinct, hfresh⟩
    have hne : ∀ e ∈ ds, c.innermost.vars.contains e.name.name = false ∧ e.name.name ≠ d.name.name :=
      fun e he => (contains_withVariables c _ _).1 (hfresh e he)
    refine ⟨fun i e v hi hv => ?_, ?_, fun e he => ?_⟩
    · cases i with
      | zero =>
        cases hi
        rw [List.take_zero, declaring_nil]
        exact hfit v hv
      | succ i =>
        rw [List.take_succ_cons, declaring_cons]
        exact hfits i e v hi hv
    · rw [List.map_cons, List.nodup_cons]
      refine ⟨fun h => ?_, hdistinct⟩
      obtain ⟨e, he, hname⟩ := List.mem_map.1 h
      exact (hne e he).2 hname
    · rcases List.mem_cons.1 he with rfl | he
      · exact hnew
      · exact (hne e he).1

/-! ## Names that are used -/

theorem requireDeclared_eq_ok {name : Token} {v : Variable} :
    c.requireDeclared name = .ok v ↔ c.visibleVariable? name.name = some v := by
  unfold requireDeclared
  cases c.visibleVariable? name.name <;> simp

theorem requireMethod_eq_ok {name : Token} {m : Method} :
    c.requireMethod name = .ok m ↔ c.visibleMethod? name.name = some m := by
  unfold requireMethod
  cases c.visibleMethod? name.name <;> simp

theorem requireUsable_eq_ok {expected : ValueType} {name : Token} :
    c.requireUsable expected name = .ok () ↔ c.Usable expected name.name := by
  unfold requireUsable requireDeclared Usable
  cases hv : c.visibleVariable? name.name with
  | none => exact ⟨fun h => (nomatch h), fun ⟨_, h, _⟩ => (nomatch h)⟩
  | some v =>
    show (if (!v.isInitialized) = true then _ else if v.type ∉ expected.sources then _ else _) = _ ↔ _
    cases hi : v.isInitialized <;> by_cases ht : v.type ∈ expected.sources <;> simp [hi, ht]

end ScopeChain

end BlockCheck
