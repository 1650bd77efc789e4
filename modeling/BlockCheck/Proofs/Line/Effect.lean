import BlockCheck.Proofs.Line.Acceptance
import BlockCheck.Proofs.Line.ScopeChanges
import BlockCheck.Proofs.Scope.Numbering

/-!
# What an accepted line does to the scopes

An accepted line changes at most one scope. A declaration appends to a table of the innermost scope, and an assignment
marks one entry of the scope in which the name of its target is found; the other statements change nothing
(`StatementTree.Makes`, `line_effect`). This is said of the tables with their order, and of all scopes.

A table lists no name twice, as the scopes of all chains that are ever reached (`ScopeChain.Distinct`,
`ScopeChain.stable_distinct`): so the entry that is marked is the only one of its name in its scope.
-/

namespace BlockCheck

/-! ## Tables without repetition -/

/-- The tables of the scope list no name twice. -/
def Scope.Distinct (s : Scope) : Prop := s.vars.names.Nodup ∧ s.methods.names.Nodup

/-- The scope with more variables behind those that it has. -/
def Scope.withVariables (s : Scope) (entries : List (String × Variable)) : Scope :=
  { s with vars := ⟨s.vars.entries ++ entries⟩ }

/-- The scope with one more method behind those that it has. -/
def Scope.withMethod (s : Scope) (name : String) (m : Method) : Scope :=
  { s with methods := ⟨s.methods.entries ++ [(name, m)]⟩ }

namespace ScopeChain

variable {c c' : ScopeChain} {n : Nat}

/-- No table of any scope lists a name twice. -/
def Distinct (c : ScopeChain) : Prop := ∀ s ∈ c.toList, s.Distinct

theorem distinct_empty : empty.Distinct := by simp [Distinct, empty, Scope.Distinct, SymbolTable.names]

theorem toList_withVariables (c : ScopeChain) (entries : List (String × Variable)) :
    (c.withVariables entries).toList = c.toList.modify c.last (·.withVariables entries) :=
  c.toList_setInnermost_apply (·.withVariables entries)

theorem toList_withMethod (c : ScopeChain) (name : String) (m : Method) :
    (c.withMethod name m).toList = c.toList.modify c.last (·.withMethod name m) :=
  c.toList_setInnermost_apply (·.withMethod name m)

/-- A change of one scope leaves the tables of the others as they are. -/
theorem Distinct.of_modify {f : Scope → Scope} (hc : c.Distinct) (h : c'.toList = c.toList.modify n f)
    (hf : ∀ s, c.toList[n]? = some s → s.Distinct → (f s).Distinct) : c'.Distinct := by
  intro s hs
  rw [h] at hs
  obtain ⟨i, hi⟩ := List.getElem?_of_mem hs
  rw [List.getElem?_modify] at hi
  obtain ⟨t, ht, rfl⟩ := Option.map_eq_some_iff.1 hi
  have hdistinct := hc t (List.mem_of_getElem? ht)
  by_cases hin : n = i
  · subst hin
    simpa using hf t ht hdistinct
  · simpa [hin] using hdistinct

theorem Distinct.addVariable {name : String} {v : Variable} (hc : c.Distinct) (h : c.addVariable name v = .ok c') :
    c'.Distinct := by
  obtain ⟨hfresh, rfl⟩ := addVariable_eq_ok.1 h
  refine hc.of_modify (c.toList_withVariables [(name, v)]) fun s hs hdistinct => ?_
  cases (c.getElem?_last).symm.trans hs
  exact ⟨SymbolTable.nodup_append_entry hdistinct.1 hfresh v, hdistinct.2⟩

theorem Distinct.addMethod {name : String} {m : Method} (hc : c.Distinct) (h : c.addMethod name m = .ok c') :
    c'.Distinct := by
  obtain ⟨hfresh, rfl⟩ := addMethod_eq_ok.1 h
  refine hc.of_modify (c.toList_withMethod name m) fun s hs hdistinct => ?_
  cases (c.getElem?_last).symm.trans hs
  exact ⟨hdistinct.1, SymbolTable.nodup_append_entry hdistinct.2 hfresh m⟩

theorem Distinct.initializing (hc : c.Distinct) (name : String) : (c.initializing name).Distinct := by
  cases hnearest : c.nearest? (·.vars.get? name) with
  | none => rwa [initializing_of_nearest?_none hnearest]
  | some nv =>
    refine hc.of_modify (toList_initializing hnearest) fun s _ hdistinct => ⟨?_, hdistinct.2⟩
    rw [Scope.marking, SymbolTable.names_modify]
    exact hdistinct.1

theorem stable_distinct : Stable Distinct where
  addVariable _ _ _ _ hc _ h := hc.addVariable h
  addMethod _ _ _ _ hc h := hc.addMethod h
  initializing _ name hc := hc.initializing name

end ScopeChain

/-! ## The effect of a statement -/

namespace StatementTree

/-- What the statement makes of the scopes `c`, scope by scope. A declaration appends its declarators from left to
right, or a method with the parameters of its head, to the innermost scope. An assignment marks the one entry of its
target in the innermost scope that has one. -/
def Makes (c c' : ScopeChain) : StatementTree → Prop
  | variableDeclaration isFinal type ds =>
    c'.toList = c.toList.modify c.last
      (·.withVariables (ds.map fun d => (d.name.name, ⟨type, isFinal, d.value.isSome⟩)))
  | methodDeclaration name ps =>
    c'.toList = c.toList.modify c.last
      (·.withMethod name.name ⟨⟨ps.map fun p => (p.name.name, ⟨p.type, p.isFinal, true⟩)⟩⟩)
  | assignment target _ =>
    ∃ n v s before after, ScopeChain.IsNearest c.toList (·.vars.get? target.name) (some (n, v)) ∧
      c.visibleVariable? target.name = some v ∧ c.toList[n]? = some s ∧
      s.vars.entries = before ++ (target.name, v) :: after ∧
      target.name ∉ before.map Prod.fst ∧ target.name ∉ after.map Prod.fst ∧
      c'.toList = c.toList.set n
        { s with vars := ⟨before ++ (target.name, { v with isInitialized := true }) :: after⟩ }
  | returnStatement | conditional _ | methodCall _ _ | closeBlock => c' = c

variable {c : ScopeChain} {st : StatementTree}

theorem makes_effect (hc : c.Distinct) (hlegal : st.Legal c) : st.Makes c (st.effect c) := by
  cases st with
  | variableDeclaration isFinal type ds => exact c.toList_withVariables _
  | methodDeclaration name ps => exact c.toList_withMethod _ _
  | returnStatement | conditional _ | methodCall _ _ | closeBlock => exact rfl
  | assignment target value =>
    obtain ⟨v, hv, -⟩ := hlegal
    have hvisible := hv
    rw [ScopeChain.visibleVariable?_eq] at hv
    obtain ⟨⟨n, v⟩, hnearest, rfl⟩ := Option.map_eq_some_iff.1 hv
    have hisNearest := c.isNearest_nearest? (·.vars.get? target.name)
    rw [hnearest] at hisNearest
    obtain ⟨⟨s, hs, hget⟩, -⟩ := hisNearest
    obtain ⟨before, after, hentries, hbefore, hafter, hmodify⟩ :=
      SymbolTable.exists_entry (hc s (List.mem_of_getElem? hs)).1 hget
    refine ⟨n, v, s, before, after, hnearest ▸ c.isNearest_nearest? _, hvisible, hs, hentries, hbefore, hafter, ?_⟩
    have hmarked : s.vars.modify target.name .markInitialized =
        ⟨before ++ (target.name, v.markInitialized) :: after⟩ := congrArg SymbolTable.mk (hmodify _)
    show (c.initializing target.name).toList = _
    rw [ScopeChain.toList_initializing hnearest, List.modify_eq_set_getElem?, hs]
    show c.toList.set n (s.marking target.name) = _
    rw [Scope.marking, hmarked]
    rfl

/-- A declaration is one of final variables if the keyword stands first. -/
theorem Written.isFinal_iff {isFinal : Bool} {type : ValueType} {ds : List Declarator} {ts : List Token}
    (h : (StatementTree.variableDeclaration isFinal type ds).Written ts) :
    isFinal = true ↔ ts.head?.map Token.category = some .kwFinal := by
  cases h with
  | variableDeclaration hkeyword _ _ => cases type <;> simp [hkeyword, ValueType.keyword]
  | finalDeclaration hfirst _ _ _ _ => simp [hfirst]

end StatementTree

/-- **The effect of an accepted line** on scopes whose tables list no name twice, which they do not afterwards either. A
blank line or a comment changes nothing. Any other accepted line holds a statement of its kind, and makes of the scopes
what this statement does and nothing else: same scopes, same tables in the same order, apart from the entries that a
declaration appends or the one that an assignment marks. -/
theorem line_effect {c c' : ScopeChain} {line : List Char} {kind? : Option StatementKind} (hc : c.Distinct)
    (h : c.checkLine line = (.ok kind?, c')) :
    c'.Distinct ∧ (kind? = none → c' = c) ∧
      ∀ kind, kind? = some kind → ∃ st : StatementTree, st.kind = kind ∧ (readLine line).failure = none ∧
        st.Written (readLine line).tokens ∧ st.Makes c c' ∧
        ∀ isFinal type ds, st = .variableDeclaration isFinal type ds →
          (isFinal = true ↔ (readLine line).tokens.head?.map Token.category = some .kwFinal) := by
  have hdistinct : c'.Distinct := by
    have := ScopeChain.stable_distinct.checkLine hc line
    rwa [h] at this
  rcases ScopeChain.checkLine_ok h with ⟨rfl, -, rfl⟩ | ⟨st, rfl, hfailure, hw, hlegal, rfl⟩
  · exact ⟨hdistinct, fun _ => rfl, nofun⟩
  · refine ⟨hdistinct, nofun, fun kind hkind => ?_⟩
    cases hkind
    refine ⟨st, rfl, hfailure, hw, StatementTree.makes_effect hc hlegal, ?_⟩
    rintro isFinal type ds rfl
    exact hw.isFinal_iff

/-- An assignment inside of two blocks marks the variable of the outer one, and not the global variable that this one
shadows. -/
theorem line_effect_of_shadowing :
    let x : Variable := ⟨.int, false, false⟩
    let y : Variable := ⟨.boolean, true, true⟩
    let c : ScopeChain := .block {} (.block { vars := ⟨[("y", y), ("x", x)]⟩ } (.global { vars := ⟨[("x", x)]⟩ }))
    let c' : ScopeChain :=
      .block {} (.block { vars := ⟨[("y", y), ("x", ⟨.int, false, true⟩)]⟩ } (.global { vars := ⟨[("x", x)]⟩ }))
    c.Distinct ∧ c.checkLine "x = 5;".toList = (.ok (some .assignment), c') ∧
      ∃ st : StatementTree, st.kind = .assignment ∧ st.Written (readLine "x = 5;".toList).tokens ∧ st.Makes c c' := by
  intro x y c c'
  have hc : c.Distinct := by
    simp [c, ScopeChain.Distinct, Scope.Distinct, SymbolTable.names]
  have h : c.checkLine "x = 5;".toList = (.ok (some .assignment), c') := by decide +kernel
  obtain ⟨-, -, heffect⟩ := line_effect hc h
  obtain ⟨st, hkind, -, hw, hmakes, -⟩ := heffect .assignment rfl
  exact ⟨hc, h, st, hkind, hw, hmakes⟩

end BlockCheck
