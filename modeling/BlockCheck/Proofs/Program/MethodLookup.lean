import BlockCheck.Proofs.Line.StatementReader
import BlockCheck.Proofs.Program.BlockVerdict
import Mathlib.Data.List.Perm.Basic

/-!
# Scopes with the same methods in another order

Of the global methods a statement inside of a method uses no more than what the table gives for a name. So scopes that
agree in the variables and in what they give for the name of a method are alike (`ScopeChain.Alike`): what is accepted
in the one is accepted in the other (`Alike.checkLine`), from single lines up to whole methods (`Alike.check_method`).
Tables with the same methods in another order give the same for every name (`SymbolTable.get?_of_perm`).
-/

namespace BlockCheck

theorem SymbolTable.get?_of_perm {α : Type} {entries entries' : List (String × α)} (h : entries.Perm entries')
    (hnames : (entries.map Prod.fst).Nodup) (name : String) :
    (SymbolTable.mk entries).get? name = (SymbolTable.mk entries').get? name := by
  have hnames' : (entries'.map Prod.fst).Nodup := (h.map Prod.fst).nodup hnames
  refine Option.ext fun a => ?_
  rw [get?_eq_some_iff hnames, get?_eq_some_iff hnames']
  exact h.mem_iff

namespace ScopeChain

/-- The scopes have the same variables, and the global methods of both are the same under every name. -/
inductive Alike : ScopeChain → ScopeChain → Prop
  | global {s s' : Scope} : s.vars = s'.vars → (∀ name, s.methods.get? name = s'.methods.get? name) →
      Alike (.global s) (.global s')
  | block {outer outer' : ScopeChain} (s : Scope) : Alike outer outer' → Alike (.block s outer) (.block s outer')

namespace Alike

variable {c c' c₁ : ScopeChain}

/-! ## Looking up -/

theorem visibleVariable? (h : Alike c c') (name : String) : c.visibleVariable? name = c'.visibleVariable? name := by
  induction h with
  | global hvars _ => rw [ScopeChain.visibleVariable?, ScopeChain.visibleVariable?, hvars]
  | block s _ ih => rw [ScopeChain.visibleVariable?, ScopeChain.visibleVariable?, ih]

theorem visibleMethod? (h : Alike c c') (name : String) : c.visibleMethod? name = c'.visibleMethod? name := by
  induction h with
  | global _ hmethods => exact hmethods name
  | block s _ ih => rw [ScopeChain.visibleMethod?, ScopeChain.visibleMethod?, ih]

theorem vars (h : Alike c c') : c.innermost.vars = c'.innermost.vars := by
  cases h with
  | global hvars _ => exact hvars
  | block s _ => rfl

theorem fits (h : Alike c c') {type : ValueType} {value : Token} (hfits : c.Fits type value) : c'.Fits type value := by
  refine ⟨hfits.1, fun hname => ?_⟩
  obtain ⟨v, hv, husable⟩ := hfits.2 hname
  exact ⟨v, h.visibleVariable? _ ▸ hv, husable⟩

/-! ## Changing -/

theorem withVariables (h : Alike c c') (entries : List (String × Variable)) :
    Alike (c.withVariables entries) (c'.withVariables entries) := by
  cases h with
  | global hvars hmethods =>
    refine .global ?_ hmethods
    simp only [innermost, hvars]
  | block s h => exact .block _ h

theorem initializing (h : Alike c c') (name : String) : Alike (c.initializing name) (c'.initializing name) := by
  induction h with
  | global hvars hmethods =>
    refine .global ?_ hmethods
    simp only [hvars]
  | block s h ih =>
    rw [ScopeChain.initializing, ScopeChain.initializing]
    split
    · exact .block _ h
    · exact .block s ih

theorem pop? (h : Alike c c') (hpop : c.pop? = some c₁) : ∃ c₁', c'.pop? = some c₁' ∧ Alike c₁ c₁' := by
  cases h with
  | global => cases hpop
  | block s h =>
    cases hpop
    exact ⟨_, rfl, h⟩

/-! ## Statements and lines -/

theorem legal (h : Alike c c') {st : StatementTree} (hkind : st.kind ≠ .methodDeclaration) (hlegal : st.Legal c) :
    st.Legal c' := by
  cases st with
  | variableDeclaration isFinal type ds =>
    obtain ⟨hfits, hdistinct, hfresh⟩ : c.Declarable isFinal type ds := hlegal
    refine ⟨fun i d v hd hv => (h.withVariables _).fits (hfits i d v hd hv), hdistinct, fun d hd => ?_⟩
    rw [← h.vars]
    exact hfresh d hd
  | conditional operands => exact fun v hv => h.fits (hlegal v hv)
  | methodDeclaration name ps => exact absurd rfl hkind
  | assignment target value =>
    obtain ⟨v, hv, hfinal, hfits⟩ := hlegal
    exact ⟨v, h.visibleVariable? _ ▸ hv, hfinal, h.fits hfits⟩
  | methodCall name arguments =>
    obtain ⟨m, hm, harguments⟩ := hlegal
    exact ⟨m, h.visibleMethod? _ ▸ hm, harguments.imp fun _ _ hfits => h.fits hfits⟩
  | _ => trivial

theorem effect (h : Alike c c') {st : StatementTree} (hkind : st.kind ≠ .methodDeclaration) :
    Alike (st.effect c) (st.effect c') := by
  cases st with
  | variableDeclaration isFinal type ds => exact h.withVariables _
  | methodDeclaration name ps => exact absurd rfl hkind
  | assignment target value => exact h.initializing _
  | _ => exact h

/-- **What is accepted in scopes is accepted in scopes alike**, but for the declaration of a method. -/
theorem checkLine (h : Alike c c') {line : List Char} {kind : StatementKind} (hkind : kind ≠ .methodDeclaration)
    (hline : c.checkLine line = (.ok (some kind), c₁)) :
    ∃ c₁', c'.checkLine line = (.ok (some kind), c₁') ∧ Alike c₁ c₁' := by
  obtain ⟨st, rfl, hfailure, hw, hlegal, rfl⟩ := checkLine_eq_ok_some_iff.1 hline
  exact ⟨_, checkLine_of_legal hfailure hw (h.legal hkind hlegal), h.effect hkind⟩

/-! ## Blocks and methods -/

theorem check_block (h : Alike c c') {b : Block} (hb : b.check c = some c₁) :
    ∃ c₁', b.check c' = some c₁' ∧ Alike c₁ c₁' := by
  induction b generalizing c c' c₁ with
  | nil =>
    cases hb
    exact ⟨c', rfl, h⟩
  | blank line rest ih =>
    obtain ⟨hblank, hrest⟩ := Block.check_blank.1 hb
    obtain ⟨c₁', hrest', h'⟩ := ih h hrest
    exact ⟨c₁', Block.check_blank.2 ⟨hblank, hrest'⟩, h'⟩
  | statement kind line rest ih =>
    obtain ⟨hkind, c₂, hline, hrest⟩ := Block.check_statement.1 hb
    have hmethod : kind ≠ .methodDeclaration := fun h => by
      subst h
      exact absurd hkind (by decide)
    obtain ⟨c₂', hline', h₂⟩ := h.checkLine hmethod hline
    obtain ⟨c₁', hrest', h'⟩ := ih h₂ hrest
    exact ⟨c₁', Block.check_statement.2 ⟨hkind, c₂', hline', hrest'⟩, h'⟩
  | conditional head body close rest ihbody ihrest =>
    obtain ⟨hhead, inner, hbody, outer, hpop, hclosing, hrest⟩ := Block.check_conditional.1 hb
    obtain ⟨c₂', hhead', -⟩ := h.checkLine (by decide) hhead
    cases scopes_of_conditional hhead'
    obtain ⟨inner', hbody', hinner⟩ := ihbody (.block {} h) hbody
    obtain ⟨outer', hpop', houter⟩ := hinner.pop? hpop
    obtain ⟨c₁', hrest', h'⟩ := ihrest houter hrest
    exact ⟨c₁', Block.check_conditional.2 ⟨hhead', inner', hbody', outer', hpop', hclosing, hrest'⟩, h'⟩

/-- **A method that passes its check in global scopes passes it in scopes alike.** -/
theorem check_method (h : Alike c c') {t : MethodTree} (ht : t.check c = true) : t.check c' = true := by
  obtain ⟨m, c₁, hdeclared, hbody, hfinish, hblanks, hclosing⟩ := MethodTree.check_eq_true.1 ht
  have hentered : Alike (MethodPass.entered c m).scopes (MethodPass.entered c' m).scopes :=
    (Alike.block {} h).withVariables m.parameters.entries
  obtain ⟨c₁', hbody', h₁⟩ := hentered.check_block hbody
  obtain ⟨c₂, hfinish⟩ := Option.isSome_iff_exists.1 hfinish
  obtain ⟨c₂', hfinish', -⟩ := h₁.checkLine (by decide) (takeLine_singleton_eq_some.1 hfinish)
  have hreturn : (c₁'.takeLine [.returnStatement] t.finish).isSome = true := by
    rw [takeLine_singleton_eq_some.2 hfinish']
    rfl
  exact MethodTree.check_eq_true.2 ⟨m, c₁', hdeclared, hbody', hreturn, hblanks, hclosing⟩

end Alike

end ScopeChain

end BlockCheck
