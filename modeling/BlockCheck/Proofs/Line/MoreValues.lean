import BlockCheck.Proofs.Line.StatementReader
import BlockCheck.Proofs.Scope.Related
import BlockCheck.Proofs.Token.Layout

/-!
# Scopes with more values

One chain has at most the values of another if the two differ only in that variables without a value in the one may
have one in the other (`ScopeChain.AtMost`). No rule asks that a variable has no value. So what fits in the first chain
fits in the second, a statement that is legal in the first is legal in the second, and its effect keeps the relation
(`ScopeChain.AtMost.legal`, `ScopeChain.AtMost.effect`).

The same holds if the statement itself declares more values. A line adds values to another one if it declares the same
variables and gives literals to some of them that have no value in the other (`AddsValues`). It is accepted where the
other one is accepted, and its effect is that of the other one with more values (`ScopeChain.AtMost.checkLine`).
-/

namespace BlockCheck

/-! ## Lists side by side -/

/-- A list that lies beside two others, one behind the other, falls into two parts. -/
theorem forall₂_append_parts {α β : Type} {R : α → β → Prop} {front back : List α} {bs : List β}
    (h : List.Forall₂ R (front ++ back) bs) : ∃ front' back', bs = front' ++ back' ∧ List.Forall₂ R front front' ∧
      List.Forall₂ R back back' := by
  refine ⟨bs.take front.length, bs.drop front.length, (List.take_append_drop _ _).symm, ?_, ?_⟩
  · simpa using List.forall₂_take front.length h
  · simpa using List.forall₂_drop front.length h

/-! ## Variables and scopes -/

/-- The variables are the same, but the first one may lack a value where the second one has one. -/
structure Variable.AtMost (v v' : Variable) : Prop where
  type : v'.type = v.type
  isFinal : v'.isFinal = v.isFinal
  isInitialized : v.isInitialized = true → v'.isInitialized = true

namespace Variable.AtMost

theorem refl (v : Variable) : v.AtMost v := ⟨rfl, rfl, id⟩

theorem markInitialized (v v' : Variable) (h : v.AtMost v') : v.markInitialized.AtMost v'.markInitialized :=
  ⟨h.type, h.isFinal, fun _ => rfl⟩

end Variable.AtMost

/-- The chains have the same scopes with the same names in the same order, the same types, the same finals and the same
methods. Every variable that is initialized in the first one is so in the second one. -/
def ScopeChain.AtMost (c c' : ScopeChain) : Prop := c.Related Variable.AtMost c'

/-! ## Declarators with more values -/

/-- The declarators of a type declare the same name. They have the same value, or the second one has a literal where the
first one has no value. -/
inductive Declarator.Gains (type : ValueType) : Declarator → Declarator → Prop
  | same {name name' : Token} {value value' : Option Token} : name.Alike name' → Option.Rel Token.Alike value value' →
      Gains type ⟨name, value⟩ ⟨name', value'⟩
  | given {name name' literal : Token} : name.Alike name' → literal.category ∈ type.assignable →
      literal.category ≠ .identifier → Gains type ⟨name, none⟩ ⟨name', some literal⟩

namespace Token

theorem Alike.refl (t : Token) : t.Alike t := ⟨rfl, rfl⟩

end Token

namespace Declarator.Gains

variable {type : ValueType} {d d' : Declarator}

theorem refl (type : ValueType) (d : Declarator) : d.Gains type d := by
  obtain ⟨name, value⟩ := d
  cases value with
  | none => exact .same (.refl name) .none
  | some value => exact .same (.refl name) (.some (.refl value))

theorem name_eq (h : d.Gains type d') : d'.name.name = d.name.name := by
  cases h with
  | same hname _ => exact hname.name
  | given hname _ _ => exact hname.name

theorem entry (h : d.Gains type d') (isFinal : Bool) :
    (d'.entry type isFinal).1 = (d.entry type isFinal).1 ∧
      (d.entry type isFinal).2.AtMost (d'.entry type isFinal).2 := by
  refine ⟨h.name_eq, rfl, rfl, ?_⟩
  cases h with
  | same _ hvalue =>
    cases hvalue with
    | none => exact id
    | some _ => exact id
  | given _ _ _ => exact fun _ => rfl

end Declarator.Gains

namespace ScopeChain

variable {c c' c₁ : ScopeChain} {type : ValueType} {isFinal : Bool} {ds ds' : List Declarator}

namespace AtMost

theorem refl (c : ScopeChain) : c.AtMost c := Related.refl Variable.AtMost.refl c

/-- **What fits still fits** where there are more values. -/
theorem fits (h : c.AtMost c') {value value' : Token} (halike : value.Alike value') (hfits : c.Fits type value) :
    c'.Fits type value' := by
  obtain ⟨hcategory, husable⟩ := hfits
  rw [← halike.category] at hcategory
  refine ⟨hcategory, fun hname => ?_⟩
  rw [halike.category] at hname
  obtain ⟨v, hv, hinitialized, hsource⟩ := husable hname
  obtain ⟨v', hv', hmost⟩ := h.exists_visibleVariable? hv
  rw [halike.name]
  exact ⟨v', hv', hmost.isInitialized hinitialized, hmost.type ▸ hsource⟩

/-- A literal fits everywhere. -/
theorem fits_literal {literal : Token} (c : ScopeChain) (hliteral : literal.category ∈ type.assignable)
    (hname : literal.category ≠ .identifier) : c.Fits type literal :=
  ⟨hliteral, fun h => absurd h hname⟩

theorem declaring (h : c.AtMost c') (isFinal : Bool) (hds : List.Forall₂ (Declarator.Gains type) ds ds') :
    (c.declaring isFinal type ds).AtMost (c'.declaring isFinal type ds') := by
  refine h.withVariables (List.forall₂_map_left_iff.2 (List.forall₂_map_right_iff.2 (hds.imp ?_)))
  exact fun d d' hd => hd.entry isFinal

/-- **Declarators with more values are legal** if those with fewer values are. -/
theorem declarable (h : c.AtMost c') (hds : List.Forall₂ (Declarator.Gains type) ds ds')
    (hlegal : c.Declarable isFinal type ds) : c'.Declarable isFinal type ds' := by
  induction hds generalizing c c' with
  | nil => exact declarable_nil c'
  | @cons d d' _ _ hd _ ih =>
    obtain ⟨hfits, hfresh, hrest⟩ := declarable_cons.1 hlegal
    refine declarable_cons.2 ⟨fun value' hvalue' => ?_, ?_, ih (h.declaring isFinal (.cons hd .nil)) hrest⟩
    · cases hd with
      | same _ hvalue =>
        cases hvalue with
        | none => cases hvalue'
        | some halike =>
          cases hvalue'
          exact h.fits halike (hfits _ rfl)
      | given _ hliteral hname =>
        cases hvalue'
        exact fits_literal c' hliteral hname
    · rw [hd.name_eq, h.innermost.vars.contains]
      exact hfresh

/-! ## Statements -/

theorem legal (h : c.AtMost c') {st : StatementTree} (hlegal : st.Legal c) : st.Legal c' := by
  have hfits : ∀ {type : ValueType} {value : Token}, c.Fits type value → c'.Fits type value :=
    h.fits (.refl _)
  cases st with
  | variableDeclaration isFinal type ds =>
    exact h.declarable (List.forall₂_same.2 fun d _ => .refl type d) hlegal
  | conditional operands => exact fun value hvalue => hfits (hlegal value hvalue)
  | methodDeclaration name ps =>
    obtain ⟨hunderscore, hnames, hfresh⟩ := hlegal
    exact ⟨hunderscore, hnames, by rwa [h.innermost.methods]⟩
  | assignment target value =>
    obtain ⟨v, hv, hfinal, hvalue⟩ := hlegal
    obtain ⟨v', hv', hmost⟩ := h.exists_visibleVariable? hv
    exact ⟨v', hv', hmost.isFinal.trans hfinal, hmost.type ▸ hfits hvalue⟩
  | methodCall name arguments =>
    obtain ⟨m, hm, harguments⟩ := hlegal
    exact ⟨m, (h.visibleMethod? _).trans hm, harguments.imp fun _ _ => hfits⟩
  | returnStatement | closeBlock => trivial

theorem effect (h : c.AtMost c') (st : StatementTree) : (st.effect c).AtMost (st.effect c') := by
  cases st with
  | variableDeclaration isFinal type ds => exact h.declaring isFinal (List.forall₂_same.2 fun d _ => .refl type d)
  | methodDeclaration name ps => exact h.withMethod _ _
  | assignment target value => exact h.initializing Variable.AtMost.markInitialized _
  | returnStatement | conditional _ | methodCall _ _ | closeBlock => exact h

end AtMost

end ScopeChain

/-! ## Lines -/

/-- The lines declare the same variables of a type, which are not final. The second line gives literals of the type to
some of the variables to which the first one gives no value. Otherwise the lines have the same tokens, though they may
stand at other places. -/
inductive AddsValues (line line' : List Char) : Prop
  | intro {type : ValueType} {ds ds' : List Declarator} :
      (StatementTree.variableDeclaration false type ds).Written (readLine line).tokens →
      (readLine line').failure = none →
      (StatementTree.variableDeclaration false type ds').Written (readLine line').tokens →
      List.Forall₂ (Declarator.Gains type) ds ds' → AddsValues line line'

/-- The second line is the first one, or it adds values to it. -/
def SameOrAdds (line line' : List Char) : Prop := line' = line ∨ AddsValues line line'

section Lines

variable {c c' c₁ : ScopeChain} {line line' : List Char} {kind? : Option StatementKind}

/-- A line to which values can be added is a declaration of variables, if it is accepted. -/
theorem AddsValues.kind_of_checkLine (h : AddsValues line line') (hcheck : c.checkLine line = (.ok kind?, c₁)) :
    kind? = some .variableDeclaration := by
  obtain ⟨hw, -, -, -⟩ := h
  rw [(ScopeChain.statementOn?_of_checkLine hcheck).1, statementOn?, hw.ofTokens?]
  rfl

/-- Values are added to declarations of variables only. -/
theorem SameOrAdds.eq_of_checkLine (h : SameOrAdds line line') (hcheck : c.checkLine line = (.ok kind?, c₁))
    (hkind : kind? ≠ some .variableDeclaration) : line' = line :=
  h.resolve_right fun hadds => hkind (hadds.kind_of_checkLine hcheck)

/-- **A line is accepted with more values**: where there are more of them already, and where it adds some. -/
theorem ScopeChain.AtMost.checkLine (h : c.AtMost c') (hline : SameOrAdds line line')
    (hcheck : c.checkLine line = (.ok kind?, c₁)) :
    ∃ c₁', c'.checkLine line' = (.ok kind?, c₁') ∧ c₁.AtMost c₁' := by
  rcases hline with rfl | hadds
  · cases kind? with
    | none =>
      obtain ⟨hblank, rfl⟩ := ScopeChain.checkLine_eq_ok_none_iff.1 hcheck
      exact ⟨c', ScopeChain.checkLine_eq_ok_none_iff.2 ⟨hblank, rfl⟩, h⟩
    | some kind =>
      obtain ⟨st, rfl, hfailure, hw, hlegal, rfl⟩ := ScopeChain.checkLine_eq_ok_some_iff.1 hcheck
      exact ⟨_, ScopeChain.checkLine_of_legal hfailure hw (h.legal hlegal), h.effect st⟩
  · cases hadds.kind_of_checkLine hcheck
    obtain ⟨hw, hfailure', hw', hds⟩ := hadds
    obtain ⟨st, -, -, hst, hlegal, rfl⟩ := ScopeChain.checkLine_eq_ok_some_iff.1 hcheck
    cases hst.ofTokens?.symm.trans hw.ofTokens?
    exact ⟨_, ScopeChain.checkLine_of_legal hfailure' hw' (h.declarable hds hlegal), h.declaring false hds⟩

end Lines

end BlockCheck
