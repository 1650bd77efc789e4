import BlockCheck.Proofs.Line.Effect
import Mathlib.Data.List.Forall2

/-!
# Scopes with related variables

Two chains are related if they have the same scopes with the same names in the same order and the same methods, and
each variable of the one is related to the variable in its place in the other (`ScopeChain.Related`). What is looked up
is related then, and so are the chains after the same change of both. Marking a variable relates a chain to itself if
it relates the variable to itself (`ScopeChain.related_initializing`): only one entry is changed, since a name stands in
a table once.
-/

namespace BlockCheck

/-! ## Tables -/

namespace SymbolTable

section Tables

variable {α : Type} {R : α → α → Prop} {t t' t'' : SymbolTable α} {name : String}

/-- The tables list the same names in the same order, and the names stand for related symbols. -/
def Related (R : α → α → Prop) (t t' : SymbolTable α) : Prop :=
  List.Forall₂ (fun e e' => e'.1 = e.1 ∧ R e.2 e'.2) t.entries t'.entries

theorem Related.refl (hR : ∀ a, R a a) (t : SymbolTable α) : t.Related R t :=
  List.forall₂_same.2 fun e _ => ⟨rfl, hR e.2⟩

theorem Related.trans (hR : ∀ a b c, R a b → R b c → R a c) (h : t.Related R t') (h' : t'.Related R t'') :
    t.Related R t'' := by
  obtain ⟨entries⟩ := t
  obtain ⟨entries'⟩ := t'
  obtain ⟨entries''⟩ := t''
  simp only [Related] at h h' ⊢
  induction h generalizing entries'' with
  | nil =>
    cases h'
    exact .nil
  | cons he _ ih =>
    cases h' with
    | cons he' hrest => exact .cons ⟨he'.1.trans he.1, hR _ _ _ he.2 he'.2⟩ (ih _ hrest)

theorem Related.names (h : t.Related R t') : t'.names = t.names := by
  obtain ⟨entries⟩ := t
  obtain ⟨entries'⟩ := t'
  simp only [Related] at h
  simp only [SymbolTable.names]
  induction h with
  | nil => rfl
  | cons he _ ih => rw [List.map_cons, List.map_cons, he.1, ih]

theorem Related.contains (h : t.Related R t') (name : String) : t'.contains name = t.contains name := by
  rw [SymbolTable.contains, h.names, ← SymbolTable.contains]

/-- What a name stands for is related. -/
theorem Related.get? (h : t.Related R t') (name : String) : Option.Rel R (t.get? name) (t'.get? name) := by
  obtain ⟨entries⟩ := t
  obtain ⟨entries'⟩ := t'
  simp only [Related] at h
  simp only [SymbolTable.get?]
  induction h with
  | nil => exact .none
  | @cons e e' _ _ he _ ih =>
    rw [List.lookup_cons, List.lookup_cons, he.1]
    cases name == e.1 with
    | true => exact .some he.2
    | false => exact ih

theorem Related.append {entries entries' : List (String × α)} (h : t.Related R t')
    (hentries : List.Forall₂ (fun e e' => e'.1 = e.1 ∧ R e.2 e'.2) entries entries') :
    (SymbolTable.mk (t.entries ++ entries)).Related R ⟨t'.entries ++ entries'⟩ :=
  List.rel_append h hentries

/-- The same change of both tables keeps them related. -/
theorem Related.modify {f : α → α} (hf : ∀ a a', R a a' → R (f a) (f a')) (h : t.Related R t') (name : String) :
    (t.modify name f).Related R (t'.modify name f) := by
  refine List.forall₂_map_left_iff.2 (List.forall₂_map_right_iff.2 (List.Forall₂.imp ?_ h))
  rintro ⟨first, a⟩ ⟨first', a'⟩ ⟨rfl, ha⟩
  by_cases hname : first' = name
  · rw [if_pos hname, if_pos hname]
    exact ⟨rfl, hf a a' ha⟩
  · rw [if_neg hname, if_neg hname]
    exact ⟨rfl, ha⟩

/-- Changing what a name stands for relates a table to what it was before, if it does so for the one symbol that is
changed. -/
theorem related_modify {f : α → α} (hR : ∀ a, R a a) (hnames : t.names.Nodup)
    (hf : ∀ a, t.get? name = some a → R a (f a)) : t.Related R (t.modify name f) := by
  cases hget : t.get? name with
  | none =>
    rw [modify_of_get?_none f hget]
    exact .refl hR t
  | some a =>
    obtain ⟨before, after, hentries, -, -, hmodify⟩ := exists_entry hnames hget
    have hsame : ∀ es : List (String × α), List.Forall₂ (fun e e' => e'.1 = e.1 ∧ R e.2 e'.2) es es := fun es =>
      List.forall₂_same.2 fun e _ => ⟨rfl, hR e.2⟩
    unfold Related
    rw [hentries, hmodify f]
    exact List.rel_append (hsame before) (.cons ⟨rfl, hf a hget⟩ (hsame after))

end Tables

end SymbolTable

/-! ## Chains -/

/-- The scopes have the same methods and related variables. -/
structure Scope.Related (R : Variable → Variable → Prop) (s s' : Scope) : Prop where
  vars : s.vars.Related R s'.vars
  methods : s'.methods = s.methods

theorem Scope.Related.refl {R : Variable → Variable → Prop} (hR : ∀ v, R v v) (s : Scope) : s.Related R s :=
  ⟨.refl hR s.vars, rfl⟩

namespace ScopeChain

/-- The chains have the same scopes, with the same methods and related variables. -/
inductive Related (R : Variable → Variable → Prop) : ScopeChain → ScopeChain → Prop
  | global {s s' : Scope} : s.Related R s' → Related R (.global s) (.global s')
  | block {s s' : Scope} {outer outer' : ScopeChain} : s.Related R s' → Related R outer outer' →
      Related R (.block s outer) (.block s' outer')

theorem distinct_block {s : Scope} {outer : ScopeChain} :
    (block s outer).Distinct ↔ outer.Distinct ∧ s.Distinct := by
  unfold Distinct
  rw [toList_block, List.forall_mem_append, List.forall_mem_singleton]

section Chains

variable {R : Variable → Variable → Prop} {c c' c'' c₁ : ScopeChain}

namespace Related

theorem refl (hR : ∀ v, R v v) (c : ScopeChain) : c.Related R c := by
  induction c with
  | global s => exact .global (.refl hR s)
  | block s outer ih => exact .block (.refl hR s) ih

theorem trans (hR : ∀ u v w, R u v → R v w → R u w) (h : c.Related R c') (h' : c'.Related R c'') :
    c.Related R c'' := by
  induction h generalizing c'' with
  | global hs =>
    cases h' with
    | global hs' => exact .global ⟨hs.vars.trans hR hs'.vars, hs'.methods.trans hs.methods⟩
  | block hs _ ih =>
    cases h' with
    | block hs' houter => exact .block ⟨hs.vars.trans hR hs'.vars, hs'.methods.trans hs.methods⟩ (ih houter)

theorem innermost (h : c.Related R c') : c.innermost.Related R c'.innermost := by
  cases h with
  | global hs => exact hs
  | block hs _ => exact hs

theorem root (h : c.Related R c') : c.root.Related R c'.root := by
  induction h with
  | global hs => exact hs
  | block _ _ ih => exact ih

/-! ### Looking up -/

/-- The variables that are visible under a name are related. -/
theorem visibleVariable? (h : c.Related R c') (name : String) :
    Option.Rel R (c.visibleVariable? name) (c'.visibleVariable? name) := by
  induction h with
  | global hs => exact hs.vars.get? name
  | @block s s' outer outer' hs _ ih =>
    have hget := hs.vars.get? name
    rw [ScopeChain.visibleVariable?, ScopeChain.visibleVariable?]
    cases hv : s.vars.get? name with
    | none =>
      rw [hv] at hget
      cases hv' : s'.vars.get? name with
      | none => exact ih
      | some v' => rw [hv'] at hget; cases hget
    | some v =>
      rw [hv] at hget
      cases hv' : s'.vars.get? name with
      | none => rw [hv'] at hget; cases hget
      | some v' => rw [hv'] at hget; exact hget

theorem exists_visibleVariable? (h : c.Related R c') {name : String} {v : Variable}
    (hv : c.visibleVariable? name = some v) : ∃ v', c'.visibleVariable? name = some v' ∧ R v v' := by
  have hrel := h.visibleVariable? name
  rw [hv] at hrel
  cases hv' : c'.visibleVariable? name with
  | none => rw [hv'] at hrel; cases hrel
  | some v' =>
    rw [hv'] at hrel
    cases hrel with
    | some hR => exact ⟨v', rfl, hR⟩

theorem visibleMethod? (h : c.Related R c') (name : String) : c'.visibleMethod? name = c.visibleMethod? name := by
  induction h with
  | global hs => rw [ScopeChain.visibleMethod?, ScopeChain.visibleMethod?, hs.methods]
  | block hs _ ih => rw [ScopeChain.visibleMethod?, ScopeChain.visibleMethod?, hs.methods, ih]

/-! ### Changing both -/

theorem push (h : c.Related R c') : c.push.Related R c'.push := .block ⟨.nil, rfl⟩ h

theorem pop? (h : c.Related R c') : (c.pop?.getD c).Related R (c'.pop?.getD c') := by
  cases h with
  | global hs => exact .global hs
  | block _ houter => exact houter

theorem pop?_eq_some (h : c.Related R c') (hpop : c.pop? = some c₁) :
    ∃ c₁', c'.pop? = some c₁' ∧ c₁.Related R c₁' := by
  cases h with
  | global hs => cases hpop
  | block _ houter =>
    cases hpop
    exact ⟨_, rfl, houter⟩

theorem setInnermost {s s' : Scope} (h : c.Related R c') (hs : s.Related R s') :
    (c.setInnermost s).Related R (c'.setInnermost s') := by
  cases h with
  | global _ => exact .global hs
  | block _ houter => exact .block hs houter

theorem withVariables {entries entries' : List (String × Variable)} (h : c.Related R c')
    (hentries : List.Forall₂ (fun e e' => e'.1 = e.1 ∧ R e.2 e'.2) entries entries') :
    (c.withVariables entries).Related R (c'.withVariables entries') :=
  h.setInnermost ⟨h.innermost.vars.append hentries, h.innermost.methods⟩

theorem withMethod (h : c.Related R c') (name : String) (m : Method) :
    (c.withMethod name m).Related R (c'.withMethod name m) := by
  refine h.setInnermost ⟨h.innermost.vars, ?_⟩
  rw [h.innermost.methods]

theorem initializing (hR : ∀ v v', R v v' → R v.markInitialized v'.markInitialized) (h : c.Related R c')
    (name : String) : (c.initializing name).Related R (c'.initializing name) := by
  induction h with
  | global hs => exact .global ⟨hs.vars.modify hR name, hs.methods⟩
  | block hs houter ih =>
    rw [ScopeChain.initializing, ScopeChain.initializing, hs.vars.contains name]
    split
    · exact .block ⟨hs.vars.modify hR name, hs.methods⟩ houter
    · exact .block hs ih

end Related

/-- **Marking a variable changes nothing else.** -/
theorem related_initializing {name : String} (hR : ∀ v, R v v) (hc : c.Distinct)
    (hv : ∀ v, c.visibleVariable? name = some v → R v v.markInitialized) : c.Related R (c.initializing name) := by
  induction c with
  | global s =>
    have hs : s.Distinct := hc s List.mem_cons_self
    exact .global ⟨SymbolTable.related_modify hR hs.1 hv, rfl⟩
  | block s outer ih =>
    obtain ⟨houter, hs⟩ := distinct_block.1 hc
    rw [visibleVariable?] at hv
    rw [initializing]
    split
    · refine .block ⟨SymbolTable.related_modify hR hs.1 fun v hget => hv v ?_, rfl⟩ (.refl hR outer)
      rw [hget]
      rfl
    · next hcontains =>
      have hnone : s.vars.get? name = none :=
        Option.not_isSome_iff_eq_none.1 (by rw [SymbolTable.isSome_get?]; exact hcontains)
      rw [hnone] at hv
      exact .block (.refl hR s) (ih houter hv)

end Chains

end ScopeChain

end BlockCheck
