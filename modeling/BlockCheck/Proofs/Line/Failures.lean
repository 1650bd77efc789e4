import BlockCheck.Proofs.Line.Acceptance
import BlockCheck.Proofs.Scope.Numbering

/-!
# How lines fail

A step that fails is described by its fault and the scopes that it leaves (`LineM.Fails`), beside `LineM.Yields` for
the steps that succeed. A rule fails where the first of its steps does that fails, after those in front of it have
succeeded.

A value that does not fit a type is a `Misfit` for one of four reasons, each of which is decided after those in front
of it: its token is none of the type, or it is a name that is declared in no scope, has no value yet, or is of a type
that does not fit. So every value fits or is a misfit (`ScopeChain.not_fits_iff`), and where a value is needed the
reason is the fault (`Grammar.value_fails`).
-/

namespace BlockCheck

open Step

/-! ## Steps that fail -/

namespace Reading

/-- The fault that the next token is not what is expected. -/
def unexpected (r : Reading) (expected : Expected) : SyntaxFault :=
  .unexpectedToken expected (r.tokens.head?.map Token.category) (r.tokens.head?.map Token.span)

end Reading

theorem Cursor.unexpected_eq (c : Cursor) (expected : Expected) :
    c.unexpected expected = c.ahead.unexpected expected := by
  rw [unexpected, nextCategory, Reading.unexpected, head?_ahead]

namespace LineM

section Fails

variable {α β : Type} {m : LineM α} {g : α → LineM β} {s : LineState} {a : α} {f : LineFault} {c c' : ScopeChain}
  {r : Reading}

/-- The step fails with the fault `f` and leaves the scopes `c`. -/
def Fails (m : LineM α) (s : LineState) (f : LineFault) (c : ScopeChain) : Prop :=
  ∃ s', m s = .error f s' ∧ s'.scopes = c

/-- What follows a step that fails is not done. -/
theorem Fails.bind (h : m.Fails s f c) : (m >>= g).Fails s f c := by
  obtain ⟨s', hs', hc⟩ := h
  refine ⟨s', ?_, hc⟩
  show EStateM.bind m g s = _
  rw [EStateM.bind, hs']

theorem Fails.map (g : α → β) (h : m.Fails s f c) : (g <$> m).Fails s f c := h.bind (g := fun a => pure (g a))

theorem Fails.discard (h : m.Fails s f c) : (discard m).Fails s f c := h.map fun _ => ()

theorem Yields.bind_fails (hm : m.Yields s a c r)
    (hg : ∀ s₁, s₁.scopes = c → s₁.ahead = r → (g a).Fails s₁ f c') : (m >>= g).Fails s f c' := by
  obtain ⟨s₁, h₁, hc, hr⟩ := hm
  obtain ⟨s₂, h₂, hc'⟩ := hg s₁ hc hr
  exact ⟨s₂, by rw [bind_eq h₁, h₂], hc'⟩

theorem fails_get_bind {g : LineState → LineM β} (h : (g s).Fails s f c) : (get >>= g).Fails s f c := h

theorem fails_ofRule {e : Except RuleFault α} {fault : RuleFault} (h : e = .error fault) :
    (liftM e : LineM α).Fails s (.ofRule fault) s.scopes := by
  subst h
  exact ⟨s, rfl, rfl⟩

theorem fails_unexpected (s : LineState) (expected : Expected) :
    (unexpected expected : LineM α).Fails s (.ofSyntax (s.ahead.unexpected expected)) s.scopes :=
  fails_get_bind ⟨s, by rw [Cursor.unexpected_eq]; rfl, rfl⟩

theorem fails_changeScopes {change : ScopeChain → Except SymbolFault ScopeChain} {fault : RuleFault} {e : SymbolFault}
    (h : change s.scopes = .error e) : (changeScopes change fault).Fails s (.ofRule fault) s.scopes := by
  refine ⟨s, ?_, rfl⟩
  unfold changeScopes
  rw [h]

theorem fails_require {ks : List Category} {expected : Expected} (h : s.ahead.Lacks ks) :
    (liftM (Cursor.require ks expected) : LineM Token).Fails s (.ofSyntax (s.ahead.unexpected expected))
      s.scopes := by
  have hrun : Cursor.require ks expected s.cursor = .error (s.cursor.unexpected expected) s.cursor :=
    bind_eq (m := Cursor.advanceIfAny ks) (Cursor.advanceIfAny_skips h)
  have hlift : (liftM (Cursor.require ks expected) : LineM Token) = ofCursor (Cursor.require ks expected) := rfl
  exact ⟨s, by rw [hlift, ofCursor, hrun, Cursor.unexpected_eq]; rfl, rfl⟩

theorem fails_expect {k : Category} (h : s.ahead.Lacks [k]) :
    (liftM (Cursor.expect k) : LineM Token).Fails s (.ofSyntax (s.ahead.unexpected (.category k))) s.scopes :=
  fails_require h

end Fails

end LineM

/-! ## Values that do not fit -/

namespace ScopeChain

/-- Why the token is no value of the type: the first reason that applies. -/
inductive Misfit (c : ScopeChain) (type : ValueType) (value : Token) : RuleFault → Prop
  | notAssignable : value.category ∉ type.assignable →
      Misfit c type value (.invalidAssignmentToken value.category type value.span)
  /-- The name is declared in no scope. -/
  | undeclared : value.category = .identifier → (∀ s ∈ c.toList, s.vars.contains value.name = false) →
      Misfit c type value (.undeclaredVariable value.name value.span)
  /-- The innermost variable of the name has no value yet. -/
  | uninitialized {v : Variable} : value.category = .identifier → c.visibleVariable? value.name = some v →
      v.isInitialized = false → Misfit c type value (.uninitializedVariable value.name value.span)
  /-- The innermost variable of the name has a value, but one of a type that does not fit. -/
  | contravariant {v : Variable} : value.category = .identifier → c.visibleVariable? value.name = some v →
      v.isInitialized = true → v.type ∉ type.sources →
      Misfit c type value (.contravariantType value.name v.type type value.span)

variable {c : ScopeChain} {type : ValueType} {value : Token} {f f' : RuleFault}

theorem visibleVariable?_eq_none {name : String} :
    c.visibleVariable? name = none ↔ ∀ s ∈ c.toList, s.vars.contains name = false := by
  have hscope : ∀ s : Scope, s.vars.get? name = none ↔ s.vars.contains name = false := fun s => by
    rw [SymbolTable.get?_eq_none, SymbolTable.contains_eq_false]
  induction c with
  | global s => simp [visibleVariable?, hscope]
  | block s outer ih => simp [visibleVariable?, hscope, ih, or_imp, forall_and, and_comm]

/-- A value that does not fit is a misfit. -/
theorem not_fits_iff : ¬ c.Fits type value ↔ ∃ f, c.Misfit type value f := by
  constructor
  · intro h
    by_cases hassignable : value.category ∈ type.assignable
    · have hname : value.category = .identifier ∧ ¬ c.Usable type value.name := by
        simpa [Fits, hassignable] using h
      obtain ⟨hid, husable⟩ := hname
      cases hv : c.visibleVariable? value.name with
      | none => exact ⟨_, .undeclared hid (visibleVariable?_eq_none.1 hv)⟩
      | some v =>
        cases hi : v.isInitialized with
        | false => exact ⟨_, .uninitialized hid hv hi⟩
        | true => exact ⟨_, .contravariant hid hv hi fun ht => husable ⟨v, hv, hi, ht⟩⟩
    · exact ⟨_, .notAssignable hassignable⟩
  · rintro ⟨f, h⟩ ⟨hassignable, husable⟩
    cases h with
    | notAssignable hnot => exact hnot hassignable
    | undeclared hid hscopes =>
      obtain ⟨v, hv, -⟩ := husable hid
      cases (visibleVariable?_eq_none.2 hscopes).symm.trans hv
    | uninitialized hid hv hi =>
      obtain ⟨v, hv', hi', -⟩ := husable hid
      cases hv.symm.trans hv'
      cases hi.symm.trans hi'
    | contravariant hid hv _ ht =>
      obtain ⟨v, hv', -, ht'⟩ := husable hid
      cases hv.symm.trans hv'
      exact ht ht'

/-- The checks of a value complain of the misfit, that of its token before that of its name. -/
theorem Misfit.checks (h : c.Misfit type value f) : type.requireAssignable value = .error f ∨
    value.category ∈ type.assignable ∧ value.category = .identifier ∧ c.requireUsable type value = .error f := by
  have hname : value.category = .identifier → value.category ∈ type.assignable := fun hid =>
    hid ▸ type.mem_assignable_identifier
  cases h with
  | notAssignable h => exact .inl (by rw [ValueType.requireAssignable, if_neg h])
  | undeclared hid h =>
    refine .inr ⟨hname hid, hid, ?_⟩
    rw [requireUsable, requireDeclared, visibleVariable?_eq_none.2 h]
    rfl
  | uninitialized hid hv hi =>
    refine .inr ⟨hname hid, hid, ?_⟩
    simp [requireUsable, requireDeclared, hv, hi, bind, Except.bind]
  | contravariant hid hv hi ht =>
    refine .inr ⟨hname hid, hid, ?_⟩
    simp [requireUsable, requireDeclared, hv, hi, ht, bind, Except.bind]

end ScopeChain

namespace Grammar

open Cursor LineM

section Rules

variable {s : LineState} {type : ValueType} {t : Token} {r : Reading} {f : RuleFault}

/-- Where no value is ahead, a value is what is missed. -/
theorem value_fails_of_lacks (h : s.ahead.Lacks Category.values) :
    (value type).Fails s (.ofSyntax (s.ahead.unexpected .value)) s.scopes := by
  refine Fails.bind (fails_get_bind ?_)
  cases hn : s.cursor.next with
  | none => exact fails_unexpected s .value
  | some t =>
    have ht : t.category ∉ Category.values := h t (by rw [← hn]; exact head?_ahead s.cursor)
    simp only [ht, ↓reduceIte]
    exact fails_unexpected s .value

/-- **A misfit is the fault** of the rule for values. -/
theorem value_fails (hvalue : t.category ∈ Category.values) (hmisfit : s.scopes.Misfit type t f)
    (h : s.ahead = r.cons t) (hr : r.Clear) : (value type).Fails s (.ofRule f) s.scopes := by
  refine Yields.bind_fails (upcomingValue_yields h hvalue) fun s₁ hc₁ ha₁ => ?_
  rw [← hc₁] at hmisfit ⊢
  rcases hmisfit.checks with hassign | ⟨hassign, hid, husable⟩
  · exact Fails.bind (fails_ofRule hassign)
  · refine Yields.bind_fails (ofRule_yields (requireAssignable_eq_ok.2 hassign)) fun s₂ hc₂ ha₂ => ?_
    refine Yields.bind_fails (expect_yields (ha₂.trans (ha₁.trans h)) rfl hr).discard fun s₃ hc₃ ha₃ => ?_
    rw [← hc₂, ← hc₃] at husable ⊢
    rw [decide_eq_true hid]
    exact fails_get_bind (fails_ofRule husable)

end Rules

end Grammar

/-! ## Lines that fail -/

namespace ScopeChain

section Lines

variable {c c' : ScopeChain} {line : List Char} {first : Token} {kind : StatementKind} {f : LineFault}

/-- A line whose kind is known is checked as a statement of this kind. -/
theorem checkLine_of_kind (c : ScopeChain) {cursor : Cursor} (hcursor : Cursor.ofLine line = .ok cursor)
    (hfirst : cursor.current = some first) (hkind : StatementKind.classify first cursor.next = .ok kind) :
    c.checkLine line =
      match Grammar.statement first kind ⟨c, cursor⟩ with
      | .ok _ s => (.ok (some kind), s.scopes)
      | .error f s => (.error f, s.scopes) := by
  have hbeginning : cursor.beginning = .ok (some (first, kind)) := by simp only [Cursor.beginning, hfirst, hkind]
  cases hrun : Grammar.statement first kind ⟨c, cursor⟩ <;> simp only [checkLine, hcursor, hbeginning, hrun]

/-- A line is rejected if the form of its statement fails. -/
theorem checkLine_of_fails {r : Reading} (hread : readLine line = r.cons first) (hr : r.Clear)
    (hkind : StatementKind.ofCategories? first.category (r.tokens.head?.map Token.category) = some kind)
    (hform : ∀ s : LineState, s.scopes = c → s.ahead = r → (Grammar.form first kind).Fails s f c') :
    c.checkLine line = (.error f, c') := by
  obtain ⟨cursor, hcursor, hfirst, hahead⟩ := Cursor.ofScanner_of_reading_cons hread hr
  have hnext : cursor.next = r.tokens.head? := by rw [← Cursor.head?_ahead, hahead]
  have hstatement : (Grammar.statement first kind).Fails ⟨c, cursor⟩ f c' := (hform ⟨c, cursor⟩ rfl hahead).bind
  obtain ⟨s', hs', rfl⟩ := hstatement
  rw [checkLine_of_kind c hcursor hfirst (StatementKind.classify_eq_ok.2 (hnext ▸ hkind)), hs']

end Lines

end ScopeChain

end BlockCheck
