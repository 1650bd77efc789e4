import BlockCheck.Line.Grammar
import BlockCheck.Proofs.Token.Ahead

/-!
# Steps of checking a line

A step that succeeds is described by its value, the scopes it leaves and what it leaves ahead (`LineM.Yields`). For
each primitive step there are two lemmas: what a success says about the state before it (names that end in `_ok`), and
when the step succeeds (names that end in `_yields`). The steps of a rule are taken apart with `bind_ok` and put
together with `Yields.bind`.
-/

namespace BlockCheck

/-! ## Steps in sequence -/

namespace Step

section Sequencing

variable {ε σ α β : Type} {m : EStateM ε σ α} {f : α → EStateM ε σ β} {g : α → β} {s s' : σ} {a : α} {b : β}

theorem bind_ok (h : (m >>= f) s = .ok b s') : ∃ a s₁, m s = .ok a s₁ ∧ f a s₁ = .ok b s' := by
  have h' : EStateM.bind m f s = .ok b s' := h
  unfold EStateM.bind at h'
  split at h'
  · next a s₁ hm => exact ⟨a, s₁, hm, h'⟩
  · cases h'

theorem bind_eq {s₁ : σ} (hm : m s = .ok a s₁) : (m >>= f) s = f a s₁ := by
  show EStateM.bind m f s = f a s₁
  unfold EStateM.bind
  rw [hm]

theorem map_ok (h : (g <$> m) s = .ok b s') : ∃ a, m s = .ok a s' ∧ b = g a := by
  have h' : EStateM.map g m s = .ok b s' := h
  unfold EStateM.map at h'
  split at h'
  · next a s₁ hm => cases h'; exact ⟨a, hm, rfl⟩
  · cases h'

theorem map_eq {s₁ : σ} (hm : m s = .ok a s₁) : (g <$> m) s = .ok (g a) s₁ := by
  show EStateM.map g m s = .ok (g a) s₁
  unfold EStateM.map
  rw [hm]

theorem discard_ok {u : Unit} (h : discard m s = .ok u s') : ∃ a, m s = .ok a s' :=
  let ⟨a, ha, _⟩ := map_ok (g := fun _ => ()) h
  ⟨a, ha⟩

theorem pure_ok {a' : α} (h : (pure a : EStateM ε σ α) s = .ok a' s') : a' = a ∧ s' = s := by
  cases h; exact ⟨rfl, rfl⟩

theorem get_bind_ok {f : σ → EStateM ε σ β} (h : (get >>= f) s = .ok b s') : f s s = .ok b s' := h

end Sequencing

end Step

open Step

/-- What is left of the line. -/
def LineState.ahead (s : LineState) : Reading := s.cursor.ahead

namespace LineM

section Yields

variable {α β : Type} {m : LineM α} {f : α → LineM β} {s s' : LineState} {a : α} {b : β} {c c' : ScopeChain}
  {r r' : Reading}

/-- The step succeeds with the value `a` and leaves the scopes `c` and the tokens of `r`. -/
def Yields (m : LineM α) (s : LineState) (a : α) (c : ScopeChain) (r : Reading) : Prop :=
  ∃ s', m s = .ok a s' ∧ s'.scopes = c ∧ s'.ahead = r

theorem Yields.bind (hm : m.Yields s a c r)
    (hf : ∀ s₁, s₁.scopes = c → s₁.ahead = r → (f a).Yields s₁ b c' r') : (m >>= f).Yields s b c' r' := by
  obtain ⟨s₁, h₁, hc, hr⟩ := hm
  obtain ⟨s₂, h₂, hc', hr'⟩ := hf s₁ hc hr
  exact ⟨s₂, by rw [bind_eq h₁, h₂], hc', hr'⟩

theorem Yields.map (g : α → β) (hm : m.Yields s a c r) : (g <$> m).Yields s (g a) c r := by
  obtain ⟨s₁, h₁, hc, hr⟩ := hm
  exact ⟨s₁, map_eq h₁, hc, hr⟩

theorem Yields.discard (hm : m.Yields s a c r) : (discard m).Yields s () c r := hm.map fun _ => ()

theorem yields_pure (a : α) (hc : s.scopes = c) (hr : s.ahead = r) : (pure a : LineM α).Yields s a c r :=
  ⟨s, rfl, hc, hr⟩

theorem yields_get_bind {f : LineState → LineM β} (h : (f s).Yields s b c r) : (get >>= f).Yields s b c r := h

theorem ofRule_ok {e : Except RuleFault α} (h : (liftM e : LineM α) s = .ok a s') : e = .ok a ∧ s' = s := by
  cases e with
  | ok a => cases h; exact ⟨rfl, rfl⟩
  | error f => cases h

theorem ofSyntax_ok {e : Except SyntaxFault α} (h : (liftM e : LineM α) s = .ok a s') : e = .ok a ∧ s' = s := by
  cases e with
  | ok a => cases h; exact ⟨rfl, rfl⟩
  | error f => cases h

theorem ofRule_yields {e : Except RuleFault α} (h : e = .ok a) :
    (liftM e : LineM α).Yields s a s.scopes s.ahead := by
  subst h
  exact ⟨s, rfl, rfl, rfl⟩

theorem ofSyntax_yields {e : Except SyntaxFault α} (h : e = .ok a) :
    (liftM e : LineM α).Yields s a s.scopes s.ahead := by
  subst h
  exact ⟨s, rfl, rfl, rfl⟩

theorem changeScopes_ok {change : ScopeChain → Except SymbolFault ScopeChain} {fault : RuleFault}
    (h : changeScopes change fault s = .ok () s') : change s.scopes = .ok s'.scopes ∧ s'.ahead = s.ahead := by
  unfold changeScopes at h
  split at h
  · next scopes hs => cases h; exact ⟨hs, rfl⟩
  · cases h

theorem changeScopes_yields {change : ScopeChain → Except SymbolFault ScopeChain} {fault : RuleFault}
    (h : change s.scopes = .ok c) : (changeScopes change fault).Yields s () c s.ahead := by
  refine ⟨{ s with scopes := c }, ?_, rfl, rfl⟩
  unfold changeScopes
  rw [h]

theorem ofCursor_ok {m : CursorM α} (h : (liftM m : LineM α) s = .ok a s') :
    m s.cursor = .ok a s'.cursor ∧ s'.scopes = s.scopes := by
  have h' : ofCursor m s = .ok a s' := h
  unfold ofCursor at h'
  split at h'
  · next a cursor hm => cases h'; exact ⟨hm, rfl⟩
  · cases h'

theorem ofCursor_yields {m : CursorM α} {cursor : Cursor} (h : m s.cursor = .ok a cursor) :
    (liftM m : LineM α).Yields s a s.scopes cursor.ahead := by
  refine ⟨{ s with cursor }, ?_, rfl, rfl⟩
  show ofCursor m s = _
  unfold ofCursor
  rw [h]

end Yields

end LineM

/-! ## Taking tokens -/

namespace Grammar

open Cursor LineM

section Cursor

variable {s s' : LineState} {t : Token} {r : Reading} {k : Category} {ks : List Category}

theorem advanceIfAny_some (h : (liftM (advanceIfAny ks) : LineM _) s = .ok (some t) s') :
    t.category ∈ ks ∧ s.ahead = s'.ahead.cons t ∧ s'.scopes = s.scopes := by
  obtain ⟨hm, hc⟩ := ofCursor_ok h
  obtain ⟨ht, ha⟩ := takeIf_some hm
  exact ⟨List.contains_iff_mem.1 ht, ha, hc⟩

theorem advanceIfAny_none (h : (liftM (advanceIfAny ks) : LineM _) s = .ok none s') :
    s'.ahead = s.ahead ∧ s'.scopes = s.scopes := by
  obtain ⟨hm, hc⟩ := ofCursor_ok h
  exact ⟨congrArg Cursor.ahead (takeIf_ok_none hm), hc⟩

theorem advanceIfAny_yields (h : s.ahead = r.cons t) (ht : t.category ∈ ks) (hr : r.Clear) :
    (liftM (advanceIfAny ks) : LineM _).Yields s (some t) s.scopes r := by
  obtain ⟨c, hm, hc⟩ := takeIf_yields h (List.contains_iff_mem.2 ht) hr
  exact hc ▸ ofCursor_yields hm

theorem advanceIfAny_skip (h : s.ahead.Lacks ks) :
    (liftM (advanceIfAny ks) : LineM _).Yields s none s.scopes s.ahead :=
  ofCursor_yields (advanceIfAny_skips h)

theorem advanceIf_true (h : (liftM (advanceIf k) : LineM _) s = .ok true s') :
    ∃ t, t.category = k ∧ s.ahead = s'.ahead.cons t ∧ s'.scopes = s.scopes := by
  obtain ⟨hm, hc⟩ := ofCursor_ok h
  obtain ⟨o, ho, hb⟩ := map_ok hm
  obtain ⟨t, rfl⟩ := Option.isSome_iff_exists.1 hb.symm
  obtain ⟨ht, ha⟩ := takeIf_some ho
  exact ⟨t, List.mem_singleton.1 (List.contains_iff_mem.1 ht), ha, hc⟩

theorem advanceIf_false (h : (liftM (advanceIf k) : LineM _) s = .ok false s') :
    s'.ahead = s.ahead ∧ s'.scopes = s.scopes := by
  obtain ⟨hm, hc⟩ := ofCursor_ok h
  obtain ⟨o, ho, hb⟩ := map_ok hm
  obtain rfl := Option.isSome_eq_false_iff.1 hb.symm |> Option.isNone_iff_eq_none.1
  exact ⟨congrArg Cursor.ahead (takeIf_ok_none ho), hc⟩

theorem lacks_of_advanceIf (h : (liftM (advanceIf k) : LineM _) s = .ok false s') : s.ahead.Lacks [k] := by
  obtain ⟨o, ho, hb⟩ := map_ok (ofCursor_ok h).1
  obtain rfl := Option.isSome_eq_false_iff.1 hb.symm |> Option.isNone_iff_eq_none.1
  exact lacks_of_advanceIfAny ho

theorem advanceIf_yields (h : s.ahead = r.cons t) (ht : t.category = k) (hr : r.Clear) :
    (liftM (advanceIf k) : LineM _).Yields s true s.scopes r := by
  have htest : [k].contains t.category = true := List.contains_iff_mem.2 (List.mem_singleton.2 ht)
  obtain ⟨c, hm, hc⟩ := takeIf_yields h htest hr
  exact hc ▸ ofCursor_yields (map_eq (g := Option.isSome) hm)

theorem advanceIf_skip (h : s.ahead.Lacks [k]) : (liftM (advanceIf k) : LineM _).Yields s false s.scopes s.ahead :=
  ofCursor_yields (map_eq (g := Option.isSome) (advanceIfAny_skips h))

theorem require_ok {expected : Expected} (h : (liftM (require ks expected) : LineM _) s = .ok t s') :
    t.category ∈ ks ∧ s.ahead = s'.ahead.cons t ∧ s'.scopes = s.scopes := by
  obtain ⟨hm, hc⟩ := ofCursor_ok h
  unfold require at hm
  obtain ⟨o, c, ho, hm⟩ := bind_ok hm
  cases o with
  | none => cases hm
  | some u =>
    cases hm
    obtain ⟨ht, ha⟩ := takeIf_some ho
    exact ⟨List.contains_iff_mem.1 ht, ha, hc⟩

theorem require_yields {expected : Expected} (h : s.ahead = r.cons t) (ht : t.category ∈ ks) (hr : r.Clear) :
    (liftM (require ks expected) : LineM _).Yields s t s.scopes r := by
  obtain ⟨c, hm, hc⟩ := takeIf_yields h (List.contains_iff_mem.2 ht) hr
  exact hc ▸ ofCursor_yields (bind_eq (m := advanceIfAny ks) hm)

theorem expect_ok (h : (liftM (expect k) : LineM _) s = .ok t s') :
    t.category = k ∧ s.ahead = s'.ahead.cons t ∧ s'.scopes = s.scopes := by
  obtain ⟨ht, ha, hc⟩ := require_ok h
  exact ⟨List.mem_singleton.1 ht, ha, hc⟩

theorem expect_yields (h : s.ahead = r.cons t) (ht : t.category = k) (hr : r.Clear) :
    (liftM (expect k) : LineM _).Yields s t s.scopes r :=
  require_yields h (List.mem_singleton.2 ht) hr

theorem discard_expect_ok {u : Unit} (h : (discard (liftM (expect k)) : LineM _) s = .ok u s') :
    ∃ t, t.category = k ∧ s.ahead = s'.ahead.cons t ∧ s'.scopes = s.scopes := by
  obtain ⟨t, ht⟩ := discard_ok h
  exact ⟨t, expect_ok ht⟩

theorem finish_ok {u : Unit} (h : (liftM finish : LineM _) s = .ok u s') :
    s.ahead = .empty ∧ s'.scopes = s.scopes := by
  obtain ⟨hm, hc⟩ := ofCursor_ok h
  refine ⟨ahead_none ?_, hc⟩
  unfold finish at hm
  have hm' := get_bind_ok hm
  cases hn : s.cursor.next with
  | none => rfl
  | some t => rw [hn] at hm'; cases hm'

theorem finish_yields (h : s.ahead = .empty) : (liftM finish : LineM _).Yields s () s.scopes .empty := by
  have hn : s.cursor.next = none := by rw [← head?_ahead]; exact congrArg (·.tokens.head?) h
  have hm : finish s.cursor = .ok () s.cursor := by
    show (if s.cursor.next.isSome then throw (s.cursor.unexpected .endOfStatement) else pure () : CursorM Unit)
      s.cursor = _
    rw [hn]
    rfl
  exact h ▸ ofCursor_yields hm

end Cursor

end Grammar

end BlockCheck
