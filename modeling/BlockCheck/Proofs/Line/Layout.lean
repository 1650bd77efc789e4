import BlockCheck.Proofs.Line.Braces
import BlockCheck.Proofs.SideBySide
import BlockCheck.Proofs.Token.Layout

/-!
# The layout of a line is not checked

Lines with the same tokens are checked alike, wherever the tokens stand in them (`ScopeChain.checkLineAt_matched`): the
same statement is found and the same is declared, or both lines are at fault, in the same way. Two runs of each rule are
compared, from states with the same scopes and the same tokens ahead (`LineM.Agree`). The rules that repeat others are
allowed a number of steps that depends on the characters of the line; it is larger than the number of tokens in both
runs, so neither comes to its end, and the comparison goes by the number of tokens. The same braces count in a line and
in the one that is laid out anew (`braces_respaced`).
-/

namespace BlockCheck

open Step

/-- The faults are of the same kind. -/
def SameKind {ε : Type} (kind : ε → FaultKind) (f f' : ε) : Prop := kind f' = kind f

theorem SameKind.refl {ε : Type} (kind : ε → FaultKind) (f : ε) : SameKind kind f f := rfl

/-! ## Cursors -/

namespace Cursor

variable {k : Nat} {c c' : Cursor}

/-- The same tokens are ahead of both cursors, at most `k`, and nothing that is no token. -/
def Alike (k : Nat) (c c' : Cursor) : Prop :=
  ∃ ts ts', c.ahead = ⟨ts, none⟩ ∧ c'.ahead = ⟨ts', none⟩ ∧ List.Forall₂ Token.Alike ts ts' ∧ ts.length ≤ k

theorem Alike.mono {j : Nat} (h : Alike j c c') (hjk : j ≤ k) : Alike k c c' := by
  obtain ⟨ts, ts', ha, ha', hts, hj⟩ := h
  exact ⟨ts, ts', ha, ha', hts, Nat.le_trans hj hjk⟩

theorem Alike.next (h : Alike k c c') : Option.Rel Token.Alike c.next c'.next := by
  obtain ⟨ts, ts', ha, ha', hts, -⟩ := h
  rw [← head?_ahead c, ← head?_ahead c', ha, ha']
  cases hts with
  | nil => exact .none
  | cons ht _ => exact .some ht

/-- The bounds of both cursors are larger than the number of tokens. -/
theorem Alike.bound (h : Alike k c c') : ∃ j ≤ k, j < c.bound ∧ j < c'.bound ∧ Alike j c c' := by
  obtain ⟨ts, ts', ha, ha', hts, hk⟩ := h
  have hlt := c.length_ahead_lt_bound
  have hlt' := c'.length_ahead_lt_bound
  rw [ha] at hlt
  rw [ha', ← hts.length_eq] at hlt'
  exact ⟨ts.length, hk, hlt, hlt', ts, ts', ha, ha', hts, Nat.le_refl _⟩

/-- Both cursors take a token or neither does, and if they do, fewer tokens are left. -/
theorem takeIf_matched (test : Category → Bool) :
    Step.Matched (Alike k) (SameKind SyntaxFault.kind) (takeIf test) (takeIf test) fun t? t?' c c' =>
      Option.Rel Token.Alike t? t?' ∧ ∃ j ≤ k, (t?.isSome = true → j < k) ∧ Alike j c c' := by
  rintro c c' ⟨ts, ts', ha, ha', hts, hk⟩
  cases hts with
  | nil =>
    have hnone : c.next = none := by rw [← head?_ahead, ha]; rfl
    have hnone' : c'.next = none := by rw [← head?_ahead, ha']; rfl
    rw [takeIf_none hnone, takeIf_none hnone']
    exact ⟨.none, k, Nat.le_refl k, nofun, [], [], ha, ha', .nil, hk⟩
  | @cons t t' ts ts' ht hts =>
    have hcons : c.ahead = Reading.cons t ⟨ts, none⟩ := ha
    have hcons' : c'.ahead = Reading.cons t' ⟨ts', none⟩ := ha'
    cases htest : test t.category with
    | false =>
      have htest' : test t'.category = false := by rw [ht.category, htest]
      rw [takeIf_of_not (next_of_ahead hcons).1 htest, takeIf_of_not (next_of_ahead hcons').1 htest']
      exact ⟨.none, k, Nat.le_refl k, nofun, _, _, ha, ha', .cons ht hts, hk⟩
    | true =>
      have htest' : test t'.category = true := by rw [ht.category, htest]
      obtain ⟨d, htake, hd⟩ := takeIf_yields hcons htest fun _ => rfl
      obtain ⟨d', htake', hd'⟩ := takeIf_yields hcons' htest' fun _ => rfl
      rw [htake, htake']
      exact ⟨.some ht, ts.length, Nat.le_of_succ_le hk, fun _ => hk, ts, ts', hd, hd', hts, Nat.le_refl _⟩

end Cursor

/-! ## Steps -/

/-- The scopes are the same, and so are the tokens ahead, at most `k`. -/
def LineState.Alike (k : Nat) (s s' : LineState) : Prop := s'.scopes = s.scopes ∧ s.cursor.Alike k s'.cursor

theorem LineState.Alike.mono {j k : Nat} {s s' : LineState} (h : Alike j s s') (hjk : j ≤ k) : Alike k s s' :=
  ⟨h.1, h.2.mono hjk⟩

namespace LineM

variable {α β : Type} {k : Nat} {m m' : LineM α} {R : α → α → Prop} {Q : β → β → Prop}

/-- From states that are alike both steps give values related by `R` and states that are alike, or both fail with
faults of the same kind. -/
def Agree (k : Nat) (m m' : LineM α) (R : α → α → Prop) : Prop :=
  Step.Matched (LineState.Alike k) (SameKind LineFault.kind) m m' fun a a' s s' => R a a' ∧ LineState.Alike k s s'

theorem Agree.bind {f f' : α → LineM β} (h : Agree k m m' R) (hf : ∀ a a', R a a' → Agree k (f a) (f' a') Q) :
    Agree k (m >>= f) (m' >>= f') Q :=
  Step.Matched.bind h fun a a' s s' ⟨ha, hs⟩ => hf a a' ha s s' hs

theorem Agree.map {g g' : α → β} (h : Agree k m m' R) (hg : ∀ a a', R a a' → Q (g a) (g' a')) :
    Agree k (g <$> m) (g' <$> m') Q :=
  Step.Matched.map h fun a a' _ _ ⟨ha, hs⟩ => ⟨hg a a' ha, hs⟩

theorem Agree.discard (h : Agree k m m' R) : Agree k (discard m) (discard m') fun _ _ => True :=
  h.map fun _ _ _ => trivial

theorem agree_pure {a a' : α} (h : R a a') : Agree k (pure a) (pure a') R := matched_pure fun _ _ hs => ⟨h, hs⟩

theorem agree_throw {f f' : LineFault} (h : f'.kind = f.kind) : Agree k (throw f) (throw f') R := matched_throw h

theorem agree_get_bind {f f' : LineState → LineM β} (hf : ∀ s s', LineState.Alike k s s' → Agree k (f s) (f' s') Q) :
    Agree k (get >>= f) (get >>= f') Q :=
  matched_get_bind hf

/-- Fewer tokens are left than there may be. -/
theorem Agree.widen {j : Nat} (h : Agree j m m' R) (hjk : j ≤ k) :
    Step.Matched (LineState.Alike j) (SameKind LineFault.kind) m m' fun a a' s s' => R a a' ∧ LineState.Alike k s s' :=
  h.weaken (fun _ _ => id) fun _ _ _ _ ⟨ha, hs⟩ => ⟨ha, hs.mono hjk⟩

/-- Rules that repeat others are allowed more steps than there are tokens, in both runs. -/
theorem agree_bound_bind {g : Nat → LineM α} {f f' : α → LineM β}
    (hg : ∀ j n n', j < n → j < n' → Agree j (g n) (g n') R) (hf : ∀ a a', R a a' → Agree k (f a) (f' a') Q) :
    Agree k (get >>= fun s => g s.cursor.bound >>= f) (get >>= fun s => g s.cursor.bound >>= f') Q := by
  rintro s s' ⟨hscopes, hcursor⟩
  obtain ⟨j, hjk, hbound, hbound', halike⟩ := hcursor.bound
  have hsteps := ((hg j _ _ hbound hbound').widen hjk).bind fun a a' t t' ⟨ha, ht⟩ => hf a a' ha t t' ht
  exact hsteps s s' ⟨hscopes, halike⟩

theorem agree_when {condition : Bool} {m m' : LineM Unit} (h : condition = true → Agree k m m' fun _ _ => True) :
    Agree k (LineM.when condition m) (LineM.when condition m') fun _ _ => True := by
  cases condition
  · exact agree_pure trivial
  · exact h rfl

theorem agree_ofRule {e e' : Except RuleFault α} (h : Matched (SameKind RuleFault.kind) R e e') :
    Agree k (liftM e) (liftM e') R := by
  intro s s' hs
  cases e <;> cases e'
  · exact h
  · exact h.elim
  · exact h.elim
  · exact ⟨h, hs⟩

theorem agree_ofSyntax {e e' : Except SyntaxFault α} (h : Matched (SameKind SyntaxFault.kind) R e e') :
    Agree k (liftM e) (liftM e') R := by
  intro s s' hs
  cases e <;> cases e'
  · exact h
  · exact h.elim
  · exact h.elim
  · exact ⟨h, hs⟩

theorem agree_changeScopes (change : ScopeChain → Except SymbolFault ScopeChain) {fault fault' : RuleFault}
    (h : fault'.kind = fault.kind) :
    Agree k (changeScopes change fault) (changeScopes change fault') fun _ _ => True := by
  rintro s s' ⟨hscopes, hcursor⟩
  unfold changeScopes
  rw [hscopes]
  cases change s.scopes with
  | ok scopes => exact ⟨trivial, rfl, hcursor⟩
  | error _ => exact h

theorem agree_unexpected (expected : Expected) : Agree k (unexpected expected) (unexpected expected) R :=
  agree_get_bind fun _ _ _ => agree_throw rfl

theorem matched_ofCursor {m m' : CursorM α} {S : α → α → Cursor → Cursor → Prop}
    (h : Step.Matched (Cursor.Alike k) (SameKind SyntaxFault.kind) m m' S) :
    Step.Matched (LineState.Alike k) (SameKind LineFault.kind) (liftM m : LineM α) (liftM m')
      fun a a' s s' => s'.scopes = s.scopes ∧ S a a' s.cursor s'.cursor := by
  rintro s s' ⟨hscopes, hcursor⟩
  have h := h _ _ hcursor
  have hlift : ∀ m : CursorM α, (liftM m : LineM α) = ofCursor m := fun _ => rfl
  rw [hlift, hlift]
  unfold ofCursor
  cases hm : m s.cursor <;> cases hm' : m' s'.cursor <;> rw [hm, hm'] at h
  · exact ⟨hscopes, h⟩
  · exact h
  · exact h
  · exact h

theorem agree_ofCursor {m m' : CursorM α}
    (h : Step.Matched (Cursor.Alike k) (SameKind SyntaxFault.kind) m m' fun a a' c c' => R a a' ∧ c.Alike k c') :
    Agree k (liftM m) (liftM m') R :=
  (matched_ofCursor h).weaken (fun _ _ => id) fun _ _ _ _ ⟨hscopes, ha, hcursor⟩ => ⟨ha, hscopes, hcursor⟩

/-! ## Taking tokens -/

theorem takeIf_agree (test : Category → Bool) :
    Step.Matched (Cursor.Alike k) (SameKind SyntaxFault.kind) (Cursor.takeIf test) (Cursor.takeIf test)
      fun t? t?' c c' => Option.Rel Token.Alike t? t?' ∧ c.Alike k c' :=
  (Cursor.takeIf_matched test).weaken (fun _ _ => id) fun _ _ _ _ ⟨ht, _, hjk, _, hc⟩ => ⟨ht, hc.mono hjk⟩

theorem isSome_of_rel {t? t?' : Option Token} (h : Option.Rel Token.Alike t? t?') : t?'.isSome = t?.isSome := by
  cases h <;> rfl

theorem agree_advanceIfAny (ks : List Category) :
    Agree k (liftM (Cursor.advanceIfAny ks)) (liftM (Cursor.advanceIfAny ks)) (Option.Rel Token.Alike) :=
  agree_ofCursor (takeIf_agree _)

theorem agree_advanceIf (l : Category) :
    Agree k (liftM (Cursor.advanceIf l)) (liftM (Cursor.advanceIf l)) fun b b' => b' = b :=
  agree_ofCursor ((takeIf_agree _).map fun _ _ _ _ ⟨ht, hc⟩ => ⟨isSome_of_rel ht, hc⟩)

theorem agree_require (ks : List Category) (expected : Expected) :
    Agree k (liftM (Cursor.require ks expected)) (liftM (Cursor.require ks expected)) Token.Alike := by
  refine agree_ofCursor ((takeIf_agree _).bind ?_)
  rintro t? t?' c c' ⟨ht, hc⟩
  cases ht with
  | some ht => exact ⟨ht, hc⟩
  | none => exact rfl

theorem agree_expect (l : Category) :
    Agree k (liftM (Cursor.expect l)) (liftM (Cursor.expect l)) Token.Alike := agree_require [l] _

theorem agree_skip (l : Category) :
    Agree k (discard (liftM (Cursor.expect l) : LineM Token)) (discard (liftM (Cursor.expect l) : LineM Token))
      fun _ _ => True :=
  (agree_expect l).discard

theorem agree_finish : Agree k (liftM Cursor.finish) (liftM Cursor.finish) fun _ _ => True := by
  refine agree_ofCursor (matched_get_bind fun c c' hc => ?_)
  rw [isSome_of_rel hc.next]
  split
  · exact matched_throw rfl
  · exact matched_pure fun _ _ hc => ⟨trivial, hc⟩

/-- **One round of a repetition**: where a token is taken, fewer are left for the next round. -/
theorem agree_advanceIfAny_bind {ks : List Category} {f f' : Option Token → LineM β}
    (hmore : ∀ j t t', j < k → t.Alike t' → Agree j (f (some t)) (f' (some t')) Q)
    (hend : Agree k (f none) (f' none) Q) :
    Agree k (liftM (Cursor.advanceIfAny ks) >>= f) (liftM (Cursor.advanceIfAny ks) >>= f') Q := by
  refine (matched_ofCursor (Cursor.takeIf_matched _)).bind ?_
  rintro t? t?' s s' ⟨hscopes, ht, j, hjk, hless, hcursor⟩
  cases ht with
  | @some t t' ht =>
    exact (hmore j t t' (hless rfl) ht).widen hjk s s' ⟨hscopes, hcursor⟩
  | none => exact hend s s' ⟨hscopes, hcursor.mono hjk⟩

theorem agree_advanceIf_bind {l : Category} {f f' : Bool → LineM β} (hmore : ∀ j, j < k → Agree j (f true) (f' true) Q)
    (hend : Agree k (f false) (f' false) Q) :
    Agree k (liftM (Cursor.advanceIf l) >>= f) (liftM (Cursor.advanceIf l) >>= f') Q := by
  refine (matched_ofCursor ((Cursor.takeIf_matched _).map (S := fun b b' c c' =>
    b' = b ∧ ∃ j ≤ k, (b = true → j < k) ∧ Cursor.Alike j c c') ?_)).bind ?_
  · rintro t? t?' c c' ⟨ht, hrest⟩
    exact ⟨isSome_of_rel ht, hrest⟩
  · rintro b b' s s' ⟨hscopes, rfl, j, hjk, hless, hcursor⟩
    cases b' with
    | true => exact (hmore j (hless rfl)).widen hjk s s' ⟨hscopes, hcursor⟩
    | false => exact hend s s' ⟨hscopes, hcursor.mono hjk⟩

end LineM

/-! ## The rules of use -/

section Rules

variable {c : ScopeChain} {name name' t t' : Token}

theorem ScopeChain.requireDeclared_matched (h : name.Alike name') :
    Matched (SameKind RuleFault.kind) (· = ·) (c.requireDeclared name) (c.requireDeclared name') := by
  unfold requireDeclared
  rw [h.name]
  cases c.visibleVariable? name.name <;> exact rfl

theorem ScopeChain.requireMethod_matched (h : name.Alike name') :
    Matched (SameKind RuleFault.kind) (· = ·) (c.requireMethod name) (c.requireMethod name') := by
  unfold requireMethod
  rw [h.name]
  cases c.visibleMethod? name.name <;> exact rfl

theorem ScopeChain.requireUsable_matched (type : ValueType) (h : name.Alike name') :
    Matched (SameKind RuleFault.kind) (fun _ _ => True) (c.requireUsable type name)
      (c.requireUsable type name') := by
  refine (requireDeclared_matched h).bind ?_
  rintro _ v rfl
  show Matched _ _ (if _ then _ else if _ then _ else _) (if _ then _ else if _ then _ else _)
  split
  · exact rfl
  · split
    · exact rfl
    · exact trivial

theorem requireAssignable_matched (type : ValueType) (h : t.Alike t') :
    Matched (SameKind RuleFault.kind) (fun _ _ => True) (type.requireAssignable t)
      (type.requireAssignable t') := by
  unfold ValueType.requireAssignable
  rw [h.category]
  split
  · exact trivial
  · exact rfl

theorem requireNonFinal_matched (v : Variable) :
    Matched (SameKind RuleFault.kind) (fun _ _ => True) (v.requireNonFinal name)
      (v.requireNonFinal name') := by
  unfold Variable.requireNonFinal
  split
  · exact rfl
  · exact trivial

theorem requireMethodName_matched (h : name.Alike name') :
    Matched (SameKind SyntaxFault.kind) (fun _ _ => True) (Grammar.requireMethodName name)
      (Grammar.requireMethodName name') := by
  unfold Grammar.requireMethodName
  rw [h.text]
  split
  · split
    · exact rfl
    · exact trivial
  · exact trivial

end Rules

/-! ## Statement forms -/

namespace Grammar

open Cursor LineM

variable {k : Nat} {first first' name name' : Token}

theorem upcomingValue_agree : Agree k upcomingValue upcomingValue Token.Alike := by
  refine agree_get_bind fun s s' hs => ?_
  have hnext := hs.2.next
  cases hn : s.cursor.next <;> cases hn' : s'.cursor.next <;> rw [hn, hn'] at hnext <;> cases hnext
  · exact agree_unexpected _
  · next t t' ht =>
    show Agree k (if t.category ∈ Category.values then _ else _) (if t'.category ∈ Category.values then _ else _) _
    rw [ht.category]
    split
    · exact agree_pure ht
    · exact agree_unexpected _

theorem value_agree (type : ValueType) : Agree k (value type) (value type) fun _ _ => True := by
  refine upcomingValue_agree.bind fun t t' ht => (agree_ofRule (requireAssignable_matched type ht)).bind fun _ _ _ => ?_
  rw [ht.category]
  refine (agree_skip t.category).bind fun _ _ _ => agree_when fun _ => agree_get_bind fun s s' hs => ?_
  rw [hs.1]
  exact agree_ofRule (ScopeChain.requireUsable_matched type ht)

theorem assignSign_agree (isFinal : Bool) : Agree k (assignSign isFinal) (assignSign isFinal) fun b b' => b' = b := by
  cases isFinal
  · exact agree_advanceIf .assign
  · exact (agree_expect .assign).map fun _ _ _ => rfl

theorem declarator_agree (type : ValueType) (isFinal : Bool) :
    Agree k (declarator type isFinal) (declarator type isFinal) fun _ _ => True := by
  refine (agree_expect .identifier).bind fun name name' hname => (assignSign_agree isFinal).bind ?_
  rintro _ isInitialized rfl
  rw [hname.name]
  exact (agree_when fun _ => value_agree type).bind fun _ _ _ => agree_changeScopes _ rfl

theorem declarators_agree (type : ValueType) (isFinal : Bool) {n n' : Nat} (hn : k < n) (hn' : k < n') :
    Agree k (declarators type isFinal n) (declarators type isFinal n') fun _ _ => True := by
  induction n generalizing k n' with
  | zero => cases hn
  | succ n ih =>
    obtain ⟨n', rfl⟩ := Nat.exists_eq_succ_of_ne_zero (Nat.ne_zero_of_lt hn')
    refine (declarator_agree type isFinal).bind fun _ _ _ => agree_advanceIf_bind (fun j hj => ?_) (agree_pure trivial)
    exact ih (by omega) (by omega)

theorem variableDeclaration_agree (h : first.Alike first') :
    Agree k (variableDeclaration first) (variableDeclaration first') fun _ _ => True := by
  have hkeyword : Agree k (typeKeyword first) (typeKeyword first') Token.Alike := by
    unfold typeKeyword
    rw [h.category]
    split
    · exact agree_require _ _
    · exact agree_pure h
  have htype : Agree k (declaredType first) (declaredType first') fun type type' => type' = type := by
    refine hkeyword.bind fun keyword keyword' hkeyword => ?_
    rw [hkeyword.category]
    split
    · exact agree_pure rfl
    · exact agree_unexpected _
  refine htype.bind ?_
  rintro _ type rfl
  rw [h.category]
  exact agree_bound_bind (fun j n n' hn hn' => declarators_agree type _ hn hn') fun _ _ _ => agree_skip .semicolon

theorem assignment_agree (h : first.Alike first') :
    Agree k (assignment first) (assignment first') fun _ _ => True := by
  refine agree_get_bind fun s s' hs => ?_
  rw [hs.1]
  refine (agree_ofRule (ScopeChain.requireDeclared_matched h)).bind ?_
  rintro v _ rfl
  refine (agree_skip .assign).bind fun _ _ _ => (agree_ofRule (requireNonFinal_matched v)).bind fun _ _ _ => ?_
  refine (value_agree v.type).bind fun _ _ _ => (agree_skip .semicolon).bind fun _ _ _ => ?_
  rw [h.name]
  rintro s s' ⟨hscopes, hcursor⟩
  exact ⟨trivial, congrArg (ScopeChain.initializing first.name) hscopes, hcursor⟩

theorem operands_agree {n n' : Nat} (hn : k < n) (hn' : k < n') :
    Agree k (operands n) (operands n') fun _ _ => True := by
  induction n generalizing k n' with
  | zero => cases hn
  | succ n ih =>
    obtain ⟨n', rfl⟩ := Nat.exists_eq_succ_of_ne_zero (Nat.ne_zero_of_lt hn')
    refine (value_agree .boolean).bind fun _ _ _ => agree_advanceIfAny_bind (fun j _ _ hj _ => ?_) (agree_pure trivial)
    exact ih (by omega) (by omega)

theorem conditional_agree : Agree k conditional conditional fun _ _ => True := by
  refine (agree_skip .lparen).bind fun _ _ _ => ?_
  refine agree_bound_bind (fun j n n' hn hn' => operands_agree hn hn') fun _ _ _ => ?_
  exact (agree_skip .rparen).bind fun _ _ _ => agree_skip .lbrace

theorem parameter_agree (m : Method) : Agree k (parameter m) (parameter m) fun m m' => m' = m := by
  refine (agree_advanceIf .kwFinal).bind ?_
  rintro _ isFinal rfl
  refine (agree_advanceIfAny _).bind fun keyword keyword' hkeyword => ?_
  have hsame : (keyword'.bind fun t => ValueType.ofKeyword? t.category) =
      keyword.bind fun t => ValueType.ofKeyword? t.category := by
    cases hkeyword with
    | some h => exact congrArg ValueType.ofKeyword? h.category
    | none => rfl
  rw [hsame]
  split
  · exact agree_get_bind fun _ _ _ => agree_throw rfl
  · refine (agree_expect .identifier).bind fun name name' hname => ?_
    rw [hname.name]
    split
    · exact agree_pure rfl
    · exact agree_throw rfl

theorem parameters_agree {n n' : Nat} (m : Method) (hn : k < n) (hn' : k < n') :
    Agree k (parameters n m) (parameters n' m) fun m m' => m' = m := by
  induction n generalizing k n' m with
  | zero => cases hn
  | succ n ih =>
    obtain ⟨n', rfl⟩ := Nat.exists_eq_succ_of_ne_zero (Nat.ne_zero_of_lt hn')
    refine (parameter_agree m).bind ?_
    rintro _ m rfl
    refine agree_advanceIf_bind (fun j hj => ?_) (agree_pure rfl)
    exact ih m (by omega) (by omega)

theorem parameterList_agree : Agree k parameterList parameterList fun m m' => m' = m := by
  refine (agree_advanceIf .rparen).bind ?_
  rintro _ none? rfl
  split
  · exact agree_pure rfl
  · refine agree_bound_bind (g := fun n => parameters n {}) (fun j n n' hn hn' => parameters_agree {} hn hn') ?_
    rintro _ m rfl
    exact (agree_skip .rparen).bind fun _ _ _ => agree_pure rfl

theorem methodDeclaration_agree : Agree k methodDeclaration methodDeclaration fun _ _ => True := by
  refine (agree_expect .identifier).bind fun name name' hname => ?_
  refine (agree_ofSyntax (requireMethodName_matched hname)).bind fun _ _ _ => (agree_skip .lparen).bind fun _ _ _ => ?_
  refine parameterList_agree.bind ?_
  rintro _ m rfl
  rw [hname.name]
  exact (agree_skip .lbrace).bind fun _ _ _ => agree_changeScopes _ rfl

theorem moreArguments_agree (types : List ValueType) :
    Agree k (moreArguments types) (moreArguments types) fun _ _ => True := by
  induction types with
  | nil => exact agree_pure trivial
  | cons type types ih => exact (agree_skip .comma).bind fun _ _ _ => (value_agree type).bind fun _ _ _ => ih

theorem methodCall_agree (h : first.Alike first') :
    Agree k (methodCall first) (methodCall first') fun _ _ => True := by
  have harguments : ∀ types, Agree k (arguments types) (arguments types) fun _ _ => True
    | [] => agree_pure trivial
    | type :: types => (value_agree type).bind fun _ _ _ => moreArguments_agree types
  refine agree_get_bind fun s s' hs => ?_
  rw [hs.1]
  refine (agree_ofRule (ScopeChain.requireMethod_matched h)).bind ?_
  rintro m _ rfl
  refine (agree_skip .lparen).bind fun _ _ _ => (harguments m.parameterTypes).bind fun _ _ _ => ?_
  exact (agree_skip .rparen).bind fun _ _ _ => agree_skip .semicolon

/-- **The form of a statement is checked alike** from states that are alike. -/
theorem statement_agree (h : first.Alike first') (kind : StatementKind) :
    Agree k (statement first kind) (statement first' kind) fun _ _ => True := by
  have hform : Agree k (form first kind) (form first' kind) fun _ _ => True := by
    cases kind with
    | variableDeclaration => exact variableDeclaration_agree h
    | returnStatement => exact agree_skip .semicolon
    | conditional => exact conditional_agree
    | methodDeclaration => exact methodDeclaration_agree
    | assignment => exact assignment_agree h
    | methodCall => exact methodCall_agree h
    | closeBlock => exact agree_pure trivial
  exact hform.bind fun _ _ _ => agree_finish

end Grammar

/-! ## Lines -/

section Lines

variable {line line' : List Char} {ts ts' : List Token}

/-- The cursors on lines with the same tokens. -/
theorem Cursor.ofLine_of_alike {t t' : Token} (hread : readLine line = ⟨t :: ts, none⟩)
    (hread' : readLine line' = ⟨t' :: ts', none⟩) (h : List.Forall₂ Token.Alike ts ts') :
    ∃ c c', ofLine line = .ok c ∧ ofLine line' = .ok c' ∧ c.current = some t ∧ c'.current = some t' ∧
      Alike ts.length c c' := by
  obtain ⟨c, hc, hcurrent, hahead⟩ := ofScanner_of_reading_cons (t := t) (r := ⟨ts, none⟩) hread fun _ => rfl
  obtain ⟨c', hc', hcurrent', hahead'⟩ := ofScanner_of_reading_cons (t := t') (r := ⟨ts', none⟩) hread' fun _ => rfl
  exact ⟨c, c', hc, hc', hcurrent, hcurrent', ts, ts', hahead, hahead', h, Nat.le_refl _⟩

/-- Statements of the same kind start with tokens that are alike. -/
theorem StatementKind.classify_matched {t t' : Token} {next next' : Option Token} (ht : t.Alike t')
    (hnext : Option.Rel Token.Alike next next') :
    Matched (SameKind SyntaxFault.kind) (· = ·) (classify t next) (classify t' next') := by
  have hcategory : next'.map Token.category = next.map Token.category := by
    cases hnext with
    | some h => exact congrArg some h.category
    | none => rfl
  unfold classify
  rw [ht.category, hcategory]
  split
  · exact rfl
  · exact rfl

namespace ScopeChain

theorem checkLineAt_of_empty (h : readLine line = .empty) (c : ScopeChain) (placement : Placement) :
    c.checkLineAt placement line = .ok (none, c) := by
  have hcheck : c.checkLine line = (.ok none, c) := checkLine_eq_ok_none_iff.2 ⟨readLine_eq_empty_iff.1 h, rfl⟩
  rw [checkLineAt, hcheck]

/-- A line with a first token is classified, then read as a statement of its kind, then held against its placement. -/
theorem checkLineAt_eq {cursor : Cursor} {t : Token} (h : Cursor.ofLine line = .ok cursor)
    (hcurrent : cursor.current = some t) (c : ScopeChain) (placement : Placement) :
    c.checkLineAt placement line =
      match StatementKind.classify t cursor.next with
      | .error f => .error (.ofSyntax f)
      | .ok kind =>
        match Grammar.statement t kind ⟨c, cursor⟩ with
        | .error f _ => .error f
        | .ok _ s =>
          match kind.requireAllowed placement with
          | .error f => .error (.ofRule f)
          | .ok () => .ok (some kind, s.scopes) := by
  unfold checkLineAt checkLine Cursor.beginning
  simp only [h, hcurrent]
  cases StatementKind.classify t cursor.next with
  | error f => rfl
  | ok kind =>
    dsimp only
    cases Grammar.statement t kind ⟨c, cursor⟩ <;> rfl

/-- **Lines with the same tokens are checked alike.** -/
theorem checkLineAt_matched (hread : readLine line = ⟨ts, none⟩) (hread' : readLine line' = ⟨ts', none⟩)
    (h : List.Forall₂ Token.Alike ts ts') (c : ScopeChain) (placement : Placement) :
    Matched (SameKind LineFault.kind) (· = ·) (c.checkLineAt placement line) (c.checkLineAt placement line') := by
  cases h with
  | nil =>
    rw [checkLineAt_of_empty hread, checkLineAt_of_empty hread']
    exact rfl
  | @cons t t' ts ts' ht hts =>
    obtain ⟨cursor, cursor', hcursor, hcursor', hcurrent, hcurrent', halike⟩ :=
      Cursor.ofLine_of_alike hread hread' hts
    rw [checkLineAt_eq hcursor hcurrent, checkLineAt_eq hcursor' hcurrent']
    have hclassify := StatementKind.classify_matched ht halike.next
    cases hkind : StatementKind.classify t cursor.next <;> cases hkind' : StatementKind.classify t' cursor'.next <;>
      rw [hkind, hkind'] at hclassify
    · exact hclassify
    · exact hclassify.elim
    · exact hclassify.elim
    · next kind kind' =>
      obtain rfl : kind = kind' := hclassify
      have hstatement := Grammar.statement_agree ht kind ⟨c, cursor⟩ ⟨c, cursor'⟩ ⟨rfl, halike⟩
      dsimp only
      cases hs : Grammar.statement t kind ⟨c, cursor⟩ <;> cases hs' : Grammar.statement t' kind ⟨c, cursor'⟩ <;>
        rw [hs, hs'] at hstatement
      · obtain ⟨-, hscopes, -⟩ := hstatement
        dsimp only
        rw [hscopes]
        exact .refl (SameKind.refl _) _
      · exact hstatement.elim
      · exact hstatement.elim
      · exact hstatement

end ScopeChain

/-! ## Braces -/

theorem opensBlock_iff_categories (hline : '\n' ∉ line) (h : (readLine line).failure = none) :
    opensBlock line = true ↔ ((readLine line).tokens.map Token.category).getLast? = some .lbrace := by
  have hread : readLine line = ⟨(readLine line).tokens, none⟩ := by rw [← h]
  rcases List.eq_nil_or_concat' (readLine line).tokens with hnil | ⟨ts, t, htokens⟩
  · rw [hnil] at hread ⊢
    rw [(no_braces_of_readLine_empty hread).1]
    exact ⟨fun h => (nomatch h), fun h => (nomatch h)⟩
  · rw [htokens] at hread ⊢
    rw [opensBlock_iff hline hread, List.map_append, List.map_singleton, List.getLast?_concat, Option.some.injEq]

theorem closesBlock_iff_categories (h : (readLine line).failure = none) :
    closesBlock line = true ↔ (readLine line).tokens.map Token.category = [.rbrace] := by
  have hread : readLine line = ⟨(readLine line).tokens, none⟩ := by rw [← h]
  rw [closesBlock_iff, List.map_eq_singleton_iff]
  refine exists_congr fun t => and_congr_left fun _ => ?_
  rw [hread, Reading.mk.injEq]
  exact and_iff_left rfl

/-- **The same braces count** in a line that is laid out anew. -/
theorem braces_respaced (hline : '\n' ∉ line) (h : (readLine line).failure = none) :
    opensBlock (respaced line) = opensBlock line ∧ closesBlock (respaced line) = closesBlock line := by
  obtain ⟨ts, hread, halike⟩ := readLine_respaced line
  have hcategories : (readLine (respaced line)).tokens.map Token.category =
      (readLine line).tokens.map Token.category := by
    rw [hread]
    exact Token.categories_of_alike halike
  have hfailure : (readLine (respaced line)).failure = none := by rw [hread]
  constructor
  · rw [Bool.eq_iff_iff, opensBlock_iff_categories (newline_not_mem_respaced hline) hfailure,
      opensBlock_iff_categories hline h, hcategories]
  · rw [Bool.eq_iff_iff, closesBlock_iff_categories hfailure, closesBlock_iff_categories h, hcategories]

end Lines

end BlockCheck
