import BlockCheck.Proofs.Line.Failures

/-!
# Lines with text that is no token

A line is read one token ahead of where it is checked, and reading ends at text that is no token. Such a line is never
accepted: checking it ends with the fault of this text, as soon as the text would become the next token, or before
that with a fault of the tokens in front of it (`lookahead_settles`). The second kind of fault is not touched by what
follows these tokens: every line that starts with the same tokens has it, and leaves the same scopes.

The two lines are checked side by side, from states with the same tokens ahead up to that text (`LineM.Settled`).
Rules that repeat others are allowed a number of steps that depends on the rest of the line, but no number that is
larger than the number of tokens makes a difference (`Grammar.declarators_bound`, …).
-/

namespace BlockCheck

open Step

/-! ## Steps that read the same tokens -/

namespace Step

variable {ε σ α β : Type} {P K : σ → σ → Prop} {X : ε → Prop} {m : EStateM ε σ α}

/-- From states related by `P` the step gives the same value and states that are related again, or it fails. Then both
runs have the same fault and leave states related by `K`, unless the fault of the first one is excused by `X`. -/
def Settled (P K : σ → σ → Prop) (X : ε → Prop) (m : EStateM ε σ α) : Prop :=
  ∀ s s', P s s' →
    match m s with
    | .ok a t => ∃ t', m s' = .ok a t' ∧ P t t'
    | .error f t => X f ∨ ∃ t', m s' = .error f t' ∧ K t t'

theorem settled_pure (a : α) : Settled P K X (pure a : EStateM ε σ α) := fun _ s' hs => ⟨s', rfl, hs⟩

theorem settled_throw (hK : ∀ s s', P s s' → K s s') (f : ε) : Settled P K X (throw f : EStateM ε σ α) :=
  fun s s' hs => .inr ⟨s', rfl, hK s s' hs⟩

theorem Settled.bind {f : α → EStateM ε σ β} (hm : Settled P K X m) (hf : ∀ a, Settled P K X (f a)) :
    Settled P K X (m >>= f) := by
  intro s s' hs
  have hm := hm s s' hs
  show match EStateM.bind m f s with
    | .ok b t => ∃ t', EStateM.bind m f s' = .ok b t' ∧ P t t'
    | .error e t => X e ∨ ∃ t', EStateM.bind m f s' = .error e t' ∧ K t t'
  unfold EStateM.bind
  cases hstep : m s with
  | ok a t =>
    rw [hstep] at hm
    obtain ⟨t', hstep', ht⟩ := hm
    rw [hstep']
    exact hf a t t' ht
  | error e t =>
    rw [hstep] at hm
    refine hm.imp_right ?_
    rintro ⟨t', hstep', ht⟩
    exact ⟨t', by rw [hstep'], ht⟩

theorem Settled.map (g : α → β) (hm : Settled P K X m) : Settled P K X (g <$> m) :=
  hm.bind (f := fun a => pure (g a)) fun a => settled_pure (g a)

/-- A step may look at its state as far as related states do not differ. -/
theorem settled_get_bind {f : σ → EStateM ε σ β} (heq : ∀ s s', P s s' → f s' = f s) (hf : ∀ s, Settled P K X (f s)) :
    Settled P K X (get >>= f) := by
  intro s s' hs
  show match f s s with
    | .ok b t => ∃ t', f s' s' = .ok b t' ∧ P t t'
    | .error e t => X e ∨ ∃ t', f s' s' = .error e t' ∧ K t t'
  rw [heq s s' hs]
  exact hf s s s' hs

end Step

/-! ## Cursors -/

namespace Cursor

variable {α : Type} {F : SyntaxFault} {c c' : Cursor} {m : CursorM α}

/-- What is ahead of the first cursor are tokens and then text that is no token, with the fault `F`. These tokens are
ahead of the second cursor as well, whatever follows them there. -/
def SameUpTo (F : SyntaxFault) (c c' : Cursor) : Prop := c.ahead.failure = some F ∧ c.ahead.tokens <+: c'.ahead.tokens

/-- The text that is no token comes behind the next token, which both cursors have. -/
theorem SameUpTo.exists_next (h : SameUpTo F c c') : ∃ t, c.next = some t ∧ c'.next = some t ∧
    c.scanner.reading.failure = some F ∧ c.scanner.reading.tokens <+: c'.scanner.reading.tokens := by
  obtain ⟨hfailure, htokens⟩ := h
  cases hn : c.next with
  | none => rw [ahead_none hn] at hfailure; cases hfailure
  | some t =>
    rw [ahead_some hn] at hfailure htokens
    cases hn' : c'.next with
    | none => rw [ahead_none hn'] at htokens; cases List.prefix_nil.1 htokens
    | some t' =>
      rw [ahead_some hn'] at htokens
      obtain ⟨rfl, hrest⟩ := List.cons_prefix_cons.1 htokens
      exact ⟨t, rfl, rfl, hfailure, hrest⟩

theorem SameUpTo.next (h : SameUpTo F c c') : c'.next = c.next := by
  obtain ⟨t, hn, hn', -⟩ := h.exists_next
  rw [hn, hn']

/-- The step is settled by the tokens in front of the text that is no token, or it fails with the fault of the text. -/
def Settled (F : SyntaxFault) (m : CursorM α) : Prop := Step.Settled (SameUpTo F) (fun _ _ => True) (· = F) m

theorem advance_settled : Settled F advance := by
  intro c c' h
  obtain ⟨t, hn, hn', hfailure, htokens⟩ := h.exists_next
  unfold advance
  cases hp : c.scanner.pull with
  | mk item rest =>
    match item with
    | .error f =>
      rw [Scanner.reading_of_pull_error hp] at hfailure
      exact .inl (Option.some.inj hfailure)
    | .ok none =>
      rw [Scanner.reading_of_pull_none hp] at hfailure
      cases hfailure
    | .ok (some u) =>
      rw [Scanner.reading_of_pull_some hp] at hfailure htokens
      obtain ⟨us, hus⟩ := htokens
      have hread : c'.scanner.reading = Reading.cons u ⟨rest.reading.tokens ++ us, c'.scanner.reading.failure⟩ := by
        rw [Reading.cons, ← List.cons_append]
        exact congrArg (Reading.mk · _) hus.symm
      obtain ⟨rest', hp', hrest'⟩ := Scanner.pull_of_reading_cons hread
      refine ⟨⟨c'.next, some u, rest'⟩, by rw [hp'], hfailure, ?_⟩
      show u :: rest.reading.tokens <+: u :: rest'.reading.tokens
      rw [hrest']
      exact List.cons_prefix_cons.2 ⟨rfl, List.prefix_append _ us⟩

theorem takeIf_settled (test : Category → Bool) : Settled F (takeIf test) := by
  refine settled_get_bind (fun c c' h => by rw [h.next]) fun c => ?_
  split
  · split
    · exact advance_settled.map _
    · exact settled_pure none
  · exact settled_pure none

theorem require_settled (ks : List Category) (expected : Expected) : Settled F (require ks expected) := by
  refine Step.Settled.bind (takeIf_settled _) fun t? => ?_
  cases t? with
  | some t => exact settled_pure t
  | none =>
    refine settled_get_bind (fun c c' h => ?_) fun c => settled_throw (fun _ _ _ => trivial) _
    rw [unexpected, nextCategory, h.next]
    rfl

/-- A token is left, so the end of the line is not reached. -/
theorem finish_settled : Settled F finish := by
  refine settled_get_bind (fun c c' h => ?_) fun c => ?_
  · rw [unexpected, nextCategory, h.next]
    rfl
  · split
    · exact settled_throw (fun _ _ _ => trivial) _
    · exact settled_pure ()

end Cursor

/-! ## Steps of checking a line -/

/-- The scopes are the same, and the tokens ahead of the first state are ahead of the second. -/
def LineState.SameUpTo (F : SyntaxFault) (s s' : LineState) : Prop :=
  s'.scopes = s.scopes ∧ s.cursor.SameUpTo F s'.cursor

namespace LineM

variable {α β : Type} {F : SyntaxFault} {m : LineM α}

/-- The step is settled by the tokens in front of the text that is no token, or it fails with the fault of this text.
A step that is settled leaves the same scopes, also where it fails. -/
def Settled (F : SyntaxFault) (m : LineM α) : Prop :=
  Step.Settled (LineState.SameUpTo F) (fun s s' => s'.scopes = s.scopes) (· = .ofSyntax F) m

theorem settled_ofCursor {m : CursorM α} (h : Cursor.Settled F m) : Settled F (liftM m) := by
  rintro s s' ⟨hscopes, hcursor⟩
  have h := h _ _ hcursor
  have hlift : (liftM m : LineM α) = ofCursor m := rfl
  rw [hlift]
  unfold ofCursor
  cases hstep : m s.cursor with
  | ok a c =>
    rw [hstep] at h
    obtain ⟨c', hstep', hc⟩ := h
    exact ⟨{ s' with cursor := c' }, by rw [hstep'], hscopes, hc⟩
  | error f c =>
    rw [hstep] at h
    refine h.imp (congrArg _) ?_
    rintro ⟨c', hstep', -⟩
    exact ⟨{ s' with cursor := c' }, by rw [hstep'], hscopes⟩

theorem settled_ofRule (e : Except RuleFault α) : Settled F (liftM e) := by
  intro s s' hs
  cases e with
  | ok a => exact ⟨s', rfl, hs⟩
  | error f => exact .inr ⟨s', rfl, hs.1⟩

theorem settled_ofSyntax (e : Except SyntaxFault α) : Settled F (liftM e) := by
  intro s s' hs
  cases e with
  | ok a => exact ⟨s', rfl, hs⟩
  | error f => exact .inr ⟨s', rfl, hs.1⟩

theorem settled_throw (f : LineFault) : Settled F (throw f : LineM α) := Step.settled_throw (fun _ _ hs => hs.1) f

theorem settled_changeScopes (change : ScopeChain → Except SymbolFault ScopeChain) (fault : RuleFault) :
    Settled F (changeScopes change fault) := by
  rintro s s' ⟨hscopes, hcursor⟩
  unfold changeScopes
  rw [hscopes]
  cases change s.scopes with
  | ok scopes => exact ⟨{ s' with scopes }, rfl, rfl, hcursor⟩
  | error _ => exact .inr ⟨s', rfl, hscopes⟩

theorem settled_when {condition : Bool} {m : LineM Unit} (h : Settled F m) : Settled F (LineM.when condition m) := by
  cases condition
  · exact settled_pure ()
  · exact h

theorem settled_unexpected (expected : Expected) : Settled F (unexpected expected : LineM α) := by
  refine settled_get_bind (fun s s' hs => ?_) fun s => settled_throw _
  rw [Cursor.unexpected, Cursor.nextCategory, hs.2.next]
  rfl

theorem settled_expect (k : Category) : Settled F (liftM (Cursor.expect k)) :=
  settled_ofCursor (Cursor.require_settled [k] _)

theorem settled_skip (k : Category) : Settled F (discard (liftM (Cursor.expect k) : LineM Token)) :=
  (settled_expect k).map _

theorem settled_advanceIfAny (ks : List Category) : Settled F (liftM (Cursor.advanceIfAny ks)) :=
  settled_ofCursor (Cursor.takeIf_settled _)

theorem settled_advanceIf (k : Category) : Settled F (liftM (Cursor.advanceIf k)) :=
  settled_ofCursor ((Cursor.takeIf_settled _).map _)

/-- A rule that repeats others is settled if its number of steps makes no difference. -/
theorem settled_bound_bind {g : Nat → LineM α} {f : α → LineM β} (hg : ∀ n, Settled F (g n))
    (hbound : ∀ {n n' : Nat} {s : LineState}, s.ahead.tokens.length < n → s.ahead.tokens.length < n' → g n s = g n' s)
    (hf : ∀ a, Settled F (f a)) : Settled F (get >>= fun s => g s.cursor.bound >>= f) := by
  intro s s' hs
  have henough : ∀ s : LineState, s.ahead.tokens.length < s.cursor.bound := fun s => s.cursor.length_ahead_lt_bound
  -- The larger of both numbers will do for both runs.
  have hrun := ((hg (max s.cursor.bound s'.cursor.bound)).bind hf) s s' hs
  have hsame : ∀ n (s : LineState), s.cursor.bound ≤ n →
      (g n >>= f) s = (get >>= fun s => g s.cursor.bound >>= f) s := by
    intro n s hn
    show EStateM.bind (g n) f s = EStateM.bind (g s.cursor.bound) f s
    unfold EStateM.bind
    rw [hbound (henough s) (Nat.lt_of_lt_of_le (henough s) hn)]
  rwa [hsame _ s (Nat.le_max_left _ _), hsame _ s' (Nat.le_max_right _ _)] at hrun

end LineM

/-! ## Statement forms -/

namespace Grammar

open Cursor LineM

variable {F : SyntaxFault}

section Bounds

variable {α β : Type} {m : LineM α} {f f' : α → LineM β} {s : LineState} {n n' : Nat}

theorem bind_congr_of_ok (h : ∀ a s₁, m s = .ok a s₁ → f a s₁ = f' a s₁) : (m >>= f) s = (m >>= f') s := by
  show EStateM.bind m f s = EStateM.bind m f' s
  unfold EStateM.bind
  cases hstep : m s with
  | ok a s₁ => exact h a s₁ hstep
  | error e s₁ => rfl

/-- As many steps as there are tokens are enough for declarators. -/
theorem declarators_bound {type : ValueType} {isFinal : Bool} (hn : s.ahead.tokens.length < n)
    (hn' : s.ahead.tokens.length < n') : declarators type isFinal n s = declarators type isFinal n' s := by
  induction n generalizing n' s with
  | zero => cases hn
  | succ n ih =>
    obtain ⟨n', rfl⟩ := Nat.exists_eq_succ_of_ne_zero (Nat.ne_zero_of_lt hn')
    refine bind_congr_of_ok fun _ s₁ h₁ => bind_congr_of_ok fun more s₂ h₂ => ?_
    cases more with
    | false => rfl
    | true =>
      obtain ⟨d, ts, -, ha₁, -⟩ := declarator_ok h₁
      obtain ⟨comma, -, ha₂, -⟩ := advanceIf_true h₂
      have hless : s₂.ahead.tokens.length < s.ahead.tokens.length := by
        rw [ha₁, ha₂, Reading.tokens_append, List.length_append]
        exact Nat.lt_add_left _ (Nat.lt_succ_self _)
      exact ih (by omega) (by omega)

/-- As many steps as there are tokens are enough for operands. -/
theorem operands_bound (hn : s.ahead.tokens.length < n) (hn' : s.ahead.tokens.length < n') :
    operands n s = operands n' s := by
  induction n generalizing n' s with
  | zero => cases hn
  | succ n ih =>
    obtain ⟨n', rfl⟩ := Nat.exists_eq_succ_of_ne_zero (Nat.ne_zero_of_lt hn')
    refine bind_congr_of_ok fun _ s₁ h₁ => bind_congr_of_ok fun more s₂ h₂ => ?_
    cases more with
    | none => rfl
    | some sign =>
      obtain ⟨v, -, ha₁, -⟩ := value_ok h₁
      obtain ⟨-, ha₂, -⟩ := advanceIfAny_some h₂
      have hless : s₂.ahead.tokens.length < s.ahead.tokens.length := by
        rw [ha₁, ha₂]
        exact Nat.lt_add_of_pos_right Nat.two_pos
      exact ih (by omega) (by omega)

/-- As many steps as there are tokens are enough for parameters. -/
theorem parameters_bound {p : Method} (hn : s.ahead.tokens.length < n) (hn' : s.ahead.tokens.length < n') :
    parameters n p s = parameters n' p s := by
  induction n generalizing n' s p with
  | zero => cases hn
  | succ n ih =>
    obtain ⟨n', rfl⟩ := Nat.exists_eq_succ_of_ne_zero (Nat.ne_zero_of_lt hn')
    refine bind_congr_of_ok fun p s₁ h₁ => bind_congr_of_ok fun more s₂ h₂ => ?_
    cases more with
    | false => rfl
    | true =>
      obtain ⟨_, ts, -, ha₁, -⟩ := parameter_ok h₁
      obtain ⟨comma, -, ha₂, -⟩ := advanceIf_true h₂
      have hless : s₂.ahead.tokens.length < s.ahead.tokens.length := by
        rw [ha₁, ha₂, Reading.tokens_append, List.length_append]
        exact Nat.lt_add_left _ (Nat.lt_succ_self _)
      exact ih (by omega) (by omega)

end Bounds

theorem upcomingValue_settled : Settled F upcomingValue := by
  refine settled_get_bind (fun s s' hs => by rw [hs.2.next]) fun s => ?_
  split
  · split
    · exact settled_pure _
    · exact settled_unexpected .value
  · exact settled_unexpected .value

theorem value_settled (type : ValueType) : Settled F (value type) := by
  refine upcomingValue_settled.bind fun t => (settled_ofRule _).bind fun _ => ?_
  refine (settled_skip t.category).bind fun _ => settled_when ?_
  exact settled_get_bind (fun s s' hs => by rw [hs.1]) fun s => settled_ofRule _

theorem assignSign_settled (isFinal : Bool) : Settled F (assignSign isFinal) := by
  cases isFinal
  · exact settled_advanceIf .assign
  · exact (settled_expect .assign).map _

theorem declarator_settled (type : ValueType) (isFinal : Bool) : Settled F (declarator type isFinal) := by
  refine (settled_expect .identifier).bind fun name => (assignSign_settled isFinal).bind fun isInitialized => ?_
  exact (settled_when (value_settled type)).bind fun _ => settled_changeScopes _ _

theorem declarators_settled (type : ValueType) (isFinal : Bool) (n : Nat) :
    Settled F (declarators type isFinal n) := by
  induction n with
  | zero => exact settled_pure ()
  | succ n ih =>
    exact (declarator_settled type isFinal).bind fun _ => (settled_advanceIf .comma).bind fun _ => settled_when ih

theorem variableDeclaration_settled (first : Token) : Settled F (variableDeclaration first) := by
  have hkeyword : Settled F (typeKeyword first) := by
    unfold typeKeyword
    split
    · exact settled_ofCursor (require_settled _ _)
    · exact settled_pure first
  have htype : Settled F (declaredType first) := by
    refine hkeyword.bind fun keyword => ?_
    split
    · exact settled_pure _
    · exact settled_unexpected _
  refine htype.bind fun type => ?_
  exact settled_bound_bind (declarators_settled type _) declarators_bound fun _ => settled_skip .semicolon

theorem assignment_settled (target : Token) : Settled F (assignment target) := by
  refine settled_get_bind (fun s s' hs => by rw [hs.1]) fun s => (settled_ofRule _).bind fun v => ?_
  refine (settled_skip .assign).bind fun _ => (settled_ofRule _).bind fun _ => ?_
  refine (value_settled v.type).bind fun _ => (settled_skip .semicolon).bind fun _ => ?_
  rintro s s' ⟨hscopes, hcursor⟩
  exact ⟨_, rfl, congrArg (ScopeChain.initializing target.name) hscopes, hcursor⟩

theorem operands_settled (n : Nat) : Settled F (operands n) := by
  induction n with
  | zero => exact settled_pure ()
  | succ n ih =>
    exact (value_settled .boolean).bind fun _ => (settled_advanceIfAny _).bind fun _ => settled_when ih

theorem conditional_settled : Settled F conditional := by
  refine (settled_skip .lparen).bind fun _ => settled_bound_bind operands_settled operands_bound fun _ => ?_
  exact (settled_skip .rparen).bind fun _ => settled_skip .lbrace

theorem parameter_settled (m : Method) : Settled F (parameter m) := by
  refine (settled_advanceIf .kwFinal).bind fun isFinal => (settled_advanceIfAny _).bind fun keyword => ?_
  split
  · exact settled_get_bind (fun s s' hs => by rw [hs.2.next]) fun s => settled_throw _
  · refine (settled_expect .identifier).bind fun name => ?_
    split
    · exact settled_pure _
    · exact settled_throw _

theorem parameters_settled (n : Nat) (m : Method) : Settled F (parameters n m) := by
  induction n generalizing m with
  | zero => exact settled_pure m
  | succ n ih =>
    refine (parameter_settled m).bind fun m => (settled_advanceIf .comma).bind fun more => ?_
    cases more
    · exact settled_pure m
    · exact ih m

theorem parameterList_settled : Settled F parameterList := by
  refine (settled_advanceIf .rparen).bind fun none? => ?_
  cases none?
  · refine settled_bound_bind (g := fun n => parameters n {}) (fun n => parameters_settled n {}) parameters_bound ?_
    exact fun m => (settled_skip .rparen).bind fun _ => settled_pure m
  · exact settled_pure _

theorem methodDeclaration_settled : Settled F methodDeclaration := by
  refine (settled_expect .identifier).bind fun name => (settled_ofSyntax _).bind fun _ => ?_
  refine (settled_skip .lparen).bind fun _ => parameterList_settled.bind fun m => ?_
  exact (settled_skip .lbrace).bind fun _ => settled_changeScopes _ _

theorem moreArguments_settled (types : List ValueType) : Settled F (moreArguments types) := by
  induction types with
  | nil => exact settled_pure ()
  | cons type types ih => exact (settled_skip .comma).bind fun _ => (value_settled type).bind fun _ => ih

theorem methodCall_settled (name : Token) : Settled F (methodCall name) := by
  have harguments : ∀ types, Settled F (arguments types)
    | [] => settled_pure ()
    | type :: types => (value_settled type).bind fun _ => moreArguments_settled types
  refine settled_get_bind (fun s s' hs => by rw [hs.1]) fun s => (settled_ofRule _).bind fun m => ?_
  refine (settled_skip .lparen).bind fun _ => (harguments m.parameterTypes).bind fun _ => ?_
  exact (settled_skip .rparen).bind fun _ => settled_skip .semicolon

/-- **A statement is settled by the tokens in front of the text that is no token**, or it fails with the fault of this
text. -/
theorem statement_settled (first : Token) (kind : StatementKind) : Settled F (statement first kind) := by
  have hform : Settled F (form first kind) := by
    cases kind with
    | variableDeclaration => exact variableDeclaration_settled first
    | returnStatement => exact settled_skip .semicolon
    | conditional => exact conditional_settled
    | methodDeclaration => exact methodDeclaration_settled
    | assignment => exact assignment_settled first
    | methodCall => exact methodCall_settled first
    | closeBlock => exact settled_pure ()
  exact hform.bind fun _ => settled_ofCursor finish_settled

end Grammar

/-! ## Lines -/

section Lines

variable {line line' : List Char} {F : SyntaxFault}

/-- Where a cursor cannot be put on the first token of a line, the fault is that of text which is no token. -/
theorem Cursor.failure_of_ofLine_error (h : ofLine line = .error F) : (readLine line).failure = some F := by
  have hscan : ofScanner (.ofLine line) = .error F := h
  show (Scanner.ofLine line).reading.failure = some F
  unfold ofScanner at hscan
  split at hscan
  · next s₁ h₁ =>
    cases hscan
    rw [Scanner.reading_of_pull_error h₁]
  · next current s₁ h₁ =>
    split at hscan
    · next s₂ h₂ =>
      cases hscan
      cases current with
      | none =>
        -- Nothing is left of the line, so nothing can fail.
        have hempty := Scanner.reading_of_pull_none h₁
        obtain ⟨-, rfl⟩ := Prod.mk.inj (h₁.symm.trans (Scanner.pull_of_reading_empty hempty))
        cases h₁.symm.trans h₂
      | some t =>
        rw [Scanner.reading_of_pull_some h₁, Scanner.reading_of_pull_error h₂]
        rfl
    · cases hscan

/-- Lines that start with the same tokens, at least two, have cursors on the same first token. -/
theorem Cursor.ofLine_of_sameUpTo {cursor : Cursor} {first : Token} (hfailure : cursor.ahead.failure = some F)
    (hread : readLine line = cursor.ahead.cons first) (h : (readLine line).tokens <+: (readLine line').tokens) :
    ∃ cursor', ofLine line' = .ok cursor' ∧ cursor'.current = some first ∧ cursor.SameUpTo F cursor' := by
  rw [hread] at h
  obtain ⟨rest, hrest⟩ := h
  have hread' : readLine line' = Reading.cons first ⟨cursor.ahead.tokens ++ rest, (readLine line').failure⟩ := by
    rw [Reading.cons, ← List.cons_append]
    exact congrArg (Reading.mk · _) hrest.symm
  have hclear : (Reading.mk (cursor.ahead.tokens ++ rest) (readLine line').failure).Clear := by
    intro hnil
    cases hfailure.symm.trans (cursor.clear_ahead (List.append_eq_nil_iff.1 hnil).1)
  obtain ⟨cursor', hcursor', hcurrent', hahead'⟩ := ofScanner_of_reading_cons hread' hclear
  refine ⟨cursor', hcursor', hcurrent', hfailure, ?_⟩
  rw [hahead']
  exact List.prefix_append _ rest

end Lines

/-- **What follows text that is no token is never looked at.** A line with such text is rejected. It has the fault of
this text, or it has another one, and then every line that starts with the tokens in front of this text, in the same
places, is rejected with the same fault and leaves the same scopes. -/
theorem lookahead_settles (c : ScopeChain) {line : List Char} {F : SyntaxFault}
    (hfailure : (readLine line).failure = some F) :
    ∃ e c', c.checkLine line = (.error e, c') ∧ (e = .ofSyntax F ∨
      ∀ line', (readLine line).tokens <+: (readLine line').tokens → c.checkLine line' = (.error e, c')) := by
  cases hcursor : Cursor.ofLine line with
  | error f =>
    cases hfailure.symm.trans (Cursor.failure_of_ofLine_error hcursor)
    exact ⟨.ofSyntax F, c, by simp only [ScopeChain.checkLine, hcursor], .inl rfl⟩
  | ok cursor =>
    rcases Cursor.ofScanner_ok hcursor with ⟨-, hread⟩ | ⟨first, hfirst, hread⟩
    · cases (congrArg Reading.failure hread).symm.trans hfailure
    · have hahead : cursor.ahead.failure = some F := (congrArg Reading.failure hread).symm.trans hfailure
      have hother : ∀ line', (readLine line).tokens <+: (readLine line').tokens → ∃ cursor',
          Cursor.ofLine line' = .ok cursor' ∧ cursor'.current = some first ∧ cursor.SameUpTo F cursor' :=
        fun line' => Cursor.ofLine_of_sameUpTo hahead hread
      cases hkind : StatementKind.classify first cursor.next with
      | error f =>
        refine ⟨.ofSyntax f, c, ?_, .inr ?_⟩
        · simp only [ScopeChain.checkLine, hcursor, Cursor.beginning, hfirst, hkind]
        · intro line' hprefix
          obtain ⟨cursor', hcursor', hfirst', hsame⟩ := hother line' hprefix
          simp only [ScopeChain.checkLine, hcursor', Cursor.beginning, hfirst', hsame.next, hkind]
      | ok kind =>
        have hcheck := ScopeChain.checkLine_of_kind c hcursor hfirst hkind
        cases hrun : Grammar.statement first kind ⟨c, cursor⟩ with
        | ok u s =>
          -- The line would be accepted, but then it could be read to its end.
          rw [hrun] at hcheck
          obtain ⟨-, -, hnone, -⟩ := ScopeChain.checkLine_eq_ok_some_iff.1 hcheck
          cases hnone.symm.trans hfailure
        | error f s =>
          rw [hrun] at hcheck
          refine ⟨f, s.scopes, hcheck, or_iff_not_imp_left.2 fun hother' line' hprefix => ?_⟩
          obtain ⟨cursor', hcursor', hfirst', hsame⟩ := hother line' hprefix
          have hsettled := Grammar.statement_settled (F := F) first kind ⟨c, cursor⟩ ⟨c, cursor'⟩ ⟨rfl, hsame⟩
          rw [hrun] at hsettled
          obtain ⟨s', hrun', hscopes⟩ := hsettled.resolve_left hother'
          rw [ScopeChain.checkLine_of_kind c hcursor' hfirst' (hsame.next ▸ hkind), hrun']
          exact congrArg (Prod.mk _) hscopes

/-- The sign that a final variable must have is missed before the text that is no token is read, so the line has the
same fault with another end. -/
theorem lookahead_settles_missing_sign :
    let line := "final int a b #".toList
    let e : LineFault := .ofSyntax (.unexpectedToken (.category .assign) (some .identifier) (some ⟨12, 1⟩))
    (readLine line).failure = some (.unknownToken "#" ⟨14, 1⟩) ∧
      ScopeChain.empty.checkLine line = (.error e, .empty) ∧
      ScopeChain.empty.checkLine "final int a b = 5, c;".toList = (.error e, .empty) := by
  intro line e
  have hfailure : (readLine line).failure = some (.unknownToken "#" ⟨14, 1⟩) := by decide +kernel
  obtain ⟨e', c', hcheck, hsettled⟩ := lookahead_settles .empty hfailure
  have hline : ScopeChain.empty.checkLine line = (.error e, .empty) := by decide +kernel
  obtain ⟨he, hc'⟩ := Prod.mk.inj (hcheck.symm.trans hline)
  cases he
  subst hc'
  refine ⟨hfailure, hline, hsettled.resolve_left (by decide) _ ?_⟩
  decide +kernel

end BlockCheck
