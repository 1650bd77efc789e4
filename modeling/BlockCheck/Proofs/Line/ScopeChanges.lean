import BlockCheck.Proofs.Line.Ensures

/-!
# Where a line changes the scopes

Of all steps of checking a line only three change the scopes: the end of a declarator, the end of the head of a method
and the end of an assignment. So a property of scopes that these three changes keep (`ScopeChain.Stable`) is kept by
every line, whether it is right or wrong (`ScopeChain.Stable.checkLine`).

The rules that change nothing keep every property of the scopes (`Grammar.value_scoped`, `Grammar.arguments_scoped`, …).
A declarator, a method head and an assignment change the scopes in their last step, behind which nothing can fail
(`Grammar.declarator_ends`, `Grammar.methodDeclaration_ends`, `Grammar.assignment_ends`). None of the rules complains
of a token behind the statement (`LineFault.IsTrailing`): this is done when the statement has been read.
-/

namespace BlockCheck

/-! ## Tokens behind a statement -/

/-- A token stands where the statement should have ended. -/
def SyntaxFault.IsTrailing : SyntaxFault → Prop
  | .unexpectedToken .endOfStatement _ _ => True
  | _ => False

/-- A token stands where the statement should have ended. -/
def LineFault.IsTrailing : LineFault → Prop
  | .ofSyntax f => f.IsTrailing
  | .ofRule _ | .ofBlock _ => False

theorem Cursor.not_isTrailing_unexpected {expected : Expected} (h : expected ≠ .endOfStatement) (c : Cursor) :
    ¬ (c.unexpected expected).IsTrailing := by
  cases expected with
  | endOfStatement => exact absurd rfl h
  | category _ | oneOf _ | value => exact id

/-- What the scanner complains of is text that is no token. -/
theorem Scanner.fault_of_pull {s s' : Scanner} {f : SyntaxFault} (h : s.pull = (.error f, s')) : f = s.unknown := by
  unfold pull next? at h
  split at h
  · cases h
  · cases h
  · next hitem =>
    cases h
    split at hitem
    · cases hitem
    · split at hitem <;> cases hitem
      rfl

namespace Cursor

open Step

variable {α : Type} {m : CursorM α} {R : α → Prop}

/-- The step gives a value with `R`, and no fault of it is that of a token behind the statement. -/
def Inside (m : CursorM α) (R : α → Prop) : Prop := Ensures (fun _ => True) (fun f _ => ¬ f.IsTrailing) m R

theorem advance_inside : Inside advance fun _ => True := by
  intro c _
  unfold advance
  cases hpull : c.scanner.pull with
  | mk item rest =>
    cases item with
    | ok next => exact ⟨trivial, trivial⟩
    | error f =>
      rw [Scanner.fault_of_pull hpull]
      exact id

theorem takeIf_inside (test : Category → Bool) : Inside (takeIf test) fun _ => True := by
  refine ensures_get_bind fun c _ => ?_
  split
  · split
    · exact advance_inside.map fun _ _ => trivial
    · exact ensures_pure trivial
  · exact ensures_pure trivial

theorem require_inside (ks : List Category) {expected : Expected} (h : expected ≠ .endOfStatement) :
    Inside (require ks expected) fun _ => True := by
  refine Ensures.bind (takeIf_inside _) fun t? _ => ?_
  cases t? with
  | some t => exact ensures_pure trivial
  | none =>
    exact ensures_get_bind fun c _ => ensures_throw fun _ _ => not_isTrailing_unexpected h c

end Cursor

/-! ## Steps -/

namespace LineM

open Step

variable {α β : Type} {P Q : ScopeChain → Prop} {R : α → Prop}

/-- Any value will do. -/
abbrev Any (_ : α) : Prop := True

/-- The step gives a value with `R` and keeps the property of the scopes, also where it fails, and it never complains
of a token behind the statement. -/
def Scoped (P : ScopeChain → Prop) (m : LineM α) (R : α → Prop) : Prop :=
  Ensures (fun s => P s.scopes) (fun f s => P s.scopes ∧ ¬ f.IsTrailing) m R

/-- The step leads from scopes with `P` to scopes with `Q`. Where it fails they still have `P`, and the fault is not
that of a token behind the statement. -/
def Ends (P Q : ScopeChain → Prop) (m : LineM α) : Prop :=
  ∀ s, P s.scopes →
    match m s with
    | .ok _ s' => Q s'.scopes
    | .error f s' => P s'.scopes ∧ ¬ f.IsTrailing

theorem Ends.scoped {m : LineM α} (h : Ends P P m) : Scoped P m Any := by
  intro s hs
  have h := h s hs
  cases hstep : m s with
  | ok a s' =>
    rw [hstep] at h
    exact ⟨trivial, h⟩
  | error f s' =>
    rw [hstep] at h
    exact h

/-- Only the last step changes what is known of the scopes. -/
theorem Scoped.bind_ends {m : LineM α} {f : α → LineM β} (hm : Scoped P m R) (hf : ∀ a, R a → Ends P Q (f a)) :
    Ends P Q (m >>= f) := by
  intro s hs
  show match EStateM.bind m f s with
    | .ok _ s' => Q s'.scopes
    | .error f s' => P s'.scopes ∧ ¬ f.IsTrailing
  unfold EStateM.bind
  cases hstep : m s with
  | ok a s' =>
    obtain ⟨ha, hs'⟩ := hm.of_ok hs hstep
    exact hf a ha s' hs'
  | error f s' => exact hm.of_error hs hstep

theorem ends_get_bind {f : LineState → LineM β} (hf : ∀ s, P s.scopes → Ends P Q (f s)) : Ends P Q (get >>= f) :=
  fun s hs => hf s hs s hs

theorem ends_changeScopes {change : ScopeChain → Except SymbolFault ScopeChain} (fault : RuleFault)
    (h : ∀ c c', P c → change c = .ok c' → Q c') : Ends P Q (changeScopes change fault) := by
  intro s hs
  unfold changeScopes
  cases hchange : change s.scopes with
  | ok scopes => exact h _ _ hs hchange
  | error _ => exact ⟨hs, id⟩

theorem scoped_pure {a : α} (ha : R a) : Scoped P (pure a) R := ensures_pure ha

theorem scoped_throw (f : RuleFault) : Scoped P (throw (.ofRule f) : LineM α) R := ensures_throw fun _ hs => ⟨hs, id⟩

theorem scoped_ofCursor {m : CursorM α} (hm : Cursor.Inside m R) : Scoped P (liftM m) R :=
  ensures_ofCursor (fun _ _ _ hs hstep => ⟨(hm.of_ok trivial hstep).1, hs⟩) fun _ _ _ hs hstep =>
    ⟨hs, hm.of_error trivial hstep⟩

theorem scoped_ofRule (e : Except RuleFault α) : Scoped P (liftM e) Any :=
  ensures_ofRule (fun _ _ => trivial) fun _ _ _ hs => ⟨hs, id⟩

theorem scoped_ofSyntax {e : Except SyntaxFault α} (he : ∀ f, e = .error f → ¬ f.IsTrailing) :
    Scoped P (liftM e) Any :=
  ensures_ofSyntax (fun _ _ => trivial) fun f _ hf hs => ⟨hs, he f hf⟩

theorem scoped_unexpected {expected : Expected} (h : expected ≠ .endOfStatement) :
    Scoped P (unexpected expected : LineM α) R :=
  ensures_unexpected fun s _ _ hs => ⟨hs, Cursor.not_isTrailing_unexpected h s.cursor⟩

theorem scoped_expect (k : Category) : Scoped P (liftM (Cursor.expect k)) Any :=
  scoped_ofCursor (Cursor.require_inside [k] nofun)

theorem scoped_skip (k : Category) : Scoped P (discard (liftM (Cursor.expect k) : LineM Token)) Any :=
  (scoped_expect k).discard

theorem scoped_advanceIfAny (ks : List Category) : Scoped P (liftM (Cursor.advanceIfAny ks)) Any :=
  scoped_ofCursor (Cursor.takeIf_inside ks.contains)

theorem scoped_advanceIf (k : Category) : Scoped P (liftM (Cursor.advanceIf k)) Any :=
  scoped_ofCursor ((Cursor.takeIf_inside [k].contains).map fun _ _ => trivial)

/-! ### What is left -/

section Leaves

variable {m : LineM α} {f : α → LineM β} {s s' : LineState} {a : α} {c : ScopeChain} {fault : LineFault}

/-- The step leaves the scopes `c`, whether it fails or not. -/
def Leaves (m : LineM α) (s : LineState) (c : ScopeChain) : Prop :=
  match m s with
  | .ok _ s' => s'.scopes = c
  | .error _ s' => s'.scopes = c

theorem Leaves.of_error (hm : m.Leaves s c) (h : m s = .error fault s') : s'.scopes = c := by
  unfold Leaves at hm
  rwa [h] at hm

theorem leaves_of_scoped (hm : Scoped (· = c) m R) (hs : s.scopes = c) : m.Leaves s c := by
  unfold Leaves
  cases hstep : m s with
  | ok a s' => exact (hm.of_ok hs hstep).2
  | error fault s' => exact (hm.of_error hs hstep).1

/-- After a step that succeeds it matters what the next one leaves. -/
theorem leaves_bind_of_ok (h : m s = .ok a s') (hf : (f a).Leaves s' c) : (m >>= f).Leaves s c := by
  have hbind : (m >>= f) s = f a s' := by
    show EStateM.bind m f s = _
    rw [EStateM.bind, h]
  unfold Leaves
  rw [hbind]
  exact hf

/-- A step that fails is the last one. -/
theorem leaves_bind_of_error (h : m s = .error fault s') (hs' : s'.scopes = c) : (m >>= f).Leaves s c := by
  have hbind : (m >>= f) s = .error fault s' := by
    show EStateM.bind m f s = _
    rw [EStateM.bind, h]
  unfold Leaves
  rw [hbind]
  exact hs'

/-- What is left stays so if the next step does not change it. -/
theorem Leaves.bind (hm : m.Leaves s c) (hf : ∀ a s', s'.scopes = c → (f a).Leaves s' c) : (m >>= f).Leaves s c := by
  unfold Leaves at hm
  cases hstep : m s with
  | ok a s' =>
    rw [hstep] at hm
    exact leaves_bind_of_ok hstep (hf a s' hm)
  | error fault s' =>
    rw [hstep] at hm
    exact leaves_bind_of_error hstep hm

theorem leaves_ofCursor (m : CursorM α) (s : LineState) : (liftM m : LineM α).Leaves s s.scopes := by
  show Leaves (ofCursor m) s s.scopes
  unfold Leaves ofCursor
  cases m s.cursor <;> rfl

end Leaves

end LineM

/-! ## Rules that change nothing -/

namespace Grammar

open Cursor LineM Step

section Unchanged

variable {P Q : ScopeChain → Prop}

theorem upcomingValue_scoped : Scoped P upcomingValue Any := by
  refine ensures_get_bind fun s _ => ?_
  split
  · split
    · exact scoped_pure trivial
    · exact scoped_unexpected nofun
  · exact scoped_unexpected nofun

theorem value_scoped (type : ValueType) : Scoped P (value type) Any := by
  refine upcomingValue_scoped.bind fun t _ => (scoped_ofRule _).bind fun _ _ => ?_
  refine (scoped_skip _).bind fun _ _ => ensures_when fun _ => ?_
  exact ensures_get_bind fun s _ => scoped_ofRule _

/-- A final variable has the sign in front of its value. -/
theorem assignSign_scoped (isFinal : Bool) :
    Scoped P (assignSign isFinal) fun isInitialized => isFinal = true → isInitialized = true := by
  cases isFinal
  · exact (scoped_advanceIf _).weaken fun _ _ h => nomatch h
  · exact (scoped_expect _).map fun _ _ _ => rfl

theorem declaredType_scoped (first : Token) : Scoped P (declaredType first) Any := by
  have hkeyword : Scoped P (typeKeyword first) Any := by
    unfold typeKeyword
    split
    · exact scoped_ofCursor (require_inside _ nofun)
    · exact scoped_pure trivial
  refine hkeyword.bind fun keyword _ => ?_
  split
  · exact scoped_pure trivial
  · exact scoped_unexpected nofun

theorem operands_scoped (n : Nat) : Scoped P (operands n) Any := by
  induction n with
  | zero => exact scoped_pure trivial
  | succ n ih =>
    refine (value_scoped .boolean).bind fun _ _ => (scoped_advanceIfAny _).bind fun more _ => ?_
    exact ensures_when fun _ => ih

theorem conditional_scoped : Scoped P conditional Any := by
  refine (scoped_skip _).bind fun _ _ => ensures_get_bind fun s _ => ?_
  refine (operands_scoped _).bind fun _ _ => (scoped_skip _).bind fun _ _ => ?_
  exact scoped_skip _

theorem parameter_scoped (m : Method) : Scoped P (parameter m) Any := by
  refine (scoped_advanceIf _).bind fun isFinal _ => (scoped_advanceIfAny _).bind fun keyword _ => ?_
  split
  · exact ensures_get_bind fun s _ => scoped_throw _
  · refine (scoped_expect _).bind fun name _ => ?_
    split
    · exact scoped_pure trivial
    · exact scoped_throw _

theorem parameters_scoped (n : Nat) (m : Method) : Scoped P (parameters n m) Any := by
  induction n generalizing m with
  | zero => exact scoped_pure trivial
  | succ n ih =>
    refine (parameter_scoped m).bind fun m' _ => (scoped_advanceIf _).bind fun more _ => ?_
    cases more
    · exact scoped_pure trivial
    · exact ih m'

theorem parameterList_scoped : Scoped P parameterList Any := by
  refine (scoped_advanceIf _).bind fun none? _ => ?_
  cases none?
  · refine ensures_get_bind fun s _ => (parameters_scoped _ _).bind fun m _ => ?_
    exact (scoped_skip _).bind fun _ _ => scoped_pure trivial
  · exact scoped_pure trivial

theorem moreArguments_scoped (types : List ValueType) : Scoped P (moreArguments types) Any := by
  induction types with
  | nil => exact scoped_pure trivial
  | cons type types ih =>
    refine (scoped_skip _).bind fun _ _ => (value_scoped type).bind fun _ _ => ?_
    exact ih

theorem arguments_scoped (types : List ValueType) : Scoped P (arguments types) Any := by
  cases types with
  | nil => exact scoped_pure trivial
  | cons type types => exact (value_scoped type).bind fun _ _ => moreArguments_scoped types

theorem methodCall_scoped (name : Token) : Scoped P (methodCall name) Any := by
  refine ensures_get_bind fun s _ => (scoped_ofRule _).bind fun m _ => ?_
  refine (scoped_skip _).bind fun _ _ => (arguments_scoped m.parameterTypes).bind fun _ _ => ?_
  exact (scoped_skip _).bind fun _ _ => scoped_skip _

theorem requireMethodName_inside {name : Token} {f : SyntaxFault} (h : requireMethodName name = .error f) :
    ¬ f.IsTrailing := by
  unfold requireMethodName at h
  split at h
  · split at h <;> cases h
    exact id
  · cases h

/-! ## Rules that change something at their end -/

theorem declarator_ends (type : ValueType) (isFinal : Bool) (h : ∀ c c' name v, P c →
    (v.isFinal = true → v.isInitialized = true) → c.addVariable name v = .ok c' → Q c') :
    Ends P Q (declarator type isFinal) := by
  refine (scoped_expect _).bind_ends fun name _ => (assignSign_scoped isFinal).bind_ends fun isInitialized hsign => ?_
  refine Scoped.bind_ends (ensures_when fun _ => value_scoped type) fun _ _ => ends_changeScopes _ ?_
  exact fun c c' hc => h c c' name.name ⟨type, isFinal, isInitialized⟩ hc hsign

theorem assignment_ends (target : Token) (h : ∀ c, P c → Q (c.initializing target.name)) :
    Ends P Q (assignment target) := by
  refine ends_get_bind fun s _ => (scoped_ofRule _).bind_ends fun v _ => ?_
  refine (scoped_skip _).bind_ends fun _ _ => (scoped_ofRule _).bind_ends fun _ _ => ?_
  refine (value_scoped v.type).bind_ends fun _ _ => (scoped_skip _).bind_ends fun _ _ => ?_
  intro s hs
  exact h s.scopes hs

theorem methodDeclaration_ends (h : ∀ c c' name m, P c → c.addMethod name m = .ok c' → Q c') :
    Ends P Q methodDeclaration := by
  refine (scoped_expect _).bind_ends fun name _ => ?_
  refine (scoped_ofSyntax fun _ => requireMethodName_inside).bind_ends fun _ _ => ?_
  refine (scoped_skip _).bind_ends fun _ _ => parameterList_scoped.bind_ends fun m _ => ?_
  exact (scoped_skip _).bind_ends fun _ _ => ends_changeScopes _ fun c c' => h c c' name.name m

end Unchanged

end Grammar

/-! ## Properties that every change keeps -/

/-- The property of scopes is kept when a variable is declared, with a value if it is final, when a method is declared,
and when a variable is marked initialized. -/
structure ScopeChain.Stable (P : ScopeChain → Prop) : Prop where
  addVariable : ∀ c c' name v, P c → (v.isFinal = true → v.isInitialized = true) →
    c.addVariable name v = .ok c' → P c'
  addMethod : ∀ c c' name m, P c → c.addMethod name m = .ok c' → P c'
  initializing : ∀ c name, P c → P (c.initializing name)

namespace Grammar

open Cursor LineM Step

section Stable

variable {P : ScopeChain → Prop} (hP : ScopeChain.Stable P)

include hP

theorem declarators_scoped (type : ValueType) (isFinal : Bool) (n : Nat) :
    Scoped P (declarators type isFinal n) Any := by
  induction n with
  | zero => exact scoped_pure trivial
  | succ n ih =>
    refine (declarator_ends type isFinal hP.addVariable).scoped.bind fun _ _ => (scoped_advanceIf _).bind fun more _ => ?_
    exact ensures_when fun _ => ih

theorem variableDeclaration_scoped (first : Token) : Scoped P (variableDeclaration first) Any := by
  refine (declaredType_scoped first).bind fun type _ => ensures_get_bind fun s _ => ?_
  exact (declarators_scoped hP type _ _).bind fun _ _ => scoped_skip _

theorem form_scoped (first : Token) (kind : StatementKind) : Scoped P (form first kind) Any := by
  cases kind with
  | variableDeclaration => exact variableDeclaration_scoped hP first
  | returnStatement => exact scoped_skip _
  | conditional => exact conditional_scoped
  | methodDeclaration => exact (methodDeclaration_ends hP.addMethod).scoped
  | assignment => exact (assignment_ends first fun c => hP.initializing c first.name).scoped
  | methodCall => exact methodCall_scoped first
  | closeBlock => exact scoped_pure trivial

theorem statement_stable (first : Token) (kind : StatementKind) :
    Ensures (fun s => P s.scopes) (fun _ s => P s.scopes) (statement first kind) Any := by
  have hform : Ensures (fun s => P s.scopes) (fun _ s => P s.scopes) (form first kind) Any :=
    Ensures.weaken_error (form_scoped hP first kind) fun _ _ h => h.1
  exact hform.bind fun _ _ => ensures_ofCursor (fun _ _ _ hs _ => ⟨trivial, hs⟩) fun _ _ _ hs _ => hs

end Stable

end Grammar

/-- **Every line keeps what the three changes keep**, whether it is right or wrong. -/
theorem ScopeChain.Stable.checkLine {P : ScopeChain → Prop} (hP : Stable P) {c : ScopeChain} (hc : P c)
    (line : List Char) : P (c.checkLine line).2 := by
  unfold ScopeChain.checkLine
  split
  · exact hc
  · next cursor _ =>
    split
    · exact hc
    · exact hc
    · next first kind _ =>
      have hstatement := Grammar.statement_stable hP first kind
      split
      · next hrun => exact (hstatement.of_ok (s := ⟨c, cursor⟩) hc hrun).2
      · next hrun => exact hstatement.of_error (s := ⟨c, cursor⟩) hc hrun

end BlockCheck
