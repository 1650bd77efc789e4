import BlockCheck.Proofs.Line.Ensures
import BlockCheck.Proofs.Line.Forms
import BlockCheck.Proofs.Token.Places

/-!
# Where the faults of a line are

Whatever makes a line fail to be read is a fault of its syntax or of a rule, never one of the block structure, and its
place in the line shows what it names (`ScopeChain.checkLineAt_belongsTo`): the name that breaks a rule, the text that
is no token, the token that is out of place. The rules keep the cursor in the line, and every fault is made of a token
that the cursor holds or has held.
-/

namespace BlockCheck

open Text (Span)

/-! ## What faults name -/

/-- The name that breaks the rule. -/
def RuleFault.name? : RuleFault → Option String
  | .undeclaredVariable name _ | .undeclaredMethod name _ | .uninitializedVariable name _
  | .contravariantType name _ _ _ | .cannotAssignFinal name _ | .variableAlreadyDeclared name _
  | .methodAlreadyDeclared name _ | .duplicateParameter name _ => some name
  | .invalidAssignmentToken _ _ _ | .missingParameterType _ | .statementNotAllowed _ _ => none

namespace LineFault

/-- The text that the fault says to stand at its place. -/
def part? : LineFault → Option String
  | .ofSyntax f => f.part?
  | .ofRule f => f.name?
  | .ofBlock _ => none

/-- The category of the token that the fault says to stand at its place. -/
def category? : LineFault → Option Category
  | .ofSyntax f => f.category?
  | .ofRule (.invalidAssignmentToken found _ _) => some found
  | .ofRule _ | .ofBlock _ => none

/-- The fault is not one of the block structure. -/
def Local (f : LineFault) : Prop := ∀ b, f ≠ .ofBlock b

/-- The place of the fault, if it has one, shows what it names. -/
def PointsInto (line : List Char) (f : LineFault) : Prop :=
  ∀ span, f.span? = some span → span.Shows line f.part? f.category?

/-- The fault is one of the line alone, and points into it. -/
def BelongsTo (line : List Char) (f : LineFault) : Prop := f.Local ∧ f.PointsInto line

theorem belongsTo_ofSyntax {line : List Char} {f : SyntaxFault} (h : f.PointsInto line) :
    (ofSyntax f).BelongsTo line := ⟨nofun, h⟩

/-- A fault of a rule that names a name. -/
theorem belongsTo_ofRule_name {line : List Char} {name : Token} {f : RuleFault} (h : name.StandsIn line)
    (hname : name.category = .identifier) (hspan : f.span? = some name.span) (hpart : f.name? = some name.name)
    (hcategory : (ofRule f).category? = none) : (ofRule f).BelongsTo line := by
  refine ⟨nofun, fun span hs => ?_⟩
  cases hspan.symm.trans hs
  rw [hcategory]
  show name.span.Shows line f.name? none
  rw [hpart]
  exact h.shows_name hname

end LineFault

/-! ## Steps -/

namespace LineM

open Step

variable {α : Type} {line : List Char} {R : α → Prop}

/-- The step leaves the cursor in the line, gives a value with `R`, and fails only with faults that belong to the
line. -/
def Keeps (line : List Char) (m : LineM α) (R : α → Prop) : Prop :=
  Ensures (fun s => s.cursor.StandsIn line) (fun f _ => f.BelongsTo line) m R

theorem keeps_ofCursor {m : CursorM α} (hm : Cursor.Keeps line m R) : Keeps line (liftM m) R :=
  ensures_ofCursor (fun _ _ _ hs hstep => hm.of_ok hs hstep) fun _ _ _ hs hstep =>
    LineFault.belongsTo_ofSyntax (hm.of_error hs hstep)

theorem keeps_ofRule {e : Except RuleFault α} (he : ∀ f, e = .error f → (LineFault.ofRule f).BelongsTo line) :
    Keeps line (liftM e) fun _ => True :=
  ensures_ofRule (fun _ _ => trivial) fun f _ hf _ => he f hf

theorem keeps_unexpected (expected : Expected) : Keeps line (unexpected expected : LineM α) R :=
  ensures_unexpected fun _ hs _ _ => LineFault.belongsTo_ofSyntax (hs.unexpected expected)

theorem keeps_changeScopes {change : ScopeChain → Except SymbolFault ScopeChain} {fault : RuleFault}
    (h : (LineFault.ofRule fault).BelongsTo line) : Keeps line (changeScopes change fault) fun _ => True :=
  ensures_changeScopes (fun _ _ hs _ => hs) fun _ _ => h

theorem keeps_expect (k : Category) :
    Keeps line (liftM (Cursor.expect k)) fun t => t.StandsIn line ∧ t.category = k :=
  (keeps_ofCursor (Cursor.require_keeps [k] _)).weaken fun _ ht => ⟨ht.1, List.mem_singleton.1 ht.2⟩

theorem keeps_skip (k : Category) : Keeps line (discard (liftM (Cursor.expect k) : LineM Token)) fun _ => True :=
  (keeps_expect k).discard

theorem keeps_advanceIfAny (ks : List Category) : Keeps line (liftM (Cursor.advanceIfAny ks)) fun _ => True :=
  keeps_ofCursor ((Cursor.takeIf_keeps ks.contains).weaken fun _ _ => trivial)

theorem keeps_advanceIf (k : Category) : Keeps line (liftM (Cursor.advanceIf k)) fun _ => True :=
  keeps_ofCursor ((Cursor.takeIf_keeps _).map fun _ _ => trivial)

end LineM

/-! ## The rules of use -/

namespace ScopeChain

variable {c : ScopeChain} {line : List Char} {name : Token} {f : RuleFault}

theorem belongsTo_requireDeclared (h : name.StandsIn line) (hname : name.category = .identifier)
    (hf : c.requireDeclared name = .error f) : (LineFault.ofRule f).BelongsTo line := by
  unfold requireDeclared at hf
  split at hf
  · cases hf
  · cases hf
    exact LineFault.belongsTo_ofRule_name h hname rfl rfl rfl

theorem belongsTo_requireMethod (h : name.StandsIn line) (hname : name.category = .identifier)
    (hf : c.requireMethod name = .error f) : (LineFault.ofRule f).BelongsTo line := by
  unfold requireMethod at hf
  split at hf
  · cases hf
  · cases hf
    exact LineFault.belongsTo_ofRule_name h hname rfl rfl rfl

theorem belongsTo_requireUsable {expected : ValueType} (h : name.StandsIn line) (hname : name.category = .identifier)
    (hf : c.requireUsable expected name = .error f) : (LineFault.ofRule f).BelongsTo line := by
  unfold requireUsable at hf
  cases hdeclared : c.requireDeclared name with
  | error f' =>
    rw [hdeclared] at hf
    cases hf
    exact belongsTo_requireDeclared h hname hdeclared
  | ok v =>
    rw [hdeclared] at hf
    have hf : (if !v.isInitialized then _ else if v.type ∉ expected.sources then _ else _) = Except.error f := hf
    split at hf
    · cases hf
      exact LineFault.belongsTo_ofRule_name h hname rfl rfl rfl
    · split at hf
      · cases hf
        exact LineFault.belongsTo_ofRule_name h hname rfl rfl rfl
      · cases hf

end ScopeChain

/-! ## Statement forms -/

namespace Grammar

open Cursor LineM Step

variable {line : List Char}

theorem upcomingValue_keeps : Keeps line upcomingValue fun t => t.StandsIn line := by
  refine ensures_get_bind fun s hs => ?_
  split
  · next t hnext =>
    split
    · exact ensures_pure (hs.2.1 t hnext)
    · exact keeps_unexpected _
  · exact keeps_unexpected _

theorem requireAssignable_keeps {t : Token} (ht : t.StandsIn line) (type : ValueType) :
    Keeps line (liftM (type.requireAssignable t)) fun _ => True := by
  refine keeps_ofRule fun f hf => ?_
  unfold ValueType.requireAssignable at hf
  split at hf
  · cases hf
  · cases hf
    refine ⟨nofun, ?_⟩
    rintro span ⟨⟩
    exact ht.shows_category

theorem value_keeps (type : ValueType) : Keeps line (value type) fun _ => True := by
  refine upcomingValue_keeps.bind fun t ht => (requireAssignable_keeps ht type).bind fun _ _ => ?_
  refine (keeps_skip t.category).bind fun _ _ => ensures_when fun hname => ensures_get_bind fun s _ => ?_
  exact keeps_ofRule fun f hf => ScopeChain.belongsTo_requireUsable ht (of_decide_eq_true hname) hf

theorem declarator_keeps (type : ValueType) (isFinal : Bool) : Keeps line (declarator type isFinal) fun _ => True := by
  have hsign : Keeps line (assignSign isFinal) fun _ => True := by
    cases isFinal
    · exact keeps_advanceIf .assign
    · exact (keeps_expect .assign).map fun _ _ => trivial
  refine (keeps_expect .identifier).bind fun name hname => hsign.bind fun isInitialized _ => ?_
  refine (ensures_when fun _ => value_keeps type).bind fun _ _ => keeps_changeScopes ?_
  exact LineFault.belongsTo_ofRule_name hname.1 hname.2 rfl rfl rfl

theorem declarators_keeps (type : ValueType) (isFinal : Bool) (n : Nat) :
    Keeps line (declarators type isFinal n) fun _ => True := by
  induction n with
  | zero => exact ensures_pure trivial
  | succ n ih =>
    refine (declarator_keeps type isFinal).bind fun _ _ => (keeps_advanceIf .comma).bind fun more _ => ?_
    exact ensures_when fun _ => ih

theorem variableDeclaration_keeps (first : Token) : Keeps line (variableDeclaration first) fun _ => True := by
  have hkeyword : Keeps line (typeKeyword first) fun _ => True := by
    unfold typeKeyword
    split
    · exact (keeps_ofCursor (require_keeps _ _)).weaken fun _ _ => trivial
    · exact ensures_pure trivial
  have htype : Keeps line (declaredType first) fun _ => True := by
    refine hkeyword.bind fun keyword _ => ?_
    split
    · exact ensures_pure trivial
    · exact keeps_unexpected _
  refine htype.bind fun type _ => ensures_get_bind fun s _ => ?_
  exact (declarators_keeps type _ _).bind fun _ _ => keeps_skip .semicolon

theorem assignment_keeps {target : Token} (ht : target.StandsIn line) (hname : target.category = .identifier) :
    Keeps line (assignment target) fun _ => True := by
  refine ensures_get_bind fun s _ => ?_
  refine (keeps_ofRule fun f hf => ScopeChain.belongsTo_requireDeclared ht hname hf).bind fun v _ => ?_
  refine (keeps_skip .assign).bind fun _ _ => (keeps_ofRule fun f hf => ?_).bind fun _ _ => ?_
  · unfold Variable.requireNonFinal at hf
    split at hf
    · cases hf
      exact LineFault.belongsTo_ofRule_name ht hname rfl rfl rfl
    · cases hf
  · exact (value_keeps v.type).bind fun _ _ => (keeps_skip .semicolon).bind fun _ _ => fun s hs => ⟨trivial, hs⟩

theorem operands_keeps (n : Nat) : Keeps line (operands n) fun _ => True := by
  induction n with
  | zero => exact ensures_pure trivial
  | succ n ih =>
    refine (value_keeps .boolean).bind fun _ _ => (keeps_advanceIfAny _).bind fun more _ => ?_
    exact ensures_when fun _ => ih

theorem conditional_keeps : Keeps line conditional fun _ => True := by
  refine (keeps_skip .lparen).bind fun _ _ => ensures_get_bind fun s _ => ?_
  exact (operands_keeps _).bind fun _ _ => (keeps_skip .rparen).bind fun _ _ => keeps_skip .lbrace

theorem parameter_keeps (m : Method) : Keeps line (parameter m) fun _ => True := by
  refine (keeps_advanceIf .kwFinal).bind fun isFinal _ => (keeps_advanceIfAny _).bind fun keyword _ => ?_
  split
  · refine ensures_get_bind fun s hs => ensures_throw fun _ _ => ⟨nofun, fun span hspan => ?_⟩
    obtain ⟨t, ht, rfl⟩ := Option.map_eq_some_iff.1 hspan
    exact (hs.2.1 t ht).shows_category.weaken nofun nofun
  · refine (keeps_expect .identifier).bind fun name hname => ?_
    split
    · exact ensures_pure trivial
    · exact ensures_throw fun _ _ => LineFault.belongsTo_ofRule_name hname.1 hname.2 rfl rfl rfl

theorem parameters_keeps (n : Nat) (m : Method) : Keeps line (parameters n m) fun _ => True := by
  induction n generalizing m with
  | zero => exact ensures_pure trivial
  | succ n ih =>
    refine (parameter_keeps m).bind fun m' _ => (keeps_advanceIf .comma).bind fun more _ => ?_
    cases more
    · exact ensures_pure trivial
    · exact ih m'

theorem parameterList_keeps : Keeps line parameterList fun _ => True := by
  refine (keeps_advanceIf .rparen).bind fun none? _ => ?_
  cases none?
  · refine ensures_get_bind fun s _ => (parameters_keeps _ _).bind fun m _ => ?_
    exact (keeps_skip .rparen).bind fun _ _ => ensures_pure trivial
  · exact ensures_pure trivial

/-- A name that a method may not have is shown as text that is no token. -/
theorem requireMethodName_keeps {name : Token} (h : name.StandsIn line) (hname : name.category = .identifier) :
    Keeps line (liftM (requireMethodName name)) fun _ => True := by
  refine ensures_ofSyntax (fun _ _ => trivial) fun f s hf _ => LineFault.belongsTo_ofSyntax ?_
  unfold requireMethodName at hf
  split at hf
  · next text htext =>
    split at hf
    · cases hf
      rintro span ⟨⟩
      have hshows := h.shows_name hname
      rw [Token.name, htext] at hshows
      exact hshows
    · cases hf
  · cases hf

theorem methodDeclaration_keeps : Keeps line methodDeclaration fun _ => True := by
  refine (keeps_expect .identifier).bind fun name hname => ?_
  refine (requireMethodName_keeps hname.1 hname.2).bind fun _ _ => (keeps_skip .lparen).bind fun _ _ => ?_
  refine parameterList_keeps.bind fun m _ => (keeps_skip .lbrace).bind fun _ _ => keeps_changeScopes ?_
  exact LineFault.belongsTo_ofRule_name hname.1 hname.2 rfl rfl rfl

theorem moreArguments_keeps (types : List ValueType) : Keeps line (moreArguments types) fun _ => True := by
  induction types with
  | nil => exact ensures_pure trivial
  | cons type types ih => exact (keeps_skip .comma).bind fun _ _ => (value_keeps type).bind fun _ _ => ih

theorem methodCall_keeps {name : Token} (h : name.StandsIn line) (hname : name.category = .identifier) :
    Keeps line (methodCall name) fun _ => True := by
  have harguments : ∀ types, Keeps line (arguments types) fun _ => True
    | [] => ensures_pure trivial
    | type :: types => (value_keeps type).bind fun _ _ => moreArguments_keeps types
  refine ensures_get_bind fun s _ => ?_
  refine (keeps_ofRule fun f hf => ScopeChain.belongsTo_requireMethod h hname hf).bind fun m _ => ?_
  refine (keeps_skip .lparen).bind fun _ _ => (harguments m.parameterTypes).bind fun _ _ => ?_
  exact (keeps_skip .rparen).bind fun _ _ => keeps_skip .semicolon

theorem statement_keeps {first : Token} {kind : StatementKind} (h : first.StandsIn line)
    (hkind : kind.starts first.category) : Keeps line (statement first kind) fun _ => True := by
  have hform : Keeps line (form first kind) fun _ => True := by
    cases kind with
    | variableDeclaration => exact variableDeclaration_keeps first
    | returnStatement => exact keeps_skip .semicolon
    | conditional => exact conditional_keeps
    | methodDeclaration => exact methodDeclaration_keeps
    | assignment => exact assignment_keeps h hkind
    | methodCall => exact methodCall_keeps h hkind
    | closeBlock => exact ensures_pure trivial
  exact hform.bind fun _ _ => keeps_ofCursor finish_keeps

end Grammar

/-! ## Lines -/

namespace Cursor.StandsIn

variable {line : List Char} {c : Cursor}

/-- A line that does not start as a statement does is at fault in its first token. -/
theorem pointsInto_beginning {f : SyntaxFault} (h : c.StandsIn line) (hf : c.beginning = .error f) :
    f.PointsInto line := by
  unfold beginning StatementKind.classify at hf
  cases hfirst : c.current with
  | none => rw [hfirst] at hf; cases hf
  | some first =>
    rw [hfirst] at hf
    cases hkind : StatementKind.ofCategories? first.category (c.next.map Token.category) with
    | some kind => simp only [hkind] at hf; cases hf
    | none =>
      simp only [hkind] at hf
      cases hf
      rintro span ⟨⟩
      exact (h.1 first hfirst).shows_category

theorem starts_of_beginning {first : Token} {kind : StatementKind} (h : c.StandsIn line)
    (hb : c.beginning = .ok (some (first, kind))) : first.StandsIn line ∧ kind.starts first.category := by
  unfold beginning StatementKind.classify at hb
  cases hfirst : c.current with
  | none => rw [hfirst] at hb; cases hb
  | some t =>
    rw [hfirst] at hb
    cases hkind : StatementKind.ofCategories? t.category (c.next.map Token.category) with
    | none => simp only [hkind] at hb; cases hb
    | some kind' =>
      simp only [hkind] at hb
      cases hb
      exact ⟨h.1 first hfirst, StatementKind.first_of_ofCategories? hkind⟩

end Cursor.StandsIn

namespace ScopeChain

variable {c : ScopeChain} {placement : Placement} {line : List Char} {f : LineFault}

theorem checkLine_belongsTo (h : (c.checkLine line).1 = .error f) : f.BelongsTo line := by
  unfold checkLine at h
  split at h
  · next f' hcursor =>
    cases h
    exact LineFault.belongsTo_ofSyntax (Cursor.pointsInto_ofLine hcursor)
  · next cursor hcursor =>
    have hstands := Cursor.standsIn_ofLine hcursor
    split at h
    · next f' hbeginning =>
      cases h
      exact LineFault.belongsTo_ofSyntax (hstands.pointsInto_beginning hbeginning)
    · cases h
    · next first kind hbeginning =>
      split at h
      · cases h
      · next e s hs =>
        cases h
        obtain ⟨hfirst, hkind⟩ := hstands.starts_of_beginning hbeginning
        exact (Grammar.statement_keeps hfirst hkind).of_error (s := ⟨c, cursor⟩) hstands hs

/-- **A fault of a line belongs to it**, wherever the line stands in a program. -/
theorem checkLineAt_belongsTo (h : c.checkLineAt placement line = .error f) : f.BelongsTo line := by
  unfold checkLineAt at h
  split at h
  · next e c' hline =>
    cases h
    exact checkLine_belongsTo (congrArg Prod.fst hline)
  · cases h
  · split at h
    · next f' hallowed =>
      cases h
      unfold StatementKind.requireAllowed at hallowed
      split at hallowed
      · cases hallowed
      · cases hallowed
        exact ⟨nofun, nofun⟩
    · cases h

end ScopeChain

end BlockCheck
