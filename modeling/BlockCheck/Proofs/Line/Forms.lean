import BlockCheck.Proofs.Line.Rules

/-!
# The statement forms

Each form reads the tokens of its statement after the first one. A form that succeeds has read a statement of its
kind, which is legal in the scopes, and leaves the scopes as the statement makes them (`form_ok`); for a legal
statement whose tokens are ahead, alone on the line, the form succeeds (`form_yields`).
-/

namespace BlockCheck

open Step

theorem Separated.length_le {α : Type} {separators : List Category} {Item : α → List Token → Prop} {as : List α}
    {ts : List Token} (hitem : ∀ a ts, Item a ts → 0 < ts.length) (h : Separated separators Item as ts) :
    as.length ≤ ts.length := by
  induction h with
  | one h => exact hitem _ _ h
  | more h _ _ ih =>
    have := hitem _ _ h
    simp only [List.length_cons, List.length_append]
    omega

/-- What the first token of every item is, the first token of a list of items is. -/
theorem Separated.head {α : Type} {separators : List Category} {Item : α → List Token → Prop} {P : Token → Prop}
    {as : List α} {ts : List Token} (hitem : ∀ a ts, Item a ts → ∃ t us, ts = t :: us ∧ P t)
    (h : Separated separators Item as ts) : ∃ t us, ts = t :: us ∧ P t := by
  cases h with
  | one h => exact hitem _ _ h
  | @more _ _ sep _ vs h _ _ =>
    obtain ⟨t, us, rfl, ht⟩ := hitem _ _ h
    exact ⟨t, us ++ sep :: vs, rfl, ht⟩

theorem Declarator.Written.length_pos {d : Declarator} {ts : List Token} (h : d.Written ts) : 0 < ts.length := by
  cases h <;> exact Nat.succ_pos _

theorem Parameter.Written.length_pos {p : Parameter} {ts : List Token} (h : p.Written ts) : 0 < ts.length := by
  cases h <;> exact Nat.succ_pos _

/-- A parameter starts with a keyword, so no parenthesis starts one. -/
theorem Parameter.Written.head {p : Parameter} {ts : List Token} (h : p.Written ts) :
    ∃ t us, ts = t :: us ∧ t.category ∉ [Category.rparen] := by
  cases h with
  | @plain type keyword name hkeyword _ =>
    refine ⟨keyword, [name], rfl, ?_⟩
    rw [hkeyword]
    cases type <;> decide
  | @final type first keyword name hfirst _ _ =>
    refine ⟨first, [keyword, name], rfl, ?_⟩
    rw [hfirst]
    decide

theorem Token.Written.length_pos {t : Token} {ts : List Token} (h : t.Written ts) : 0 < ts.length := by
  cases h; exact Nat.succ_pos _

/-- The categories that may start a statement of the kind. -/
def StatementKind.starts : StatementKind → Category → Prop
  | .variableDeclaration, k => k = .kwFinal ∨ k ∈ ValueType.keywords
  | .returnStatement, k => k = .kwReturn
  | .conditional, k => k ∈ [Category.kwIf, .kwWhile]
  | .methodDeclaration, k => k = .kwVoid
  | .assignment, k | .methodCall, k => k = .identifier
  | .closeBlock, k => k = .rbrace

theorem StatementKind.first_of_ofCategories? {kind : StatementKind} {k : Category} {second : Option Category}
    (h : ofCategories? k second = some kind) : kind.starts k := by
  unfold ofCategories? at h
  split at h <;> cases h <;> simp [StatementKind.starts, ValueType.keywords, ValueType.all, ValueType.keyword]

namespace Grammar

open Cursor LineM

/-- So many items can be read within the bound as tokens are ahead. -/
theorem length_le_bound {s : LineState} {n : Nat} {ts : List Token} {r : Reading} (h : s.ahead = ts ++ r)
    (hn : n ≤ ts.length) : n ≤ s.cursor.bound := by
  have hb : s.ahead.tokens.length < s.cursor.bound := s.cursor.length_ahead_lt_bound
  rw [h, Reading.tokens_append, List.length_append] at hb
  omega

section Forms

variable {s s' : LineState} {first : Token} {ts : List Token} {r : Reading} {u : Unit} {type : ValueType}

/-! ## Declarations -/

theorem declaredType_ok (h : declaredType first s = .ok type s') : s'.scopes = s.scopes ∧
    (first.category = .kwFinal ∧ (∃ keyword, keyword.category = type.keyword ∧ s.ahead = s'.ahead.cons keyword) ∨
      first.category ≠ .kwFinal ∧ first.category = type.keyword ∧ s'.ahead = s.ahead) := by
  obtain ⟨keyword, s₁, h₁, k₁⟩ := bind_ok h
  cases htype : ValueType.ofKeyword? keyword.category with
  | none => rw [htype] at k₁; cases k₁
  | some type' =>
    rw [htype] at k₁
    obtain ⟨rfl, rfl⟩ := pure_ok k₁
    have hkeyword := ValueType.ofKeyword?_eq_some_iff.1 htype
    unfold typeKeyword at h₁
    split at h₁
    · next hfinal =>
      obtain ⟨-, ha, hc⟩ := require_ok h₁
      exact ⟨hc, .inl ⟨hfinal, keyword, hkeyword, ha⟩⟩
    · next hfinal =>
      obtain ⟨rfl, rfl⟩ := pure_ok h₁
      exact ⟨rfl, .inr ⟨hfinal, hkeyword, rfl⟩⟩

theorem variableDeclaration_ok (h : variableDeclaration first s = .ok u s') :
    ∃ isFinal type ds ts, (StatementTree.variableDeclaration isFinal type ds).Written (first :: ts) ∧
      s.ahead = ts ++ s'.ahead ∧ s.scopes.Declarable isFinal type ds ∧
      s'.scopes = s.scopes.declaring isFinal type ds := by
  obtain ⟨type, s₁, h₁, k₁⟩ := bind_ok h
  obtain ⟨_, s₂, h₂, k₂⟩ := bind_ok (get_bind_ok k₁)
  obtain ⟨ds, ts, hw, ha₂, hvalues, hlegal, hc₂⟩ := declarators_ok h₂ s₁.cursor.length_ahead_lt_bound
  obtain ⟨stop, hstop, ha₃, hc₃⟩ := discard_expect_ok k₂
  obtain ⟨hc₁, ⟨hfinal, keyword, hkeyword, ha₁⟩ | ⟨hfinal, hkeyword, ha₁⟩⟩ := declaredType_ok h₁
  · rw [decide_eq_true hfinal, hc₁] at hlegal hc₂
    have hwritten := StatementTree.Written.finalDeclaration hfinal hkeyword hw (hvalues (decide_eq_true hfinal)) hstop
    refine ⟨true, type, ds, keyword :: (ts ++ [stop]), hwritten, ?_, hlegal, hc₃.trans hc₂⟩
    rw [ha₁, ha₂, ha₃, Reading.cons_append, Reading.append_assoc]
    rfl
  · rw [decide_eq_false hfinal, hc₁] at hlegal hc₂
    have hwritten := StatementTree.Written.variableDeclaration hkeyword hw hstop
    refine ⟨false, type, ds, ts ++ [stop], hwritten, ?_, hlegal, hc₃.trans hc₂⟩
    rw [← ha₁, ha₂, ha₃, Reading.append_assoc]
    rfl

/-- The declarators and the semicolon, when the type is known. -/
theorem declarators_stop_yields {isFinal : Bool} {ds : List Declarator} {stop : Token}
    (hw : Separated [.comma] Declarator.Written ds ts) (hvalues : isFinal = true → ∀ d ∈ ds, d.value.isSome = true)
    (hstop : stop.category = .semicolon) (h : s.ahead = (ts ++ [stop]) ++ r)
    (hlegal : s.scopes.Declarable isFinal type ds) (hr : r.Clear) :
    (do
      declarators type isFinal s.cursor.bound
      discard (liftM (expect .semicolon)) : LineM Unit).Yields s () (s.scopes.declaring isFinal type ds) r := by
  simp only [Reading.append_assoc, Reading.cons_append, Reading.nil_append] at h
  have hbound := length_le_bound h (hw.length_le fun _ _ => Declarator.Written.length_pos)
  have hassign : (r.cons stop).Lacks [.assign] := Reading.lacks_cons (by rw [hstop]; decide) _
  have hcomma : (r.cons stop).Lacks [.comma] := Reading.lacks_cons (by rw [hstop]; decide) _
  have hlist := declarators_yields hw h hvalues hlegal hbound (Reading.clear_cons _ _) hassign hcomma
  refine Yields.bind hlist fun s₁ hc₁ ha₁ => ?_
  have hsemicolon := (expect_yields ha₁ hstop hr).discard
  rwa [hc₁] at hsemicolon

theorem declaredType_yields_plain (hkeyword : first.category = type.keyword) :
    (declaredType first).Yields s type s.scopes s.ahead := by
  have hnot : first.category ≠ .kwFinal := by rw [hkeyword]; cases type <;> decide
  unfold declaredType typeKeyword
  rw [if_neg hnot]
  refine Yields.bind (yields_pure first rfl rfl) fun s₁ hc₁ ha₁ => ?_
  rw [ValueType.ofKeyword?_eq_some_iff.2 hkeyword]
  exact yields_pure type hc₁ ha₁

theorem declaredType_yields_final {keyword : Token} (hfinal : first.category = .kwFinal)
    (hkeyword : keyword.category = type.keyword) (h : s.ahead = r.cons keyword) (hr : r.Clear) :
    (declaredType first).Yields s type s.scopes r := by
  unfold declaredType typeKeyword
  rw [if_pos hfinal]
  have htake : (liftM (expectOneOf ValueType.keywords) : LineM Token).Yields s keyword s.scopes r :=
    require_yields h (mem_keywords hkeyword) hr
  refine Yields.bind htake fun s₁ hc₁ ha₁ => ?_
  rw [ValueType.ofKeyword?_eq_some_iff.2 hkeyword]
  exact yields_pure type hc₁ ha₁

theorem variableDeclaration_yields {isFinal : Bool} {ds : List Declarator}
    (hw : (StatementTree.variableDeclaration isFinal type ds).Written (first :: ts)) (h : s.ahead = ts ++ r)
    (hlegal : s.scopes.Declarable isFinal type ds) (hr : r.Clear) :
    (variableDeclaration first).Yields s () (s.scopes.declaring isFinal type ds) r := by
  cases hw with
  | variableDeclaration hkeyword hw hstop =>
    have hnot : first.category ≠ .kwFinal := by rw [hkeyword]; cases type <;> decide
    refine Yields.bind (declaredType_yields_plain hkeyword) fun s₁ hc₁ ha₁ => yields_get_bind ?_
    rw [decide_eq_false hnot, ← hc₁]
    exact declarators_stop_yields hw (fun h => by cases h) hstop (ha₁.trans h) (hc₁ ▸ hlegal) hr
  | @finalDeclaration _ _ _ keyword stop ts hfinal hkeyword hw hvalues hstop =>
    rw [Reading.cons_append] at h
    have htype := declaredType_yields_final hfinal hkeyword h (hr.append _)
    refine Yields.bind htype fun s₁ hc₁ ha₁ => yields_get_bind ?_
    rw [decide_eq_true hfinal, ← hc₁]
    exact declarators_stop_yields hw (fun _ => hvalues) hstop ha₁ (hc₁ ▸ hlegal) hr

/-! ## Assignments -/

theorem requireNonFinal_eq_ok {v : Variable} {name : Token} :
    v.requireNonFinal name = .ok () ↔ v.isFinal = false := by
  unfold Variable.requireNonFinal
  cases v.isFinal <;> simp

theorem assignment_ok (hfirst : first.category = .identifier) (h : assignment first s = .ok u s') :
    ∃ value ts, (StatementTree.assignment first value).Written (first :: ts) ∧ s.ahead = ts ++ s'.ahead ∧
      (StatementTree.assignment first value).Legal s.scopes ∧ s'.scopes = s.scopes.initializing first.name := by
  obtain ⟨v, s₁, h₁, k₁⟩ := bind_ok (get_bind_ok h)
  obtain ⟨hdeclared, rfl⟩ := ofRule_ok h₁
  obtain ⟨_, s₂, h₂, k₂⟩ := bind_ok k₁
  obtain ⟨sign, hsign, ha₂, hc₂⟩ := discard_expect_ok h₂
  obtain ⟨_, s₃, h₃, k₃⟩ := bind_ok k₂
  obtain ⟨hfinal, rfl⟩ := ofRule_ok h₃
  obtain ⟨_, s₄, h₄, k₄⟩ := bind_ok k₃
  obtain ⟨value, hfit, ha₄, hc₄⟩ := value_ok h₄
  obtain ⟨_, s₅, h₅, k₅⟩ := bind_ok k₄
  obtain ⟨stop, hstop, ha₅, hc₅⟩ := discard_expect_ok h₅
  cases k₅
  refine ⟨value, [sign, value, stop], .assignment hfirst hsign hstop, ?_,
    ⟨v, ScopeChain.requireDeclared_eq_ok.1 hdeclared, requireNonFinal_eq_ok.1 hfinal, hc₂ ▸ hfit⟩, ?_⟩
  · rw [ha₂, ha₄, ha₅]
    rfl
  · show s₅.scopes.initializing first.name = _
    rw [hc₅, hc₄, hc₂]

theorem assignment_yields {value : Token} (hw : (StatementTree.assignment first value).Written (first :: ts))
    (h : s.ahead = ts ++ r) (hlegal : (StatementTree.assignment first value).Legal s.scopes) (hr : r.Clear) :
    (assignment first).Yields s () (s.scopes.initializing first.name) r := by
  cases hw with
  | @assignment _ sign _ stop _ hsign hstop =>
    obtain ⟨v, hv, hfinal, hfit⟩ := hlegal
    simp only [Reading.cons_append, Reading.nil_append] at h
    have hdeclared := ScopeChain.requireDeclared_eq_ok.2 hv
    refine yields_get_bind (Yields.bind (ofRule_yields hdeclared) fun s₁ hc₁ ha₁ => ?_)
    refine Yields.bind (expect_yields (ha₁.trans h) hsign (Reading.clear_cons _ _)).discard fun s₂ hc₂ ha₂ => ?_
    refine Yields.bind (ofRule_yields (requireNonFinal_eq_ok.2 hfinal)) fun s₃ hc₃ ha₃ => ?_
    have hc : s₃.scopes = s.scopes := by rw [hc₃, hc₂, hc₁]
    refine Yields.bind (value_yields (hc ▸ hfit) (ha₃.trans ha₂) (Reading.clear_cons _ _)) fun s₄ hc₄ ha₄ => ?_
    refine Yields.bind (expect_yields ha₄ hstop hr).discard fun s₅ hc₅ ha₅ => ?_
    exact ⟨_, rfl, congrArg _ (hc₅.trans (hc₄.trans hc)), ha₅⟩

/-! ## Blocks -/

theorem conditional_ok (hfirst : first.category ∈ [Category.kwIf, .kwWhile]) (h : conditional s = .ok u s') :
    ∃ operands ts, (StatementTree.conditional operands).Written (first :: ts) ∧ s.ahead = ts ++ s'.ahead ∧
      (StatementTree.conditional operands).Legal s.scopes ∧ s'.scopes = s.scopes := by
  obtain ⟨_, s₁, h₁, k₁⟩ := bind_ok h
  obtain ⟨left, hleft, ha₁, hc₁⟩ := discard_expect_ok h₁
  obtain ⟨_, s₂, h₂, k₂⟩ := bind_ok (get_bind_ok k₁)
  obtain ⟨vs, ts, hw, ha₂, hfits, hc₂⟩ := operands_ok h₂ s₁.cursor.length_ahead_lt_bound
  obtain ⟨_, s₃, h₃, k₃⟩ := bind_ok k₂
  obtain ⟨right, hright, ha₃, hc₃⟩ := discard_expect_ok h₃
  obtain ⟨brace, hbrace, ha₄, hc₄⟩ := discard_expect_ok k₃
  refine ⟨vs, left :: (ts ++ [right, brace]), .conditional hfirst hleft hw hright hbrace, ?_,
    fun v hv => hc₁ ▸ hfits v hv, by rw [hc₄, hc₃, hc₂, hc₁]⟩
  rw [ha₁, ha₂, ha₃, ha₄, Reading.cons_append, Reading.append_assoc]
  rfl

theorem conditional_yields {operands : List Token}
    (hw : (StatementTree.conditional operands).Written (first :: ts)) (h : s.ahead = ts ++ r)
    (hlegal : (StatementTree.conditional operands).Legal s.scopes) (hr : r.Clear) :
    conditional.Yields s () s.scopes r := by
  cases hw with
  | @conditional _ _ left right brace ts _ hleft hw hright hbrace =>
    simp only [Reading.append_assoc, Reading.cons_append, Reading.nil_append] at h
    refine Yields.bind (expect_yields h hleft (Reading.Clear.append (Reading.clear_cons _ _) ts)).discard
      fun s₁ hc₁ ha₁ => yields_get_bind ?_
    have hbound := length_le_bound ha₁ (hw.length_le fun _ _ => Token.Written.length_pos)
    have hfollow : ((r.cons brace).cons right).Lacks [.andAnd, .orOr] :=
      Reading.lacks_cons (by rw [hright]; decide) _
    have hlist := operands_yields hw ha₁ (fun v hv => hc₁ ▸ hlegal v hv) hbound (Reading.clear_cons _ _) hfollow
    refine Yields.bind hlist fun s₂ hc₂ ha₂ => ?_
    refine Yields.bind (expect_yields ha₂ hright (Reading.clear_cons _ _)).discard fun s₃ hc₃ ha₃ => ?_
    have hlast := (expect_yields ha₃ hbrace hr).discard
    rwa [hc₃, hc₂, hc₁] at hlast

/-! ## Methods -/

theorem requireMethodName_eq_ok {name : Token} :
    requireMethodName name = .ok () ↔ name.name.toList.head? ≠ some '_' := by
  unfold requireMethodName Token.name
  cases name.text with
  | none => simp
  | some text =>
    by_cases h : text.toList.head? = some '_' <;> simp [h]

theorem parameterList_ok {m : Method} (h : parameterList s = .ok m s') :
    ∃ ps ts right, Listed Parameter.Written ps ts ∧ right.category = Category.rparen ∧
      s.ahead = (ts ++ [right]) ++ s'.ahead ∧ NewParameters {} ps ∧ m = ⟨⟨ps.map Parameter.entry⟩⟩ ∧
      s'.scopes = s.scopes := by
  obtain ⟨none?, s₁, h₁, k₁⟩ := bind_ok h
  cases none? with
  | true =>
    obtain ⟨rfl, rfl⟩ := pure_ok k₁
    obtain ⟨right, hright, ha₁, hc₁⟩ := advanceIf_true h₁
    exact ⟨[], [], right, .inl ⟨rfl, rfl⟩, hright, ha₁, ⟨List.nodup_nil, fun _ h => (nomatch h)⟩, rfl, hc₁⟩
  | false =>
    obtain ⟨ha₁, hc₁⟩ := advanceIf_false h₁
    obtain ⟨m₂, s₂, h₂, k₂⟩ := bind_ok (get_bind_ok k₁)
    obtain ⟨ps, ts, hw, ha₂, hnew, rfl, hc₂⟩ := parameters_ok h₂ s₁.cursor.length_ahead_lt_bound
    obtain ⟨_, s₃, h₃, k₃⟩ := bind_ok k₂
    obtain ⟨right, hright, ha₃, hc₃⟩ := discard_expect_ok h₃
    obtain ⟨rfl, rfl⟩ := pure_ok k₃
    refine ⟨ps, ts, right, .inr hw, hright, ?_, hnew, rfl, hc₃.trans (hc₂.trans hc₁)⟩
    rw [← ha₁, ha₂, ha₃, Reading.append_assoc]
    rfl

theorem parameterList_yields {ps : List Parameter} {right : Token} (hw : Listed Parameter.Written ps ts)
    (hright : right.category = .rparen) (h : s.ahead = (ts ++ [right]) ++ r)
    (hnames : (ps.map fun p => p.name.name).Nodup) (hr : r.Clear) :
    parameterList.Yields s ⟨⟨ps.map Parameter.entry⟩⟩ s.scopes r := by
  simp only [Reading.append_assoc, Reading.cons_append, Reading.nil_append] at h
  rcases hw with ⟨rfl, rfl⟩ | hw
  · refine Yields.bind (advanceIf_yields h hright hr) fun s₁ hc₁ ha₁ => ?_
    exact yields_pure _ hc₁ ha₁
  · have hskip : s.ahead.Lacks [.rparen] := by
      obtain ⟨t, us, rfl, ht⟩ := hw.head fun _ _ => Parameter.Written.head
      rw [h, Reading.cons_append]
      exact Reading.lacks_cons ht _
    refine Yields.bind (advanceIf_skip hskip) fun s₁ hc₁ ha₁ => yields_get_bind ?_
    rw [h] at ha₁
    have hbound := length_le_bound ha₁ (hw.length_le fun _ _ => Parameter.Written.length_pos)
    have hcomma : (r.cons right).Lacks [.comma] := Reading.lacks_cons (by rw [hright]; decide) _
    have hlist := parameters_yields (m := {}) hw ha₁ ⟨hnames, fun _ _ => rfl⟩ hbound (Reading.clear_cons _ _) hcomma
    refine Yields.bind hlist fun s₂ hc₂ ha₂ => ?_
    refine Yields.bind (expect_yields ha₂ hright hr).discard fun s₃ hc₃ ha₃ => ?_
    exact yields_pure _ (hc₃.trans (hc₂.trans hc₁)) ha₃

theorem methodDeclaration_ok (hfirst : first.category = .kwVoid) (h : methodDeclaration s = .ok u s') :
    ∃ name ps ts, (StatementTree.methodDeclaration name ps).Written (first :: ts) ∧ s.ahead = ts ++ s'.ahead ∧
      (StatementTree.methodDeclaration name ps).Legal s.scopes ∧
      s'.scopes = s.scopes.withMethod name.name ⟨⟨ps.map Parameter.entry⟩⟩ := by
  obtain ⟨name, s₁, h₁, k₁⟩ := bind_ok h
  obtain ⟨hname, ha₁, hc₁⟩ := expect_ok h₁
  obtain ⟨_, s₂, h₂, k₂⟩ := bind_ok k₁
  obtain ⟨hlegal, rfl⟩ := ofSyntax_ok h₂
  obtain ⟨_, s₃, h₃, k₃⟩ := bind_ok k₂
  obtain ⟨left, hleft, ha₃, hc₃⟩ := discard_expect_ok h₃
  obtain ⟨m, s₄, h₄, k₄⟩ := bind_ok k₃
  obtain ⟨ps, ts, right, hw, hright, ha₄, hnew, rfl, hc₄⟩ := parameterList_ok h₄
  obtain ⟨_, s₅, h₅, k₅⟩ := bind_ok k₄
  obtain ⟨brace, hbrace, ha₅, hc₅⟩ := discard_expect_ok h₅
  obtain ⟨hchange, ha₆⟩ := changeScopes_ok k₅
  obtain ⟨hfresh, hs'⟩ := ScopeChain.addMethod_eq_ok.1 hchange
  rw [hc₅, hc₄, hc₃, hc₁] at hfresh hs'
  refine ⟨name, ps, name :: left :: (ts ++ [right, brace]), .methodDeclaration hfirst hname hleft hw hright hbrace,
    ?_, ⟨requireMethodName_eq_ok.1 hlegal, hnew.1, hfresh⟩, hs'⟩
  rw [ha₁, ha₃, ha₄, ha₅, ha₆]
  simp only [Reading.cons_append, Reading.append_assoc, Reading.nil_append]

theorem methodDeclaration_yields {name : Token} {ps : List Parameter}
    (hw : (StatementTree.methodDeclaration name ps).Written (first :: ts)) (h : s.ahead = ts ++ r)
    (hlegal : (StatementTree.methodDeclaration name ps).Legal s.scopes) (hr : r.Clear) :
    methodDeclaration.Yields s () (s.scopes.withMethod name.name ⟨⟨ps.map Parameter.entry⟩⟩) r := by
  cases hw with
  | @methodDeclaration _ _ _ left right brace ts _ hname hleft hw hright hbrace =>
    obtain ⟨hunderscore, hnames, hfresh⟩ := hlegal
    have hsplit : s.ahead = (((ts ++ [right]) ++ r.cons brace).cons left).cons name := by
      rw [h]
      simp only [Reading.cons_append, Reading.append_assoc, Reading.nil_append]
    refine Yields.bind (expect_yields hsplit hname (Reading.clear_cons _ _)) fun s₁ hc₁ ha₁ => ?_
    refine Yields.bind (ofSyntax_yields (requireMethodName_eq_ok.2 hunderscore)) fun s₂ hc₂ ha₂ => ?_
    have hclear : ((ts ++ [right]) ++ r.cons brace).Clear := Reading.Clear.append (Reading.clear_cons _ _) _
    refine Yields.bind (expect_yields (ha₂.trans ha₁) hleft hclear).discard fun s₃ hc₃ ha₃ => ?_
    refine Yields.bind (parameterList_yields hw hright ha₃ hnames (Reading.clear_cons _ _)) fun s₄ hc₄ ha₄ => ?_
    refine Yields.bind (expect_yields ha₄ hbrace hr).discard fun s₅ hc₅ ha₅ => ?_
    rw [← ha₅]
    refine changeScopes_yields (ScopeChain.addMethod_eq_ok.2 ?_)
    rw [hc₅, hc₄, hc₃, hc₂, hc₁]
    exact ⟨hfresh, rfl⟩

theorem methodCall_ok (hfirst : first.category = .identifier) (h : methodCall first s = .ok u s') :
    ∃ vs ts, (StatementTree.methodCall first vs).Written (first :: ts) ∧ s.ahead = ts ++ s'.ahead ∧
      (StatementTree.methodCall first vs).Legal s.scopes ∧ s'.scopes = s.scopes := by
  obtain ⟨m, s₁, h₁, k₁⟩ := bind_ok (get_bind_ok h)
  obtain ⟨hmethod, rfl⟩ := ofRule_ok h₁
  obtain ⟨_, s₂, h₂, k₂⟩ := bind_ok k₁
  obtain ⟨left, hleft, ha₂, hc₂⟩ := discard_expect_ok h₂
  obtain ⟨_, s₃, h₃, k₃⟩ := bind_ok k₂
  obtain ⟨vs, ts, hw, ha₃, hfits, hc₃⟩ := arguments_ok h₃
  obtain ⟨_, s₄, h₄, k₄⟩ := bind_ok k₃
  obtain ⟨right, hright, ha₄, hc₄⟩ := discard_expect_ok h₄
  obtain ⟨stop, hstop, ha₅, hc₅⟩ := discard_expect_ok k₄
  refine ⟨vs, left :: (ts ++ [right, stop]), .methodCall hfirst hleft hw hright hstop, ?_,
    ⟨m, ScopeChain.requireMethod_eq_ok.1 hmethod, hc₂ ▸ hfits⟩, by rw [hc₅, hc₄, hc₃, hc₂]⟩
  rw [ha₂, ha₃, ha₄, ha₅]
  simp only [Reading.cons_append, Reading.append_assoc, Reading.nil_append]

theorem methodCall_yields {vs : List Token} (hw : (StatementTree.methodCall first vs).Written (first :: ts))
    (h : s.ahead = ts ++ r) (hlegal : (StatementTree.methodCall first vs).Legal s.scopes) (hr : r.Clear) :
    (methodCall first).Yields s () s.scopes r := by
  cases hw with
  | @methodCall _ _ left right stop ts _ hleft hw hright hstop =>
    obtain ⟨m, hmethod, hfits⟩ := hlegal
    simp only [Reading.cons_append, Reading.append_assoc, Reading.nil_append] at h
    have hfound := ScopeChain.requireMethod_eq_ok.2 hmethod
    refine yields_get_bind (Yields.bind (ofRule_yields hfound) fun s₁ hc₁ ha₁ => ?_)
    have hclear : (ts ++ (r.cons stop).cons right).Clear := Reading.Clear.append (Reading.clear_cons _ _) _
    refine Yields.bind (expect_yields (ha₁.trans h) hleft hclear).discard fun s₂ hc₂ ha₂ => ?_
    have hc := hc₂.trans hc₁
    refine Yields.bind (arguments_yields hw ha₂ (hc ▸ hfits) (Reading.clear_cons _ _)) fun s₃ hc₃ ha₃ => ?_
    refine Yields.bind (expect_yields ha₃ hright (Reading.clear_cons _ _)).discard fun s₄ hc₄ ha₄ => ?_
    have hlast := (expect_yields ha₄ hstop hr).discard
    rwa [hc₄, hc₃, hc] at hlast

/-! ## Every form -/

/-- A form that succeeds has read a legal statement of its kind. -/
theorem form_ok {kind : StatementKind} {second : Option Category}
    (hkind : StatementKind.ofCategories? first.category second = some kind) (h : form first kind s = .ok u s') :
    ∃ (st : StatementTree) (ts : List Token), st.kind = kind ∧ st.Written (first :: ts) ∧ s.ahead = ts ++ s'.ahead ∧
      st.Legal s.scopes ∧ s'.scopes = st.effect s.scopes := by
  cases kind with
  | variableDeclaration =>
    obtain ⟨isFinal, type, ds, ts, hw, ha, hlegal, hc⟩ := variableDeclaration_ok h
    exact ⟨_, ts, rfl, hw, ha, hlegal, hc⟩
  | returnStatement =>
    have hfirst := StatementKind.first_of_ofCategories? hkind
    obtain ⟨stop, hstop, ha, hc⟩ := discard_expect_ok h
    exact ⟨.returnStatement, [stop], rfl, .returnStatement hfirst hstop, ha, trivial, hc⟩
  | conditional =>
    obtain ⟨vs, ts, hw, ha, hlegal, hc⟩ := conditional_ok (StatementKind.first_of_ofCategories? hkind) h
    exact ⟨_, ts, rfl, hw, ha, hlegal, hc⟩
  | methodDeclaration =>
    obtain ⟨name, ps, ts, hw, ha, hlegal, hc⟩ := methodDeclaration_ok (StatementKind.first_of_ofCategories? hkind) h
    exact ⟨_, ts, rfl, hw, ha, hlegal, hc⟩
  | assignment =>
    obtain ⟨value, ts, hw, ha, hlegal, hc⟩ := assignment_ok (StatementKind.first_of_ofCategories? hkind) h
    exact ⟨_, ts, rfl, hw, ha, hlegal, hc⟩
  | methodCall =>
    obtain ⟨vs, ts, hw, ha, hlegal, hc⟩ := methodCall_ok (StatementKind.first_of_ofCategories? hkind) h
    exact ⟨_, ts, rfl, hw, ha, hlegal, hc⟩
  | closeBlock =>
    obtain ⟨-, rfl⟩ := pure_ok h
    exact ⟨.closeBlock, [], rfl, .closeBlock (StatementKind.first_of_ofCategories? hkind), rfl, trivial, rfl⟩

/-- The form of a legal statement succeeds on its tokens. -/
theorem form_yields {st : StatementTree} (hw : st.Written (first :: ts)) (h : s.ahead = ts ++ r)
    (hlegal : st.Legal s.scopes) (hr : r.Clear) : (form first st.kind).Yields s () (st.effect s.scopes) r := by
  cases st with
  | variableDeclaration isFinal type ds => exact variableDeclaration_yields hw h hlegal hr
  | returnStatement =>
    cases hw with
    | returnStatement _ hstop =>
      rw [Reading.cons_append] at h
      exact (expect_yields h hstop hr).discard
  | conditional vs => exact conditional_yields hw h hlegal hr
  | methodDeclaration name ps => exact methodDeclaration_yields hw h hlegal hr
  | assignment target value =>
    cases hw with
    | assignment h₁ h₂ h₃ => exact assignment_yields (.assignment h₁ h₂ h₃) h hlegal hr
  | methodCall name vs =>
    cases hw with
    | methodCall h₁ h₂ h₃ h₄ h₅ => exact methodCall_yields (.methodCall h₁ h₂ h₃ h₄ h₅) h hlegal hr
  | closeBlock =>
    cases hw with
    | closeBlock _ => exact yields_pure () rfl h

end Forms

end Grammar

end BlockCheck
