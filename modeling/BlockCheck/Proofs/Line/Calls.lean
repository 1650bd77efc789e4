import BlockCheck.Proofs.Line.Failures
import BlockCheck.Proofs.Line.StatementReader

/-!
# Calls of a declared method

A call gives a value for each parameter, in the order in which the head of the method has them. The values are checked
from left to right, each against the type at its position, so a call fails at the first of these places:

- a value that does not fit the type at its position (`Grammar.arguments_fails_of_misfit`);
- the closing parenthesis, where more types than values are left (`Grammar.arguments_fails_of_few`);
- the comma in front of the first value for which there is no type, or this value itself if there are no types at all
  (`Grammar.arguments_yields_of_many`).

`call_outcome` says this of a call on the scopes that the head of the method has made, with the types as the head
writes them.
-/

namespace BlockCheck

open Step LineM

/-! ## Lists that are cut in two -/

/-- Items are cut in two at a separator. -/
theorem Separated.split {α : Type} {separators : List Category} {Item : α → List Token → Prop} {as bs : List α}
    {ts : List Token} (h : Separated separators Item (as ++ bs) ts) (has : as ≠ []) (hbs : bs ≠ []) :
    ∃ us t ws, ts = us ++ t :: ws ∧ t.category ∈ separators ∧ Separated separators Item as us ∧
      Separated separators Item bs ws := by
  induction as generalizing ts with
  | nil => exact absurd rfl has
  | cons a as ih =>
    rw [List.cons_append] at h
    generalize hrest : as ++ bs = rest at h
    cases h with
    | one _ => exact absurd (List.append_eq_nil_iff.1 hrest).2 hbs
    | @more _ _ t us ws hitem ht h =>
      subst hrest
      cases as with
      | nil => exact ⟨us, t, ws, rfl, ht, .one hitem, h⟩
      | cons a' as =>
        obtain ⟨us', t', ws', rfl, ht', has', hbs'⟩ := ih h (List.cons_ne_nil _ _)
        exact ⟨us ++ t :: us', t', ws', by simp, ht', .more hitem ht has', hbs'⟩

theorem Separated.eq_cons {separators : List Category} {v : Token} {vs ts : List Token}
    (h : Separated separators Token.Written (v :: vs) ts) : ∃ us, ts = v :: us := by
  cases h with
  | one hv => exact ⟨[], hv⟩
  | more hv _ _ => exact ⟨_, by rw [hv]; rfl⟩

/-! ## Arguments -/

/-- Among the tokens of a list of arguments, the one at which it shows that `w` is an argument too many behind the
arguments `us`: the comma between them, or `w` itself if none is in front of it. -/
inductive IsSurplus : (us : List Token) → (w : Token) → (ws ts : List Token) → Token → Prop
  | first {w : Token} {ws ts : List Token} : IsSurplus [] w ws (w :: ts) w
  | comma {us ws ts ts' : List Token} {w comma : Token} : Separated [.comma] Token.Written us ts →
      comma.category = .comma → Separated [.comma] Token.Written (w :: ws) ts' →
      IsSurplus us w ws (ts ++ comma :: ts') comma

theorem Separated.exists_isSurplus {us ws ts : List Token} {w : Token}
    (h : Separated [.comma] Token.Written (us ++ w :: ws) ts) : ∃ t, IsSurplus us w ws ts t := by
  by_cases hus : us = []
  · subst hus
    obtain ⟨ts, rfl⟩ := h.eq_cons
    exact ⟨w, .first⟩
  · obtain ⟨ts, comma, ts', rfl, hcomma, hus, hws⟩ := h.split hus (List.cons_ne_nil _ _)
    exact ⟨comma, .comma hus (List.mem_singleton.1 hcomma) hws⟩

/-- It is no parenthesis. -/
theorem IsSurplus.category_ne {us ws ts : List Token} {w t : Token} (h : IsSurplus us w ws ts t)
    (hw : w.category ∈ Category.values) : t.category ≠ .rparen := by
  intro ht
  cases h with
  | first => rw [ht] at hw; revert hw; decide
  | comma _ hcomma _ => rw [ht] at hcomma; cases hcomma

namespace Grammar

open Cursor

section Rules

variable {s : LineState} {c : ScopeChain} {r : Reading} {type : ValueType} {types fitted : List ValueType} {v : Token}
  {us vs ts : List Token} {f : RuleFault} {fault : LineFault}

theorem moreArguments_append (types more : List ValueType) :
    moreArguments (types ++ more) = (moreArguments types >>= fun _ => moreArguments more) := by
  induction types with
  | nil => rfl
  | cons type types ih => simp only [List.cons_append, moreArguments, ih, bind_assoc]

theorem arguments_append (type : ValueType) (types more : List ValueType) :
    arguments (type :: types ++ more) = (arguments (type :: types) >>= fun _ => moreArguments more) := by
  simp only [List.cons_append, arguments, moreArguments_append, bind_assoc]

/-- Behind arguments that fit, those that follow are what fails. -/
theorem arguments_append_fails (hw : Separated [.comma] Token.Written us ts) (h : s.ahead = ts ++ r)
    (hfits : List.Forall₂ s.scopes.Fits fitted us) (hr : r.Clear)
    (hmore : ∀ s₁ : LineState, s₁.scopes = s.scopes → s₁.ahead = r → (moreArguments types).Fails s₁ fault c) :
    (arguments (fitted ++ types)).Fails s fault c := by
  cases hfits with
  | nil => cases hw
  | cons hfit hfits =>
    rw [arguments_append]
    exact Yields.bind_fails (arguments_yields_of_separated hw h (.cons hfit hfits) hr) hmore

/-- **The first value that does not fit the type at its position is the fault.** -/
theorem arguments_fails_of_misfit (hw : Separated [.comma] Token.Written (us ++ v :: vs) ts) (h : s.ahead = ts ++ r)
    (hr : r.Clear) (hfits : List.Forall₂ s.scopes.Fits fitted us) (hvalue : v.category ∈ Category.values)
    (hmisfit : s.scopes.Misfit type v f) : (arguments (fitted ++ type :: types)).Fails s (.ofRule f) s.scopes := by
  by_cases hus : us = []
  · subst hus
    cases hfits
    obtain ⟨ts, rfl⟩ := hw.eq_cons
    rw [Reading.cons_append] at h
    exact (value_fails hvalue hmisfit h (hr.append ts)).bind
  · obtain ⟨ts, comma, ts', rfl, hcomma, hus', hvs⟩ := hw.split hus (List.cons_ne_nil _ _)
    obtain ⟨ts', rfl⟩ := hvs.eq_cons
    simp only [Reading.append_assoc, Reading.cons_append] at h
    refine arguments_append_fails hus' h hfits (Reading.clear_cons _ _) fun s₁ hc₁ ha₁ => ?_
    refine Yields.bind_fails (expect_yields ha₁ (List.mem_singleton.1 hcomma) (Reading.clear_cons _ _)).discard
      fun s₂ hc₂ ha₂ => ?_
    have hc := hc₂.trans hc₁
    rw [← hc] at hmisfit ⊢
    exact (value_fails hvalue hmisfit ha₂ (hr.append ts')).bind

/-- Where types are left behind the last value, a comma is missed, or a value if there is none at all. -/
theorem arguments_fails_of_few (hw : Listed Token.Written vs ts) (h : s.ahead = ts ++ r) (hr : r.Clear)
    (hlacks : r.Lacks (.comma :: Category.values)) (hfits : List.Forall₂ s.scopes.Fits fitted vs) :
    (arguments (fitted ++ type :: types)).Fails s
      (.ofSyntax (r.unexpected (if vs.isEmpty then .value else .category .comma))) s.scopes := by
  rcases hw with ⟨rfl, rfl⟩ | hw
  · cases hfits
    rw [Reading.nil_append] at h
    subst h
    exact (value_fails_of_lacks fun t ht hk => hlacks t ht (List.mem_cons_of_mem _ hk)).bind
  · have hsome : vs.isEmpty = false := by cases hw <;> rfl
    rw [hsome]
    refine arguments_append_fails hw h hfits hr fun s₁ hc₁ ha₁ => ?_
    subst ha₁
    rw [← hc₁]
    refine Fails.bind (Fails.discard (fails_expect fun t ht hk => hlacks t ht ?_))
    exact List.mem_cons.2 (.inl (List.mem_singleton.1 hk))

/-- Where no type is left the arguments end, and the first surplus token is ahead. -/
theorem arguments_yields_of_many {t : Token} (hsurplus : IsSurplus us v vs ts t) (h : s.ahead = ts ++ r)
    (hfits : List.Forall₂ s.scopes.Fits types us) :
    ∃ rest : Reading, (arguments types).Yields s () s.scopes (rest.cons t) := by
  cases hsurplus with
  | first =>
    cases hfits
    rw [Reading.cons_append] at h
    exact ⟨_, yields_pure () rfl h⟩
  | comma hus _ _ =>
    rw [Reading.append_assoc, Reading.cons_append] at h
    exact ⟨_, arguments_yields (.inr hus) h hfits (Reading.clear_cons _ _)⟩

/-- A call fails where its arguments do, or what has to follow them. -/
theorem methodCall_fails {m : Method} {first left : Token} (hmethod : s.scopes.visibleMethod? first.name = some m)
    (h : s.ahead = r.cons left) (hleft : left.category = .lparen) (hr : r.Clear)
    (harguments : ∀ s₁ : LineState, s₁.scopes = s.scopes → s₁.ahead = r →
      (do arguments m.parameterTypes; discard (expect .rparen) : LineM Unit).Fails s₁ fault c) :
    (methodCall first).Fails s fault c := by
  have hfound := ScopeChain.requireMethod_eq_ok.2 hmethod
  refine fails_get_bind (Yields.bind_fails (ofRule_yields hfound) fun s₁ hc₁ ha₁ => ?_)
  refine Yields.bind_fails (expect_yields (ha₁.trans h) hleft hr).discard fun s₂ hc₂ ha₂ => ?_
  rw [← bind_assoc]
  exact (harguments s₂ (hc₂.trans hc₁) ha₂).bind

end Rules

end Grammar

/-! ## Calls -/

/-- The line is a call: the name, the values with commas between them in parentheses, and a semicolon. The tokens
between the parentheses are `ts`, and `right` is the closing one. -/
structure IsCall (line : List Char) (callee : Token) (vs ts : List Token) (right : Token) : Prop where
  reads : ∃ left stop, readLine line = ⟨callee :: left :: (ts ++ [right, stop]), none⟩ ∧ left.category = .lparen ∧
    stop.category = .semicolon
  name : callee.category = .identifier
  close : right.category = .rparen
  listed : Listed Token.Written vs ts
  values : ∀ v ∈ vs, v.category ∈ Category.values

/-- What becomes of a call with the values `vs`, written as `ts` in front of the parenthesis `right`, if there are
parameters of the types. -/
structure CallOutcome (c : ScopeChain) (types : List ValueType) (vs ts : List Token) (right : Token)
    (outcome : Except LineFault (Option StatementKind)) : Prop where
  accepted : outcome = .ok (some .methodCall) ↔ vs.length = types.length ∧ ∀ p ∈ types.zip vs, c.Fits p.1 p.2
  /-- The leftmost value that does not fit the type at its position is the fault. -/
  misfit : ∀ before type v after, types.zip vs = before ++ (type, v) :: after → (∀ p ∈ before, c.Fits p.1 p.2) →
    ¬ c.Fits type v → ∃ f, c.Misfit type v f ∧ outcome = .error (.ofRule f)
  /-- Values that fit but are too few end at the parenthesis, where one more is expected. -/
  few : (∀ p ∈ types.zip vs, c.Fits p.1 p.2) → vs.length < types.length →
    outcome = .error (.ofSyntax
      (.unexpectedToken (if vs.isEmpty then .value else .category .comma) (some .rparen) (some right.span)))
  /-- Of values that fit but are too many, the first one too many is where the parenthesis is expected. -/
  many : ∀ us w ws, vs = us ++ w :: ws → us.length = types.length → (∀ p ∈ types.zip vs, c.Fits p.1 p.2) →
    ∃ t, IsSurplus us w ws ts t ∧
      outcome = .error (.ofSyntax (.unexpectedToken (.category .rparen) (some t.category) (some t.span)))

section Lines

variable {c : ScopeChain} {line : List Char} {callee right : Token} {vs ts : List Token} {m : Method}
  {fault : LineFault}

/-- A call is rejected if its arguments fail, or the parenthesis behind them. -/
theorem IsCall.checkLine_of_fails (h : IsCall line callee vs ts right)
    (hmethod : c.visibleMethod? callee.name = some m)
    (harguments : ∀ (s : LineState) (rest : Reading), s.scopes = c → s.ahead = ts ++ rest.cons right →
      (do Grammar.arguments m.parameterTypes; discard (Cursor.expect .rparen) : LineM Unit).Fails s fault c) :
    c.checkLine line = (.error fault, c) := by
  obtain ⟨left, stop, hread, hleft, -⟩ := h.reads
  have hkind : StatementKind.ofCategories? callee.category ((some left).map Token.category) = some .methodCall := by
    rw [Option.map_some, h.name, hleft]
    rfl
  refine ScopeChain.checkLine_of_fails (r := ⟨_, none⟩) hread (fun _ => rfl) hkind fun s hc ha => ?_
  subst hc
  rw [← Reading.append_empty] at ha
  simp only [Reading.cons_append, Reading.append_assoc, Reading.nil_append] at ha
  exact Grammar.methodCall_fails hmethod ha hleft (Reading.Clear.append (Reading.clear_cons _ _) _) fun s₁ hc₁ ha₁ =>
    harguments s₁ _ hc₁ ha₁

theorem IsCall.written (h : IsCall line callee vs ts right) :
    (readLine line).failure = none ∧ (StatementTree.methodCall callee vs).Written (readLine line).tokens := by
  obtain ⟨left, stop, hread, hleft, hstop⟩ := h.reads
  rw [hread]
  exact ⟨rfl, .methodCall h.name hleft h.listed h.close hstop⟩

/-- A call is accepted exactly if its values fit the types one by one. -/
theorem IsCall.accepted_iff (h : IsCall line callee vs ts right) (hmethod : c.visibleMethod? callee.name = some m) :
    (c.checkLine line).1 = .ok (some .methodCall) ↔ List.Forall₂ c.Fits m.parameterTypes vs := by
  obtain ⟨hfailure, hwritten⟩ := h.written
  constructor
  · intro hok
    obtain ⟨-, -, st, -, hst, hlegal⟩ := (ScopeChain.checkLine_ok_iff_legal c line _).1 hok
    obtain rfl : st = .methodCall callee vs := Option.some.inj (hst.ofTokens?.symm.trans hwritten.ofTokens?)
    obtain ⟨m', hm', hfits⟩ := hlegal
    obtain rfl : m' = m := Option.some.inj (hm'.symm.trans hmethod)
    exact hfits
  · intro hfits
    have hlegal : (StatementTree.methodCall callee vs).Legal c := ⟨m, hmethod, hfits⟩
    rw [ScopeChain.checkLine_of_legal hfailure hwritten hlegal]
    rfl

/-- Lists of pairs that are related are related in front of any ends. -/
theorem forall₂_of_zip_append {α β : Type} {R : α → β → Prop} {as as' : List α} {bs bs' : List β}
    (hlength : as.length = bs.length) (h : ∀ p ∈ (as ++ as').zip (bs ++ bs'), R p.1 p.2) : List.Forall₂ R as bs := by
  rw [List.zip_append hlength] at h
  exact List.forall₂_iff_zip.2 ⟨hlength, fun hp => h _ (List.mem_append_left _ hp)⟩

/-- **The outcome of a call** of a method that is declared. -/
theorem IsCall.outcome (h : IsCall line callee vs ts right) (hmethod : c.visibleMethod? callee.name = some m) :
    CallOutcome c m.parameterTypes vs ts right (c.checkLine line).1 where
  accepted := by
    rw [h.accepted_iff hmethod, List.forall₂_iff_zip]
    exact ⟨fun ⟨hlength, hfits⟩ => ⟨hlength.symm, fun _ hp => hfits hp⟩, fun ⟨hlength, hfits⟩ =>
      ⟨hlength.symm, fun hp => hfits _ hp⟩⟩
  misfit before type v after hsplit hbefore hv := by
    obtain ⟨f, hf⟩ := ScopeChain.not_fits_iff.1 hv
    obtain ⟨fitted, types, us, ws, hlength, htypes, hvs, rfl, hrest⟩ := List.zip_eq_append_iff.1 hsplit
    obtain ⟨more, ws, rfl, rfl, -⟩ := List.zip_eq_cons_iff.1 hrest.symm
    subst hvs
    have hfits : List.Forall₂ c.Fits fitted us := List.forall₂_iff_zip.2 ⟨hlength, fun hp => hbefore _ hp⟩
    refine ⟨f, hf, ?_⟩
    rw [h.checkLine_of_fails hmethod fun s rest hc ha => ?_]
    subst hc
    rw [htypes]
    have hw := h.listed.resolve_left (by simp)
    exact (Grammar.arguments_fails_of_misfit hw ha (Reading.clear_cons _ _) hfits (h.values v (by simp)) hf).bind
  few hfits hlength := by
    obtain ⟨fitted, type, more, htypes, hfitted⟩ : ∃ fitted type more,
        m.parameterTypes = fitted ++ type :: more ∧ fitted.length = vs.length :=
      ⟨m.parameterTypes.take vs.length, m.parameterTypes[vs.length], m.parameterTypes.drop (vs.length + 1),
        by rw [List.getElem_cons_drop, List.take_append_drop], List.length_take_of_le hlength.le⟩
    rw [htypes, ← List.append_nil vs] at hfits
    rw [h.checkLine_of_fails hmethod fun s rest hc ha => ?_]
    subst hc
    have hfound : (rest.cons right).unexpected (if vs.isEmpty then .value else .category .comma) =
        .unexpectedToken (if vs.isEmpty then .value else .category .comma) (some .rparen) (some right.span) := by
      rw [← h.close]
      rfl
    have hlacks : (rest.cons right).Lacks (.comma :: Category.values) :=
      Reading.lacks_cons (by rw [h.close]; decide) rest
    rw [htypes, ← hfound]
    exact (Grammar.arguments_fails_of_few h.listed ha (Reading.clear_cons _ _) hlacks
      (forall₂_of_zip_append hfitted hfits)).bind
  many us w ws hvs hlength hfits := by
    subst hvs
    rw [← List.append_nil m.parameterTypes] at hfits
    have hw := h.listed.resolve_left (by simp)
    obtain ⟨t, ht⟩ := hw.exists_isSurplus
    refine ⟨t, ht, ?_⟩
    rw [h.checkLine_of_fails hmethod fun s rest hc ha => ?_]
    subst hc
    obtain ⟨rest', hyields⟩ := Grammar.arguments_yields_of_many ht ha (forall₂_of_zip_append hlength.symm hfits)
    refine Yields.bind_fails hyields fun s₁ hc₁ ha₁ => ?_
    have hnot : t.category ∉ [Category.rparen] := fun hmem =>
      ht.category_ne (h.values w (by simp)) (List.mem_singleton.1 hmem)
    have hlacks : s₁.ahead.Lacks [.rparen] := ha₁ ▸ Reading.lacks_cons hnot rest'
    have hfails := (fails_expect hlacks).discard
    rwa [ha₁, hc₁] at hfails

end Lines

/-! ## Calls behind the head of the method -/

/-- A method that is declared is the one that its name stands for. -/
theorem ScopeChain.visibleMethod?_withMethod {c : ScopeChain} {name : String} (m : Method)
    (hnew : c.innermost.methods.contains name = false) : (c.withMethod name m).visibleMethod? name = some m := by
  have hget : (SymbolTable.mk (c.innermost.methods.entries ++ [(name, m)])).get? name = some m :=
    SymbolTable.get?_append_entry hnew
  cases c with
  | global s => exact hget
  | block s outer => exact congrArg (· <|> outer.visibleMethod? name) hget

/-- **The values of a call are checked by position.** On the scopes that the accepted head of a method has made, a
call of the method is checked against the types of its parameters in the order in which they are written. -/
theorem call_outcome {c c' : ScopeChain} {header line : List Char} {name callee right : Token} {ps : List Parameter}
    {vs ts : List Token} (hheader : c.checkLine header = (.ok (some .methodDeclaration), c'))
    (hwritten : (StatementTree.methodDeclaration name ps).Written (readLine header).tokens)
    (hcall : IsCall line callee vs ts right) (hname : callee.name = name.name) :
    CallOutcome c' (ps.map Parameter.type) vs ts right (c'.checkLine line).1 := by
  obtain ⟨st, -, -, hst, hlegal, rfl⟩ := ScopeChain.checkLine_eq_ok_some_iff.1 hheader
  obtain rfl : st = .methodDeclaration name ps := Option.some.inj (hst.ofTokens?.symm.trans hwritten.ofTokens?)
  obtain ⟨-, -, hnew⟩ := hlegal
  have hmethod : (c.withMethod name.name ⟨⟨ps.map Parameter.entry⟩⟩).visibleMethod? callee.name =
      some ⟨⟨ps.map Parameter.entry⟩⟩ := by
    rw [hname]
    exact ScopeChain.visibleMethod?_withMethod _ hnew
  have htypes : Method.parameterTypes ⟨⟨ps.map Parameter.entry⟩⟩ = ps.map Parameter.type := by
    rw [Method.parameterTypes, List.map_map]
    rfl
  exact htypes ▸ hcall.outcome hmethod

/-- The second parameter, a final one, has no value, and the first value fits: the comma in front of a second value is
missed at the parenthesis. -/
theorem call_outcome_of_missing_value :
    let header := "void f(int a, final boolean b) \x7b".toList
    let line := "f(1);".toList
    let c : ScopeChain :=
      .global { methods := ⟨[("f", ⟨⟨[("a", .parameter .int false), ("b", .parameter .boolean true)]⟩⟩)]⟩ }
    ScopeChain.empty.checkLine header = (.ok (some .methodDeclaration), c) ∧
      (c.checkLine line).1 =
        .error (.ofSyntax (.unexpectedToken (.category .comma) (some .rparen) (some ⟨3, 1⟩))) := by
  intro header line c
  have hheader : ScopeChain.empty.checkLine header = (.ok (some .methodDeclaration), c) := by decide +kernel
  have hread : readLine header = ⟨[⟨.kwVoid, none, ⟨0, 4⟩⟩, ⟨.identifier, "f", ⟨5, 1⟩⟩, ⟨.lparen, none, ⟨6, 1⟩⟩,
      ⟨.kwInt, none, ⟨7, 3⟩⟩, ⟨.identifier, "a", ⟨11, 1⟩⟩, ⟨.comma, none, ⟨12, 1⟩⟩, ⟨.kwFinal, none, ⟨14, 5⟩⟩,
      ⟨.kwBoolean, none, ⟨20, 7⟩⟩, ⟨.identifier, "b", ⟨28, 1⟩⟩, ⟨.rparen, none, ⟨29, 1⟩⟩, ⟨.lbrace, none, ⟨31, 1⟩⟩],
      none⟩ := by decide +kernel
  have hcall : readLine line = ⟨[⟨.identifier, "f", ⟨0, 1⟩⟩, ⟨.lparen, none, ⟨1, 1⟩⟩, ⟨.intLiteral, "1", ⟨2, 1⟩⟩,
      ⟨.rparen, none, ⟨3, 1⟩⟩, ⟨.semicolon, none, ⟨4, 1⟩⟩], none⟩ := by decide +kernel
  have hwritten : (StatementTree.methodDeclaration ⟨.identifier, "f", ⟨5, 1⟩⟩
      [⟨false, .int, ⟨.identifier, "a", ⟨11, 1⟩⟩⟩, ⟨true, .boolean, ⟨.identifier, "b", ⟨28, 1⟩⟩⟩]).Written
      (readLine header).tokens := by
    rw [hread]
    exact .methodDeclaration rfl rfl rfl (.inr (.more (.plain rfl rfl) (by decide) (.one (.final rfl rfl rfl)))) rfl
      rfl
  have hline : IsCall line ⟨.identifier, "f", ⟨0, 1⟩⟩ [⟨.intLiteral, "1", ⟨2, 1⟩⟩] [⟨.intLiteral, "1", ⟨2, 1⟩⟩]
      ⟨.rparen, none, ⟨3, 1⟩⟩ := ⟨⟨_, _, hcall, rfl, rfl⟩, rfl, rfl, .inr (.one rfl), by decide⟩
  have houtcome := call_outcome hheader hwritten hline rfl
  have hfits : ∀ p ∈ [ValueType.int, .boolean].zip [(⟨.intLiteral, "1", ⟨2, 1⟩⟩ : Token)], c.Fits p.1 p.2 := by
    simp only [List.zip_cons_cons, List.zip_nil_right, List.mem_singleton, forall_eq]
    exact ⟨by decide, nofun⟩
  exact ⟨hheader, houtcome.few hfits (by decide)⟩

end BlockCheck
