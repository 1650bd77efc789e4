import BlockCheck.Proofs.Line.Failures

/-!
# Conditions

The operands of a condition are checked from left to right, each as a boolean value, and none is left out. A condition
is accepted if all of its operands fit; otherwise it has the fault of the first one that does not
(`Grammar.operands_fails`). Neither the connectors nor the operands behind it matter, and nothing is changed
(`condition_outcome`).
-/

namespace BlockCheck

open Step LineM

namespace Grammar

open Cursor

section Rules

variable {s : LineState} {r : Reading} {first v : Token} {f : RuleFault}

/-- **The first operand that does not fit is the fault.** -/
theorem operands_fails {vs ts : List Token} (hw : Separated [.andAnd, .orOr] Token.Written vs ts) :
    ∀ {n : Nat} {s : LineState} {before after : List Token}, s.ahead = ts ++ r → r.Clear → vs.length ≤ n →
      vs = before ++ v :: after → (∀ u ∈ before, s.scopes.Fits .boolean u) → v.category ∈ Category.values →
      s.scopes.Misfit .boolean v f → (operands n).Fails s (.ofRule f) s.scopes := by
  induction hw with
  | @one u ts hw =>
    intro n s before after h hr hn hvs hbefore hvalue hmisfit
    obtain ⟨n, rfl, -⟩ := exists_succ_of_length_le hn
    obtain rfl : ts = [u] := hw
    obtain ⟨rfl, rfl⟩ : before = [] ∧ u = v := by
      cases before <;> simp_all
    exact (value_fails hvalue hmisfit h hr).bind
  | @more u us sign ts ts' hw hk _ ih =>
    intro n s before after h hr hn hvs hbefore hvalue hmisfit
    obtain ⟨n, rfl, hlength⟩ := exists_succ_of_length_le hn
    obtain rfl : ts = [u] := hw
    simp only [Reading.append_assoc, Reading.cons_append, Reading.nil_append] at h
    cases before with
    | nil =>
      obtain ⟨rfl, -⟩ := List.cons.inj hvs
      exact (value_fails hvalue hmisfit h (Reading.clear_cons _ _)).bind
    | cons u' before =>
      obtain ⟨rfl, hus⟩ := List.cons.inj hvs
      have hone := value_yields (hbefore u List.mem_cons_self) h (Reading.clear_cons _ _)
      refine Yields.bind_fails hone fun s₁ hc₁ ha₁ => ?_
      refine Yields.bind_fails (advanceIfAny_yields ha₁ hk (hr.append ts')) fun s₂ hc₂ ha₂ => ?_
      have hc := hc₂.trans hc₁
      rw [← hc] at hmisfit hbefore ⊢
      have hbefore : ∀ u ∈ before, s₂.scopes.Fits .boolean u := fun w hw => hbefore w (List.mem_cons_of_mem _ hw)
      exact ih ha₂ hr hlength hus hbefore hvalue hmisfit

theorem conditional_fails {ts before after : List Token}
    (hw : (StatementTree.conditional (before ++ v :: after)).Written (first :: ts)) (h : s.ahead = ts ++ r)
    (hbefore : ∀ u ∈ before, s.scopes.Fits .boolean u) (hvalue : v.category ∈ Category.values)
    (hmisfit : s.scopes.Misfit .boolean v f) : conditional.Fails s (.ofRule f) s.scopes := by
  cases hw with
  | @conditional _ _ left right brace ts _ hleft hw hright hbrace =>
    simp only [Reading.append_assoc, Reading.cons_append, Reading.nil_append] at h
    refine Yields.bind_fails (expect_yields h hleft (Reading.Clear.append (Reading.clear_cons _ _) ts)).discard
      fun s₁ hc₁ ha₁ => fails_get_bind ?_
    have hbound := length_le_bound ha₁ (hw.length_le fun _ _ => Token.Written.length_pos)
    rw [← hc₁] at hmisfit hbefore ⊢
    exact (operands_fails hw ha₁ (Reading.clear_cons _ _) hbound rfl hbefore hvalue hmisfit).bind

end Rules

end Grammar

/-- The line is a condition: `if` or `while`, the operands with `&&` or `||` between them in parentheses, and an
opening brace. The operands are values. -/
structure IsCondition (line : List Char) (operands : List Token) : Prop where
  failure : (readLine line).failure = none
  written : (StatementTree.conditional operands).Written (readLine line).tokens
  values : ∀ v ∈ operands, v.category ∈ Category.values

section Lines

variable {c : ScopeChain} {line : List Char} {operands before after : List Token} {v : Token} {f : RuleFault}

/-- A condition with an operand that does not fit is rejected for the first one of them. -/
theorem IsCondition.checkLine_of_misfit (h : IsCondition line (before ++ v :: after))
    (hbefore : ∀ u ∈ before, c.Fits .boolean u) (hmisfit : c.Misfit .boolean v f) :
    c.checkLine line = (.error (.ofRule f), c) := by
  obtain ⟨first, ts, htokens, hkind⟩ := h.written.classify
  have hread : readLine line = ⟨first :: ts, none⟩ := by rw [← htokens, ← h.failure]
  have hwritten := htokens ▸ h.written
  refine ScopeChain.checkLine_of_fails (r := ⟨ts, none⟩) hread (fun _ => rfl) hkind fun s hc ha => ?_
  subst hc
  rw [← Reading.append_empty] at ha
  exact Grammar.conditional_fails hwritten ha hbefore (h.values v (by simp)) hmisfit

/-- A condition is accepted if all of its operands fit. -/
theorem IsCondition.checkLine_of_fits (h : IsCondition line operands) (hfits : ∀ v ∈ operands, c.Fits .boolean v) :
    c.checkLine line = (.ok (some .conditional), c) := by
  have hlegal : (StatementTree.conditional operands).Legal c := hfits
  exact ScopeChain.checkLine_of_legal h.failure h.written hlegal

/-- Of items that do not all have a property there is a first one that does not. -/
theorem exists_first {α : Type} {P : α → Prop} {as : List α} (h : ¬ ∀ a ∈ as, P a) :
    ∃ before a after, as = before ++ a :: after ∧ (∀ b ∈ before, P b) ∧ ¬ P a := by
  classical
  have hsome : (as.find? fun a => ¬ P a).isSome := by simpa [List.find?_isSome] using h
  obtain ⟨a, ha⟩ := Option.isSome_iff_exists.1 hsome
  obtain ⟨hnot, before, after, has, hbefore⟩ := List.find?_eq_some_iff_append.1 ha
  exact ⟨before, a, after, has, by simpa using hbefore, by simpa using hnot⟩

end Lines

/-- **The outcome of a condition.** It is accepted exactly if every operand is usable as a boolean, and it changes
nothing. Otherwise the first operand that is not usable is the fault, for the first reason that applies to it. A
condition that has the same operands up to this one has the same outcome, with any connectors and any operands
behind it. -/
theorem condition_outcome (c : ScopeChain) {line : List Char} {operands : List Token}
    (h : IsCondition line operands) :
    ((c.checkLine line).1 = .ok (some .conditional) ↔ ∀ v ∈ operands, c.Fits .boolean v) ∧
    (c.checkLine line).2 = c ∧
    ∀ before v after, operands = before ++ v :: after → (∀ u ∈ before, c.Fits .boolean u) → ¬ c.Fits .boolean v →
      ∃ f, c.Misfit .boolean v f ∧ (c.checkLine line).1 = .error (.ofRule f) ∧
        ∀ line' after', IsCondition line' (before ++ v :: after') → c.checkLine line' = c.checkLine line := by
  have hmisfit : ∀ before v after, operands = before ++ v :: after → (∀ u ∈ before, c.Fits .boolean u) →
      ¬ c.Fits .boolean v → ∃ f, c.Misfit .boolean v f ∧ c.checkLine line = (.error (.ofRule f), c) := by
    rintro before v after rfl hbefore hv
    obtain ⟨f, hf⟩ := ScopeChain.not_fits_iff.1 hv
    exact ⟨f, hf, h.checkLine_of_misfit hbefore hf⟩
  refine ⟨⟨fun hok => ?_, fun hfits => ?_⟩, ?_, fun before v after hsplit hbefore hv => ?_⟩
  · by_contra hnot
    obtain ⟨before, v, after, hsplit, hbefore, hv⟩ := exists_first hnot
    obtain ⟨f, -, hcheck⟩ := hmisfit before v after hsplit hbefore hv
    rw [hcheck] at hok
    cases hok
  · rw [h.checkLine_of_fits hfits]
  · by_cases hfits : ∀ v ∈ operands, c.Fits .boolean v
    · rw [h.checkLine_of_fits hfits]
    · obtain ⟨before, v, after, hsplit, hbefore, hv⟩ := exists_first hfits
      obtain ⟨f, -, hcheck⟩ := hmisfit before v after hsplit hbefore hv
      rw [hcheck]
  · obtain ⟨f, hf, hcheck⟩ := hmisfit before v after hsplit hbefore hv
    refine ⟨f, hf, by rw [hcheck], fun line' after' h' => ?_⟩
    rw [hcheck, h'.checkLine_of_misfit hbefore hf]

/-- The second operand is a variable without a value, though the global variable that it shadows has one. What follows
it on the line makes no difference. -/
theorem condition_outcome_of_shadowing :
    let line := "while (a && b || 7) \x7b".toList
    let line' := "while (a || b) \x7b".toList
    let c : ScopeChain :=
      .block { vars := ⟨[("b", ⟨.boolean, false, false⟩)]⟩ }
        (.global { vars := ⟨[("a", ⟨.double, true, true⟩), ("b", ⟨.boolean, false, true⟩)]⟩ })
    IsCondition line [⟨.identifier, "a", ⟨7, 1⟩⟩, ⟨.identifier, "b", ⟨12, 1⟩⟩, ⟨.intLiteral, "7", ⟨17, 1⟩⟩] ∧
      (c.checkLine line).1 = .error (.ofRule (.uninitializedVariable "b" ⟨12, 1⟩)) ∧
      c.checkLine line' = c.checkLine line := by
  intro line line' c
  have hline : IsCondition line
      [⟨.identifier, "a", ⟨7, 1⟩⟩, ⟨.identifier, "b", ⟨12, 1⟩⟩, ⟨.intLiteral, "7", ⟨17, 1⟩⟩] := by
    have hread : readLine line = ⟨[⟨.kwWhile, none, ⟨0, 5⟩⟩, ⟨.lparen, none, ⟨6, 1⟩⟩, ⟨.identifier, "a", ⟨7, 1⟩⟩,
        ⟨.andAnd, none, ⟨9, 2⟩⟩, ⟨.identifier, "b", ⟨12, 1⟩⟩, ⟨.orOr, none, ⟨14, 2⟩⟩, ⟨.intLiteral, "7", ⟨17, 1⟩⟩,
        ⟨.rparen, none, ⟨18, 1⟩⟩, ⟨.lbrace, none, ⟨20, 1⟩⟩], none⟩ := by decide +kernel
    refine ⟨by rw [hread], ?_, by decide⟩
    rw [hread]
    exact .conditional (by decide) rfl (.more rfl (by decide) (.more rfl (by decide) (.one rfl))) rfl rfl
  have hline' : IsCondition line' [⟨.identifier, "a", ⟨7, 1⟩⟩, ⟨.identifier, "b", ⟨12, 1⟩⟩] := by
    have hread : readLine line' = ⟨[⟨.kwWhile, none, ⟨0, 5⟩⟩, ⟨.lparen, none, ⟨6, 1⟩⟩, ⟨.identifier, "a", ⟨7, 1⟩⟩,
        ⟨.orOr, none, ⟨9, 2⟩⟩, ⟨.identifier, "b", ⟨12, 1⟩⟩, ⟨.rparen, none, ⟨13, 1⟩⟩, ⟨.lbrace, none, ⟨15, 1⟩⟩],
        none⟩ := by decide +kernel
    refine ⟨by rw [hread], ?_, by decide⟩
    rw [hread]
    exact .conditional (by decide) rfl (.more rfl (by decide) (.one rfl)) rfl rfl
  have hfirst : ∀ u ∈ [(⟨.identifier, "a", ⟨7, 1⟩⟩ : Token)], c.Fits .boolean u := by
    simp only [List.mem_singleton, forall_eq]
    exact ⟨by decide, fun _ => ⟨⟨.double, true, true⟩, rfl, rfl, by decide⟩⟩
  have hsecond : ¬ c.Fits .boolean ⟨.identifier, "b", ⟨12, 1⟩⟩ :=
    ScopeChain.not_fits_iff.2 ⟨_, .uninitialized rfl (v := ⟨.boolean, false, false⟩) rfl rfl⟩
  obtain ⟨-, -, houtcome⟩ := condition_outcome c hline
  obtain ⟨f, -, -, hother⟩ := houtcome [_] _ [_] rfl hfirst hsecond
  exact ⟨hline, by decide +kernel, hother line' [] hline'⟩

end BlockCheck
