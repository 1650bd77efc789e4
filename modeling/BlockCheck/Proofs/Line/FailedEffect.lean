import BlockCheck.Proofs.Line.Effect
import BlockCheck.Proofs.Line.LeadingDeclarators
import BlockCheck.Proofs.Token.Pieces

/-!
# What a rejected line does to the scopes

What a line has done before it fails is not undone. Most lines have done nothing by then: those that are not
classified, those whose statement changes nothing, and assignments and method heads that fail before their end. An
assignment or a method head that is followed by more tokens is done, as it is on the line that is cut behind it
(`FailsBehind`). A declaration has declared the longest run of its declarators that is accepted. `failed_line_effect`
says this of every line that fails.
-/

namespace BlockCheck

open Step LineM

/-! ## Statements that fail -/

namespace Grammar

open Cursor

section Fail

variable {P : ScopeChain → Prop} {s s' : LineState} {first : Token} {kind : StatementKind} {f : LineFault}

/-- The end of a statement is only missed where a token follows, and this is the fault. -/
theorem finish_error (h : (liftM finish : LineM Unit) s = .error f s') :
    ∃ t r, s.ahead = Reading.cons t r ∧ s'.scopes = s.scopes ∧
      f = .ofSyntax (.unexpectedToken .endOfStatement (some t.category) (some t.span)) := by
  have hrun : finish s.cursor =
      (if s.cursor.next.isSome then throw (s.cursor.unexpected .endOfStatement) else pure () : CursorM Unit) s.cursor :=
    rfl
  have hfinish : ofCursor finish s = .error f s' := h
  rw [ofCursor, hrun] at hfinish
  cases hn : s.cursor.next with
  | none =>
    rw [hn] at hfinish
    cases hfinish
  | some t =>
    rw [hn] at hfinish
    cases hfinish
    refine ⟨t, s.cursor.scanner.reading, ahead_some hn, rfl, ?_⟩
    simp [Cursor.unexpected, Cursor.nextCategory, hn]

/-- The statements that change nothing. -/
theorem form_scoped_of_steady
    (hkind : kind ∈ [StatementKind.conditional, .returnStatement, .methodCall, .closeBlock]) :
    Scoped P (form first kind) Any := by
  simp only [List.mem_cons, List.not_mem_nil, or_false] at hkind
  rcases hkind with rfl | rfl | rfl | rfl
  · exact conditional_scoped
  · exact scoped_skip _
  · exact methodCall_scoped first
  · exact scoped_pure trivial

/-- The statements that change something at their end only. -/
theorem form_ends (hkind : kind ∈ [StatementKind.assignment, .methodDeclaration]) :
    Ends P (fun _ => True) (form first kind) := by
  simp only [List.mem_cons, List.not_mem_nil, or_false] at hkind
  rcases hkind with rfl | rfl
  · exact assignment_ends first fun _ _ => trivial
  · exact methodDeclaration_ends fun _ _ _ _ _ _ => trivial

/-- What a form leaves is left when the end of the line is required. -/
theorem statement_leaves {c : ScopeChain} (h : (form first kind).Leaves s c) : (statement first kind).Leaves s c :=
  h.bind fun _ s₁ hs₁ => hs₁ ▸ leaves_ofCursor finish s₁

/-- A statement fails in its form or behind it. -/
theorem statement_error (h : statement first kind s = .error f s') :
    form first kind s = .error f s' ∨
      ∃ u s₁, form first kind s = .ok u s₁ ∧ (liftM finish : LineM Unit) s₁ = .error f s' := by
  have hbind : EStateM.bind (form first kind) (fun _ => (liftM finish : LineM Unit)) s = .error f s' := h
  unfold EStateM.bind at hbind
  cases hform : form first kind s with
  | ok u s₁ =>
    rw [hform] at hbind
    exact .inr ⟨u, s₁, rfl, hbind⟩
  | error g s₁ =>
    rw [hform] at hbind
    exact .inl hbind

end Fail

end Grammar

/-! ## Lines that fail -/

section Lines

variable {c c' : ScopeChain} {line : List Char} {e : LineFault} {kind : StatementKind}

/-- A line that fails is not classified, or the statement that it starts with fails. -/
theorem ScopeChain.checkLine_error (h : c.checkLine line = (.error e, c')) :
    (∃ f, classifyLine line = .error f) ∧ c' = c ∨
      ∃ first kind cursor s', classifyLine line = .ok (some kind) ∧
        StatementKind.ofCategories? first.category (cursor.next.map Token.category) = some kind ∧
        readLine line = cursor.ahead.cons first ∧ Grammar.statement first kind ⟨c, cursor⟩ = .error e s' ∧
        s'.scopes = c' := by
  unfold checkLine at h
  unfold classifyLine
  cases hcursor : Cursor.ofLine line with
  | error f =>
    rw [hcursor] at h
    cases h
    exact .inl ⟨⟨f, rfl⟩, rfl⟩
  | ok cursor =>
    simp only [hcursor] at h
    have hfirst := Cursor.ofScanner_ok hcursor
    unfold Cursor.beginning at h
    rcases hfirst with ⟨hnone, -⟩ | ⟨first, hsome, hread⟩
    · rw [hnone] at h
      cases h
    · cases hkind : StatementKind.classify first cursor.next with
      | error f =>
        simp only [hsome, hkind] at h
        cases h
        exact .inl ⟨⟨f, by simp [Cursor.beginning, hsome, hkind, bind, Except.bind]⟩, rfl⟩
      | ok kind =>
        simp only [hsome, hkind] at h
        cases hstatement : Grammar.statement first kind ⟨c, cursor⟩ with
        | ok u s' => simp [hstatement] at h
        | error f s' =>
          simp only [hstatement, Prod.mk.injEq, Except.error.injEq] at h
          obtain ⟨rfl, rfl⟩ := h
          refine .inr ⟨first, kind, cursor, s', ?_, StatementKind.classify_eq_ok.1 hkind, hread, hstatement, rfl⟩
          simp [Cursor.beginning, hsome, hkind, bind, Except.bind, pure, Except.pure]

/-- The fault is that of a token behind a statement, and this statement is what is kept of the line. -/
def FailsBehind (kept line : List Char) (e : LineFault) : Prop :=
  ∃ cut ts t rest, line = kept ++ cut ∧ readLine kept = ⟨ts, none⟩ ∧ (readLine line).tokens = ts ++ t :: rest ∧
    e = .ofSyntax (.unexpectedToken .endOfStatement (some t.category) (some t.span))

/-- **The effect of a line with more tokens behind its statement** is that of the line which ends in front of them. -/
theorem ScopeChain.checkLine_kept {first t : Token} {cursor : Cursor} {s₁ : LineState} {u : Unit} {r : Reading}
    (hkind : StatementKind.ofCategories? first.category (cursor.next.map Token.category) = some kind)
    (hread : readLine line = cursor.ahead.cons first) (hform : Grammar.form first kind ⟨c, cursor⟩ = .ok u s₁)
    (hbehind : s₁.ahead = r.cons t) : ∃ kept,
      FailsBehind kept line (.ofSyntax (.unexpectedToken .endOfStatement (some t.category) (some t.span))) ∧
        c.checkLine kept = (.ok (some kind), s₁.scopes) := by
  obtain ⟨st, ts, rfl, hw, ha, hlegal, hc₁⟩ := Grammar.form_ok hkind hform
  have hahead : cursor.ahead = ts ++ r.cons t := by rw [← hbehind, ← ha]; rfl
  have htokens : (readLine line).tokens = (first :: ts) ++ t :: r.tokens := by rw [hread, hahead]; rfl
  obtain ⟨kept, cut, hline, hkept⟩ := readLine_cut htokens (List.cons_ne_nil first ts)
  refine ⟨kept, ⟨cut, first :: ts, t, r.tokens, hline, hkept, htokens, rfl⟩, ?_⟩
  rw [hc₁]
  exact checkLine_of_legal (by rw [hkept]) (by rw [hkept]; exact hw) hlegal

end Lines

/-- **The effect of a rejected line.** A line that is not classified changes nothing, nor does one whose statement
changes nothing. An assignment or a method head changes nothing either, unless a token behind it is the fault: then the
scopes are those after the line that is cut in front of this token. A declaration has added the longest run of its
leading declarators that is accepted to the innermost scope, and nothing else is changed. -/
theorem failed_line_effect {c c' : ScopeChain} {line : List Char} {e : LineFault}
    (h : c.checkLine line = (.error e, c')) :
    classifyLine line ≠ .ok none ∧
    (∀ f, classifyLine line = .error f → c' = c) ∧
    (∀ kind ∈ [StatementKind.conditional, .returnStatement, .methodCall, .closeBlock],
      classifyLine line = .ok (some kind) → c' = c) ∧
    (∀ kind ∈ [StatementKind.assignment, .methodDeclaration], classifyLine line = .ok (some kind) →
      (¬ e.IsTrailing → c' = c) ∧
      (e.IsTrailing → ∃ kept, FailsBehind kept line e ∧ c.checkLine kept = (.ok (some kind), c'))) ∧
    (classifyLine line = .ok (some .variableDeclaration) →
      (∀ isFinal type r, DeclarationHead (readLine line) isFinal type r →
        ∃ ds, IsLongestRun isFinal type c r ds ∧
          c'.toList = c.toList.modify c.last
            (·.withVariables (ds.map fun d => (d.name.name, ⟨type, isFinal, d.value.isSome⟩)))) ∧
      ((∀ isFinal type r, ¬ DeclarationHead (readLine line) isFinal type r) → c' = c)) := by
  rcases ScopeChain.checkLine_error h with ⟨⟨f, hf⟩, rfl⟩ | ⟨first, kind, cursor, s', hclass, hkind, hread, hs', rfl⟩
  · simp [hf]
  · have hform : ∀ {c₁}, (Grammar.form first kind).Leaves ⟨c, cursor⟩ c₁ → s'.scopes = c₁ := fun hleaves =>
      (Grammar.statement_leaves hleaves).of_error hs'
    rw [hclass]
    refine ⟨by simp, by simp, ?_, ?_, ?_⟩
    · rintro kind hsteady ⟨⟩
      exact hform (leaves_of_scoped (Grammar.form_scoped_of_steady hsteady) rfl)
    · rintro kind hends ⟨⟩
      have hkeep : Ends (· = c) (fun _ => True) (Grammar.form first kind) := Grammar.form_ends hends
      rcases Grammar.statement_error hs' with herror | ⟨u, s₁, hok, hfinish⟩
      · have hkept := hkeep ⟨c, cursor⟩ rfl
        rw [herror] at hkept
        exact ⟨fun _ => hkept.1, fun htrailing => absurd htrailing hkept.2⟩
      · obtain ⟨t, r, hbehind, hscopes, rfl⟩ := Grammar.finish_error hfinish
        obtain ⟨kept, hbehind, hchecked⟩ := ScopeChain.checkLine_kept hkind hread hok hbehind
        exact ⟨fun hnot => absurd trivial hnot, fun _ => ⟨kept, hbehind, hscopes ▸ hchecked⟩⟩
    · rintro ⟨⟩
      obtain ⟨hrun, hnone⟩ := Grammar.variableDeclaration_leaves first ⟨c, cursor⟩
      rw [hread]
      refine ⟨fun isFinal type r hhead => ?_, fun hnohead => hform (hnone hnohead)⟩
      obtain ⟨ds, hlongest, hleaves⟩ := hrun isFinal type r hhead
      exact ⟨ds, hlongest, by rw [hform hleaves]; exact c.toList_withVariables _⟩

/-- Of three declarators the third declares a name again: the first two stay declared. -/
theorem failed_line_effect_of_redeclaration :
    let line := "int a = 1, b, a = 2;".toList
    let c' : ScopeChain := .global { vars := ⟨[("a", ⟨.int, false, true⟩), ("b", ⟨.int, false, false⟩)]⟩ }
    ScopeChain.empty.checkLine line = (.error (.ofRule (.variableAlreadyDeclared "a" ⟨14, 1⟩)), c') ∧
      ∃ r ds, DeclarationHead (readLine line) false .int r ∧ IsLongestRun false .int .empty r ds ∧
        c'.toList = [Scope.withVariables {} (ds.map fun d => (d.name.name, ⟨.int, false, d.value.isSome⟩))] := by
  intro line c'
  have h : ScopeChain.empty.checkLine line = (.error (.ofRule (.variableAlreadyDeclared "a" ⟨14, 1⟩)), c') := by
    decide +kernel
  have hclass : classifyLine line = .ok (some .variableDeclaration) := by decide +kernel
  obtain ⟨r, hread⟩ : ∃ r, readLine line = Reading.cons ⟨.kwInt, none, ⟨0, 3⟩⟩ r :=
    ⟨⟨(readLine line).tokens.tail, none⟩, by decide +kernel⟩
  have hhead : DeclarationHead (readLine line) false .int r := by
    rw [hread]
    exact .plain rfl
  obtain ⟨-, -, -, -, hdeclaration⟩ := failed_line_effect h
  obtain ⟨ds, hlongest, hscopes⟩ := (hdeclaration hclass).1 false .int r hhead
  exact ⟨h, r, ds, hhead, hlongest, hscopes⟩

end BlockCheck
