import BlockCheck.Proofs.Line.Forms

/-!
# The lines that are accepted

A line is accepted with a statement exactly if its tokens are those of a legal statement of that kind, and the scopes
become what the statement makes of them (`checkLine_eq_ok_some_iff`). It is accepted without a statement exactly if it
is blank or a comment (`checkLine_eq_ok_none_iff`). `checkLine_ok_iff_legal` says both in terms of the line itself.
-/

namespace BlockCheck

open Step LineM

/-! ## Kinds of statement -/

/-- The first two tokens of a statement tell its kind. -/
theorem StatementTree.Written.classify {st : StatementTree} {ts : List Token} (h : st.Written ts) :
    ∃ first rest, ts = first :: rest ∧
      StatementKind.ofCategories? first.category (rest.head?.map Token.category) = some st.kind := by
  cases h with
  | @variableDeclaration type ds keyword stop ts hkeyword _ _ =>
    refine ⟨keyword, ts ++ [stop], rfl, ?_⟩
    rw [hkeyword]
    cases type <;> rfl
  | finalDeclaration hfirst _ _ _ _ => exact ⟨_, _, rfl, by rw [hfirst]; rfl⟩
  | returnStatement hfirst _ => exact ⟨_, _, rfl, by rw [hfirst]; rfl⟩
  | @conditional _ first _ _ _ _ hfirst _ _ _ _ =>
    refine ⟨first, _, rfl, ?_⟩
    rcases List.mem_pair.1 hfirst with h | h <;> rw [h] <;> rfl
  | methodDeclaration hfirst _ _ _ _ _ => exact ⟨_, _, rfl, by rw [hfirst]; rfl⟩
  | assignment htarget hsign _ =>
    refine ⟨_, _, rfl, ?_⟩
    rw [List.head?_cons, Option.map_some, htarget, hsign]
    rfl
  | methodCall hname hleft _ _ _ =>
    refine ⟨_, _, rfl, ?_⟩
    rw [List.head?_cons, Option.map_some, hname, hleft]
    rfl
  | closeBlock hbrace => exact ⟨_, _, rfl, by rw [hbrace]; rfl⟩

theorem StatementKind.classify_eq_ok {first : Token} {second : Option Token} {kind : StatementKind} :
    classify first second = .ok kind ↔ ofCategories? first.category (second.map Token.category) = some kind := by
  unfold classify
  cases ofCategories? first.category (second.map Token.category) <;> simp

/-! ## Whole statements -/

namespace Grammar

section Statements

variable {s s' : LineState} {first : Token} {kind : StatementKind} {second : Option Category} {u : Unit}

theorem statement_ok (hkind : StatementKind.ofCategories? first.category second = some kind)
    (h : statement first kind s = .ok u s') :
    ∃ st : StatementTree, st.kind = kind ∧ s.ahead.failure = none ∧ st.Written (first :: s.ahead.tokens) ∧
      st.Legal s.scopes ∧ s'.scopes = st.effect s.scopes := by
  obtain ⟨_, s₁, h₁, k₁⟩ := bind_ok h
  obtain ⟨st, ts, hst, hw, ha₁, hlegal, hc₁⟩ := form_ok hkind h₁
  obtain ⟨hend, hc₂⟩ := finish_ok k₁
  rw [ha₁, hend, Reading.append_empty]
  exact ⟨st, hst, rfl, hw, hlegal, hc₂.trans hc₁⟩

theorem statement_yields {st : StatementTree} (hfailure : s.ahead.failure = none)
    (hw : st.Written (first :: s.ahead.tokens)) (hlegal : st.Legal s.scopes) :
    (statement first st.kind).Yields s () (st.effect s.scopes) .empty := by
  have ha : s.ahead = s.ahead.tokens ++ Reading.empty := by rw [Reading.append_empty, ← hfailure]
  refine Yields.bind (form_yields hw ha hlegal Reading.clear_empty) fun s₁ hc₁ ha₁ => ?_
  exact hc₁ ▸ finish_yields ha₁

end Statements

end Grammar

/-! ## Lines -/

namespace ScopeChain

variable {c c' : ScopeChain} {line : List Char} {kind : StatementKind}

/-- What a success of a line says about its cursor. -/
theorem checkLine_ok {kind? : Option StatementKind} (h : c.checkLine line = (.ok kind?, c')) :
    kind? = none ∧ readLine line = .empty ∧ c' = c ∨
      ∃ st : StatementTree, kind? = some st.kind ∧ (readLine line).failure = none ∧
        st.Written (readLine line).tokens ∧ st.Legal c ∧ c' = st.effect c := by
  unfold checkLine at h
  split at h
  · cases h
  · next cursor hcursor =>
    have hfirst := Cursor.ofScanner_ok hcursor
    unfold Cursor.beginning at h
    rcases hfirst with ⟨hnone, hread⟩ | ⟨first, hsome, hread⟩
    · rw [hnone] at h
      cases h
      exact .inl ⟨rfl, hread, rfl⟩
    · rw [hsome] at h
      cases hkind : StatementKind.classify first cursor.next with
      | error f => simp [hkind] at h
      | ok kind =>
        simp only [hkind] at h
        split at h
        · next u s hs =>
          cases h
          obtain ⟨st, rfl, hfailure, hw, hlegal, hc⟩ := Grammar.statement_ok (StatementKind.classify_eq_ok.1 hkind) hs
          refine .inr ⟨st, rfl, ?_⟩
          show (Scanner.ofLine line).reading.failure = none ∧ st.Written (Scanner.ofLine line).reading.tokens ∧ _
          rw [hread]
          exact ⟨hfailure, hw, hlegal, hc⟩
        · cases h

/-- A line without tokens is accepted and changes nothing. -/
theorem checkLine_of_readLine_empty (c : ScopeChain) (h : readLine line = .empty) :
    c.checkLine line = (.ok none, c) := by
  have hcursor : Cursor.ofLine line = .ok ⟨none, none, .ofLine line⟩ := Cursor.ofScanner_of_reading_empty h
  simp only [checkLine, hcursor, Cursor.beginning]

/-- A line that holds a legal statement is accepted. -/
theorem checkLine_of_legal {st : StatementTree} (hfailure : (readLine line).failure = none)
    (hw : st.Written (readLine line).tokens) (hlegal : st.Legal c) :
    c.checkLine line = (.ok (some st.kind), st.effect c) := by
  obtain ⟨first, rest, htokens, hkind⟩ := hw.classify
  have hread : (Scanner.ofLine line).reading = Reading.cons first ⟨rest, none⟩ := by
    show readLine line = _
    rw [Reading.cons, ← htokens, ← hfailure]
  obtain ⟨cursor, hcursor, hcurrent, hahead⟩ := Cursor.ofScanner_of_reading_cons hread fun _ => rfl
  have hnext : cursor.next = rest.head? := by rw [← Cursor.head?_ahead, hahead]
  have hbeginning : cursor.beginning = .ok (some (first, st.kind)) := by
    simp only [Cursor.beginning, hcurrent, hnext, StatementKind.classify_eq_ok.2 hkind]
  have hstate : (⟨c, cursor⟩ : LineState).ahead = ⟨rest, none⟩ := hahead
  have hstatement : (Grammar.statement first st.kind).Yields ⟨c, cursor⟩ () (st.effect c) .empty :=
    Grammar.statement_yields (by rw [hstate]) (by rw [hstate, ← htokens]; exact hw) hlegal
  obtain ⟨s', hs, hc, -⟩ := hstatement
  have hline : Cursor.ofLine line = .ok cursor := hcursor
  simp only [checkLine, hline, hbeginning, hs, hc]

/-- **The lines with a statement.** -/
theorem checkLine_eq_ok_some_iff : c.checkLine line = (.ok (some kind), c') ↔
    ∃ st : StatementTree, st.kind = kind ∧ (readLine line).failure = none ∧ st.Written (readLine line).tokens ∧
      st.Legal c ∧ c' = st.effect c := by
  constructor
  · intro h
    rcases checkLine_ok h with ⟨hnone, _⟩ | ⟨st, hkind, hst⟩
    · cases hnone
    · cases hkind
      exact ⟨st, rfl, hst⟩
  · rintro ⟨st, rfl, hfailure, hw, hlegal, rfl⟩
    exact checkLine_of_legal hfailure hw hlegal

/-- **The lines without a statement.** -/
theorem checkLine_eq_ok_none_iff : c.checkLine line = (.ok none, c') ↔
    (isComment line = true ∨ Text.allBlank line = true) ∧ c' = c := by
  rw [← readLine_eq_empty_iff]
  constructor
  · intro h
    rcases checkLine_ok h with ⟨_, hread, hc⟩ | ⟨st, hkind, _⟩
    · exact ⟨hread, hc⟩
    · cases hkind
  · rintro ⟨hread, rfl⟩
    exact checkLine_of_readLine_empty c' hread

/-- **What is accepted.** A line is accepted as a statement of a kind exactly if it is no comment, can be read to its
end, and its tokens are written as a statement of the kind that is legal in the scopes. -/
theorem checkLine_ok_iff_legal (c : ScopeChain) (line : List Char) (kind : StatementKind) :
    (c.checkLine line).1 = .ok (some kind) ↔
      isComment line = false ∧ (readLine line).failure = none ∧
        ∃ st : StatementTree, st.kind = kind ∧ st.Written (readLine line).tokens ∧ st.Legal c := by
  constructor
  · intro h
    have hpair : c.checkLine line = (.ok (some kind), (c.checkLine line).2) := by rw [← h]
    obtain ⟨st, hkind, hfailure, hw, hlegal, -⟩ := checkLine_eq_ok_some_iff.1 hpair
    refine ⟨Bool.eq_false_iff.2 fun hcomment => ?_, hfailure, st, hkind, hw, hlegal⟩
    obtain ⟨first, rest, htokens, -⟩ := hw.classify
    rw [readLine_eq_empty_iff.2 (.inl hcomment)] at htokens
    cases htokens
  · rintro ⟨-, hfailure, st, rfl, hw, hlegal⟩
    rw [checkLine_of_legal hfailure hw hlegal]

end ScopeChain

end BlockCheck
