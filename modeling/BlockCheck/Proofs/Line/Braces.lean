import BlockCheck.Proofs.Line.Acceptance
import BlockCheck.Proofs.Token.LastLexeme

/-!
# Braces and statements

A line that is accepted opens a block exactly if its statement is the first line of a method or of a conditional
block, and closes one exactly if its statement is a closing brace (`braces_of_checkLine`). The one is told by the last
token of the statement (`StatementTree.Written.last`), the other by its being the only one
(`StatementTree.Written.alone`).
-/

namespace BlockCheck

/-- A statement of the kind is the first line of a block. -/
def StatementKind.OpensBlock (kind : StatementKind) : Prop := kind = .methodDeclaration ∨ kind = .conditional

namespace StatementTree

variable {st : StatementTree} {ts : List Token}

/-- The last token of a statement is an opening brace if a block starts there. -/
theorem Written.last (h : st.Written ts) : ∃ us t, ts = us ++ [t] ∧ (t.category = .lbrace ↔ st.kind.OpensBlock) := by
  have hother : ∀ {kind : StatementKind} {stop : Token}, stop.category = .semicolon → kind ≠ .methodDeclaration →
      kind ≠ .conditional → (stop.category = .lbrace ↔ kind.OpensBlock) := by
    intro kind stop hstop hmethod hconditional
    rw [hstop]
    exact ⟨fun h => (nomatch h), fun h => (h.elim hmethod hconditional).elim⟩
  cases h with
  | @variableDeclaration type ds keyword stop ts _ _ hstop =>
    exact ⟨keyword :: ts, stop, rfl, hother hstop (by rintro ⟨⟩) (by rintro ⟨⟩)⟩
  | @finalDeclaration type ds first keyword stop ts _ _ _ _ hstop =>
    exact ⟨first :: keyword :: ts, stop, rfl, hother hstop (by rintro ⟨⟩) (by rintro ⟨⟩)⟩
  | @returnStatement first stop _ hstop =>
    exact ⟨[first], stop, rfl, hother hstop (by rintro ⟨⟩) (by rintro ⟨⟩)⟩
  | @conditional _ first left right brace ts _ _ _ _ hbrace =>
    exact ⟨first :: left :: (ts ++ [right]), brace, by simp, fun _ => .inr rfl, fun _ => hbrace⟩
  | @methodDeclaration _ first name left right brace ts _ _ _ _ _ hbrace =>
    exact ⟨first :: name :: left :: (ts ++ [right]), brace, by simp, fun _ => .inl rfl, fun _ => hbrace⟩
  | @assignment target sign value stop _ _ hstop =>
    exact ⟨[target, sign, value], stop, rfl, hother hstop (by rintro ⟨⟩) (by rintro ⟨⟩)⟩
  | @methodCall _ name left right stop ts _ _ _ _ hstop =>
    exact ⟨name :: left :: (ts ++ [right]), stop, by simp, hother hstop (by rintro ⟨⟩) (by rintro ⟨⟩)⟩
  | @closeBlock brace hbrace =>
    refine ⟨[], brace, rfl, ?_⟩
    rw [hbrace]
    exact ⟨fun h => (nomatch h), fun h => h.elim (fun h => (nomatch h)) (fun h => (nomatch h))⟩

/-- A statement is a closing brace if that is all it is written with. -/
theorem Written.alone (h : st.Written ts) : (∃ t, ts = [t] ∧ t.category = .rbrace) ↔ st.kind = .closeBlock := by
  constructor
  · rintro ⟨t, rfl, hbrace⟩
    obtain ⟨first, rest, heq, hkind⟩ := h.classify
    cases heq
    rw [hbrace] at hkind
    exact (Option.some.inj hkind).symm
  · intro hkind
    cases h with
    | closeBlock hbrace => exact ⟨_, rfl, hbrace⟩
    | _ => cases hkind

end StatementTree

/-- A line without a statement has no braces that count. -/
theorem no_braces_of_readLine_empty {line : List Char} (h : readLine line = .empty) :
    opensBlock line = false ∧ closesBlock line = false := by
  constructor
  · rcases readLine_eq_empty_iff.1 h with hcomment | hblank
    · rw [opensBlock, hcomment]
      rfl
    · have hnil : Text.skipBlanks line.reverse = [] :=
        List.dropWhile_eq_nil_iff.2 fun c hc => List.all_eq_true.1 hblank c (List.mem_reverse.1 hc)
      rw [opensBlock, hnil]
      exact Bool.and_false _
  · rw [Bool.eq_false_iff]
    intro hcloses
    obtain ⟨t, ht, -⟩ := closesBlock_iff.1 hcloses
    rw [h] at ht
    cases ht

namespace ScopeChain

variable {c c' : ScopeChain} {line : List Char} {kind? : Option StatementKind}

theorem opensBlock_iff_of_checkLine (hline : '\n' ∉ line) (h : c.checkLine line = (.ok kind?, c')) :
    opensBlock line = true ↔ kind? = some .methodDeclaration ∨ kind? = some .conditional := by
  rcases checkLine_ok h with ⟨rfl, hread, -⟩ | ⟨st, rfl, hfailure, hw, -, -⟩
  · rw [(no_braces_of_readLine_empty hread).1]
    simp
  · obtain ⟨us, t, htokens, hlast⟩ := hw.last
    have hread : readLine line = ⟨us ++ [t], none⟩ := by rw [← htokens, ← hfailure]
    rw [opensBlock_iff hline hread, hlast, Option.some.injEq, Option.some.injEq]
    exact Iff.rfl

theorem closesBlock_iff_of_checkLine (h : c.checkLine line = (.ok kind?, c')) :
    closesBlock line = true ↔ kind? = some .closeBlock := by
  rcases checkLine_ok h with ⟨rfl, hread, -⟩ | ⟨st, rfl, hfailure, hw, -, -⟩
  · rw [(no_braces_of_readLine_empty hread).2]
    simp
  · have hread : readLine line = ⟨(readLine line).tokens, none⟩ := by rw [← hfailure]
    rw [closesBlock_iff, Option.some.injEq, ← hw.alone]
    refine exists_congr fun t => and_congr_left fun _ => ?_
    rw [hread, Reading.mk.injEq]
    exact and_iff_left rfl

/-- A line that is accepted without a statement, or with one that neither starts nor ends a block, has no braces that
count. -/
theorem no_braces_of_checkLine (hline : '\n' ∉ line) (h : c.checkLine line = (.ok kind?, c'))
    (hkind : kind? ∉ [some StatementKind.methodDeclaration, some .conditional, some .closeBlock]) :
    opensBlock line = false ∧ closesBlock line = false := by
  simp only [List.mem_cons, List.not_mem_nil, or_false, not_or] at hkind
  refine ⟨Bool.eq_false_iff.2 fun hopens => ?_, Bool.eq_false_iff.2 fun hcloses => ?_⟩
  · exact ((opensBlock_iff_of_checkLine hline h).1 hopens).elim hkind.1 hkind.2.1
  · exact hkind.2.2 ((closesBlock_iff_of_checkLine h).1 hcloses)

/-- **The two readings of a line agree.** The braces counted on an accepted line are those of its statement. -/
theorem braces_of_checkLine (hline : '\n' ∉ line) (h : (c.checkLine line).1 = .ok kind?) :
    (opensBlock line = true ↔ kind? = some .methodDeclaration ∨ kind? = some .conditional) ∧
      (closesBlock line = true ↔ kind? = some .closeBlock) := by
  have hpair : c.checkLine line = (.ok kind?, (c.checkLine line).2) := by rw [← h]
  exact ⟨opensBlock_iff_of_checkLine hline hpair, closesBlock_iff_of_checkLine hpair⟩

/-- The line opens a block, though a blank follows its brace. -/
theorem braces_of_while_line :
    '\n' ∉ "while (true) \x7b ".toList ∧
      (ScopeChain.empty.checkLine "while (true) \x7b ".toList).1 = .ok (some .conditional) ∧
      opensBlock "while (true) \x7b ".toList = true := by
  have hline : '\n' ∉ "while (true) \x7b ".toList := by decide
  have h : (ScopeChain.empty.checkLine "while (true) \x7b ".toList).1 = .ok (some .conditional) := by rfl
  exact ⟨hline, h, (braces_of_checkLine hline h).1.2 (.inr rfl)⟩

end ScopeChain

end BlockCheck
