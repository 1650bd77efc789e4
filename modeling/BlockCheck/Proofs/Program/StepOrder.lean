import BlockCheck.Proofs.Program.BlockRuns
import BlockCheck.Proofs.Program.Tracked

/-!
# The order of accepting and checking a line

The pass over a method takes a line into account before it checks it, so that a condition is checked inside of the block
that it opens, and a closing brace outside of the one that it closes. The pass over the global scope has it the other
way round. On lines that are accepted the order does not matter, unless the line declares a method
(`accept_check_comm`): either order comes to the same three cases (`Tracked.Takes`), which say what a line does without
saying when it is checked.
-/

namespace BlockCheck

/-- What an accepted line does, other than declare a method. A condition is right in the scopes in front of its block, a
closing brace is right everywhere, and a line without braces that count leaves the tracker as it is. -/
inductive Tracked.Takes (line : List Char) (s : Tracked) : DepthChange → Option StatementKind → Tracked → Prop
  | condition : opensBlock line = true → s.scopes.checkLine line = (.ok (some .conditional), s.scopes) →
      Takes line s .opened (some .conditional)
        ⟨⟨s.tracker.mode, s.tracker.depth + 1⟩, s.tracker.openScope s.scopes⟩
  | closing {depth : Nat} : closesBlock line = true → s.tracker.depth = depth + 1 →
      Takes line s .closed (some .closeBlock) ⟨⟨s.tracker.mode, depth⟩, s.tracker.closeScope s.scopes⟩
  | plain {kind? : Option StatementKind} {c : ScopeChain} : opensBlock line = false → closesBlock line = false →
      s.scopes.checkLine line = (.ok kind?, c) → Takes line s .unchanged kind? ⟨s.tracker, c⟩

namespace ScopeChain

variable {c c' : ScopeChain} {line : List Char}

/-- A condition is checked alike before and after the tracker has opened a scope for its block. -/
theorem checkLine_openScope_conditional (t : Tracker) :
    (t.openScope c).checkLine line = (.ok (some .conditional), c') ↔
      c' = t.openScope c ∧ c.checkLine line = (.ok (some .conditional), c) := by
  obtain ⟨mode, depth⟩ := t
  cases mode with
  | switching => exact checkLine_push_conditional
  | countOnly =>
    constructor
    · intro h
      have hc : c' = c := scopes_of_conditional h
      exact ⟨hc, hc ▸ h⟩
    · rintro ⟨rfl, h⟩
      exact h

end ScopeChain

namespace TrackedM

variable {line : List Char} {s s' : Tracked} {change : DepthChange} {kind? : Option StatementKind}

/-- A line that opens a block and does not declare a method is a condition. -/
theorem conditional_of_opens {c c' : ScopeChain} (hline : '\n' ∉ line) (hmethod : kind? ≠ some .methodDeclaration)
    (hopens : opensBlock line = true) (h : c.checkLine line = (.ok kind?, c')) : kind? = some .conditional :=
  ((ScopeChain.opensBlock_iff_of_checkLine hline h).1 hopens).resolve_left hmethod

/-- What a line does that is taken into account and then checked. -/
theorem acceptThenCheck_iff_takes (hline : '\n' ∉ line) (hmethod : kind? ≠ some .methodDeclaration) :
    acceptThenCheck line s = .ok (change, kind?) s' ↔ s.Takes line change kind? s' := by
  rw [acceptThenCheck_eq_ok]
  constructor
  · rintro ⟨s₁, haccept, hcheck⟩
    obtain ⟨tracker', c'⟩ := s'
    obtain ⟨hcheck, htracker⟩ := checkLine_eq_ok.1 hcheck
    cases htracker
    rcases accept_cases haccept with
      ⟨hopens, rfl, rfl⟩ | ⟨hcloses, rfl, depth, hdepth, rfl⟩ | ⟨hopens, hcloses, rfl, rfl⟩
    · cases conditional_of_opens hline hmethod hopens hcheck
      obtain ⟨rfl, hbefore⟩ := (ScopeChain.checkLine_openScope_conditional s.tracker).1 hcheck
      exact .condition hopens hbefore
    · cases hcheck.symm.trans (ScopeChain.checkLine_of_closesBlock hcloses _)
      exact .closing hcloses hdepth
    · exact .plain hopens hcloses hcheck
  · intro h
    cases h with
    | condition hopens hcheck =>
      have hinside := (ScopeChain.checkLine_openScope_conditional s.tracker).2 ⟨rfl, hcheck⟩
      exact ⟨_, accept_of_opens hopens s, checkLine_eq_ok.2 ⟨hinside, rfl⟩⟩
    | closing hcloses hdepth =>
      have hbehind := ScopeChain.checkLine_of_closesBlock hcloses (s.tracker.closeScope s.scopes)
      exact ⟨_, accept_of_closes hcloses hdepth, checkLine_eq_ok.2 ⟨hbehind, rfl⟩⟩
    | plain hopens hcloses hcheck =>
      exact ⟨s, accept_of_plain hopens hcloses s, checkLine_eq_ok.2 ⟨hcheck, rfl⟩⟩

/-- What a line does that is checked and then taken into account. -/
theorem checkThenAccept_iff_takes (hline : '\n' ∉ line) (hmethod : kind? ≠ some .methodDeclaration) :
    checkThenAccept line s = .ok (change, kind?) s' ↔ s.Takes line change kind? s' := by
  rw [checkThenAccept_eq_ok]
  constructor
  · rintro ⟨⟨tracker, c'⟩, hcheck, haccept⟩
    obtain ⟨hcheck, htracker⟩ := checkLine_eq_ok.1 hcheck
    cases htracker
    rcases accept_cases haccept with
      ⟨hopens, rfl, rfl⟩ | ⟨hcloses, rfl, depth, hdepth, rfl⟩ | ⟨hopens, hcloses, rfl, rfl⟩
    · cases conditional_of_opens hline hmethod hopens hcheck
      cases ScopeChain.scopes_of_conditional hcheck
      exact .condition hopens hcheck
    · cases hcheck.symm.trans (ScopeChain.checkLine_of_closesBlock hcloses _)
      exact .closing hcloses hdepth
    · exact .plain hopens hcloses hcheck
  · intro h
    cases h with
    | condition hopens hcheck =>
      exact ⟨s, checkLine_eq_ok.2 ⟨hcheck, rfl⟩, accept_of_opens hopens s⟩
    | closing hcloses hdepth =>
      have hbefore := ScopeChain.checkLine_of_closesBlock hcloses s.scopes
      exact ⟨s, checkLine_eq_ok.2 ⟨hbefore, rfl⟩, accept_of_closes hcloses hdepth⟩
    | @plain _ c hopens hcloses hcheck =>
      exact ⟨⟨s.tracker, c⟩, checkLine_eq_ok.2 ⟨hcheck, rfl⟩, accept_of_plain hopens hcloses _⟩

/-- **Accepting and checking a line commute.** Whatever the tracker and the scopes are: if one of the two orders
succeeds, with a statement that does not declare a method or without one, then the other one succeeds as well, with the
same change of depth and the same kind of statement, and leaves the same tracker and the same scopes. -/
theorem accept_check_comm (hline : '\n' ∉ line) (hmethod : kind? ≠ some .methodDeclaration) :
    acceptThenCheck line s = .ok (change, kind?) s' ↔ checkThenAccept line s = .ok (change, kind?) s' := by
  rw [acceptThenCheck_iff_takes hline hmethod, checkThenAccept_iff_takes hline hmethod]

/-- The condition of a block is checked in the block and in front of it, with a parameter that has a value. -/
theorem accept_check_comm_of_condition :
    let s : Tracked := ⟨⟨.switching, 1⟩, .block { vars := ⟨[("a", .parameter .int false)]⟩ } (.global {})⟩
    let s' : Tracked := ⟨⟨.switching, 2⟩, s.scopes.push⟩
    let line := "while (a || true) \x7b".toList
    '\n' ∉ line ∧ s.InLockstep ∧ acceptThenCheck line s = .ok (.opened, some .conditional) s' ∧
      checkThenAccept line s = .ok (.opened, some .conditional) s' := by
  intro s s' line
  have hline : '\n' ∉ line := by decide
  have hmethod : some StatementKind.conditional ≠ some .methodDeclaration := by decide
  have hopens : opensBlock line = true := by decide +kernel
  have hcheck : s.scopes.push.checkLine line = (.ok (some .conditional), s.scopes.push) := by decide +kernel
  have hstep : acceptThenCheck line s = .ok (.opened, some .conditional) s' :=
    acceptThenCheck_eq_ok.2 ⟨s', accept_of_opens hopens s, checkLine_eq_ok.2 ⟨hcheck, rfl⟩⟩
  exact ⟨hline, rfl, hstep, (accept_check_comm hline hmethod).1 hstep⟩

end TrackedM

end BlockCheck
