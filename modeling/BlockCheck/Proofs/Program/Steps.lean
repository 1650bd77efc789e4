import BlockCheck.Program.Check
import BlockCheck.Proofs.Program.LineEffects
import BlockCheck.Proofs.Program.Outcome

/-!
# Steps of the two passes

What one line does to the state of a pass: all that a step outside of methods (`GlobalPass.step_outside`), a step
inside of one (`GlobalPass.step_inside`) and a step of the pass over a method (`MethodPass.step_eq_ok`) can do. Both
passes count blocks alike (`nextDepth`), since both look at the characters of the line only.
-/

namespace BlockCheck

/-! ## The lines of a source -/

theorem Line.newline_not_mem_split (cs : List Char) : ∀ l ∈ split cs, '\n' ∉ l.chars := by
  fun_induction split cs with
  | case1 => exact fun _ hl => absurd hl List.not_mem_nil
  | case2 cs ih | case3 cs ih =>
    intro l hl
    rcases List.mem_cons.1 hl with rfl | hl
    · exact List.not_mem_nil
    · exact ih l hl
  | case4 c cs hnewline _ ih =>
    have hc : '\n' ≠ c := fun h => hnewline h.symm
    cases hsplit : split cs with
    | nil =>
      intro l hl
      rw [extendFirst, List.mem_singleton] at hl
      subst hl
      exact fun h => hc (List.mem_singleton.1 h)
    | cons first rest =>
      rw [hsplit] at ih
      intro l hl
      rcases List.mem_cons.1 hl with rfl | hl
      · exact List.not_mem_cons_of_ne_of_not_mem hc (ih first List.mem_cons_self)
      · exact ih l (List.mem_cons_of_mem _ hl)

namespace Source

variable {s : Source}

theorem newline_not_mem {l : NumberedLine} (h : l ∈ s.numberedLines) : '\n' ∉ l.chars := by
  obtain ⟨⟨line, i⟩, hline, rfl⟩ := List.mem_map.1 h
  have hmem : line ∈ Line.split s.text.toList := s.lines_eq ▸ (List.mem_zipIdx hline).2.2 ▸ List.getElem_mem _
  exact Line.newline_not_mem_split _ line hmem

theorem newline_not_mem_line? {n : Nat} {chars : List Char} (h : s.line? n = some chars) : '\n' ∉ chars := by
  cases n with
  | zero => cases h
  | succ n =>
    obtain ⟨line, hline, rfl⟩ := Option.map_eq_some_iff.1 h
    exact Line.newline_not_mem_split _ line (s.lines_eq ▸ List.mem_of_getElem? hline)

theorem map_chars_numberedLines (s : Source) : s.numberedLines.map NumberedLine.chars = s.lines.map Line.chars := by
  rw [numberedLines, List.map_map, ← List.zipIdx_map_fst 0 s.lines, List.map_map, List.zipIdx_map_fst]
  rfl

/-- Every line can be found by its number, and what follows it. -/
theorem line_of_split {before after : List NumberedLine} {l : NumberedLine}
    (h : s.numberedLines = before ++ l :: after) :
    l.number = before.length + 1 ∧ s.line? l.number = some l.chars ∧ s.linesFrom (l.number + 1) = after := by
  have hget : s.numberedLines[before.length]? = some l := by rw [h]; simp
  rw [numberedLines, List.getElem?_map, Option.map_eq_some_iff] at hget
  obtain ⟨⟨line, i⟩, hzip, rfl⟩ := hget
  rw [List.getElem?_zipIdx, Option.map_eq_some_iff] at hzip
  obtain ⟨line', hline, heq⟩ := hzip
  cases heq
  refine ⟨by simp, ?_, ?_⟩
  · simp [line?, hline]
  · simp [linesFrom, h]

end Source

/-! ## Counting blocks -/

/-- The number of open blocks after a line, when `depth` are open before it. -/
def nextDepth (line : List Char) (depth : Nat) : Option Nat :=
  if opensBlock line then some (depth + 1)
  else if closesBlock line then if depth = 0 then none else some (depth - 1)
  else some depth

theorem nextDepth_of_opens {line : List Char} (h : opensBlock line = true) (depth : Nat) :
    nextDepth line depth = some (depth + 1) := if_pos h

theorem nextDepth_of_closes {line : List Char} (h : closesBlock line = true) (depth : Nat) :
    nextDepth line (depth + 1) = some depth := by
  rw [nextDepth, not_opensBlock_of_closesBlock h, h]
  rfl

theorem nextDepth_of_plain {line : List Char} (hopens : opensBlock line = false) (hcloses : closesBlock line = false)
    (depth : Nat) : nextDepth line depth = some depth := by
  rw [nextDepth, hopens, hcloses]
  rfl

namespace Tracker

variable {t t' : Tracker} {line : List Char} {c c' : ScopeChain}

theorem accept_of_opens (h : opensBlock line = true) :
    t.accept line c = .ok (.opened, { t with depth := t.depth + 1 }, t.openScope c) := if_pos h

theorem accept_of_closes {mode : TrackerMode} {depth : Nat} (h : closesBlock line = true) :
    accept ⟨mode, depth + 1⟩ line c = .ok (.closed, ⟨mode, depth⟩, closeScope ⟨mode, depth + 1⟩ c) := by
  rw [accept, not_opensBlock_of_closesBlock h, h]
  rfl

theorem accept_of_closes_zero {mode : TrackerMode} (h : closesBlock line = true) :
    accept ⟨mode, 0⟩ line c = .error .mismatchedBraces := by
  rw [accept, not_opensBlock_of_closesBlock h, h]
  rfl

theorem accept_of_plain (hopens : opensBlock line = false) (hcloses : closesBlock line = false) :
    t.accept line c = .ok (.unchanged, t, c) := by
  rw [accept, hopens, hcloses]
  rfl

theorem accept_of_blank (h : isBlankLine line = true) : t.accept line c = .ok (.unchanged, t, c) :=
  accept_of_plain (no_braces_of_blank h).1 (no_braces_of_blank h).2

/-- The one thing a line can do wrong is to close a block that is not there. -/
theorem accept_eq_error {f : BlockFault} (h : t.accept line c = .error f) : f = .mismatchedBraces := by
  unfold accept at h
  split at h
  · cases h
  · split at h
    · split at h
      · cases h
        rfl
      · cases h
    · cases h

/-- A tracker counts as `nextDepth` does. -/
theorem nextDepth_of_accept {change : DepthChange} (h : t.accept line c = .ok (change, t', c')) :
    t'.mode = t.mode ∧ nextDepth line t.depth = some t'.depth := by
  obtain ⟨mode, depth⟩ := t
  cases hopens : opensBlock line with
  | true =>
    rw [accept_of_opens hopens] at h
    cases h
    exact ⟨rfl, nextDepth_of_opens hopens depth⟩
  | false =>
    cases hcloses : closesBlock line with
    | true =>
      cases depth with
      | zero => rw [accept_of_closes_zero hcloses] at h; cases h
      | succ depth =>
        rw [accept_of_closes hcloses] at h
        cases h
        exact ⟨rfl, nextDepth_of_closes hcloses depth⟩
    | false =>
      rw [accept_of_plain hopens hcloses] at h
      cases h
      exact ⟨rfl, nextDepth_of_plain hopens hcloses depth⟩

/-- A tracker that only counts leaves the scopes alone. -/
theorem accept_countOnly {depth depth' : Nat} (h : nextDepth line depth = some depth') :
    ∃ change, accept ⟨.countOnly, depth⟩ line c = .ok (change, ⟨.countOnly, depth'⟩, c) := by
  cases hopens : opensBlock line with
  | true =>
    rw [nextDepth_of_opens hopens] at h
    cases h
    exact ⟨.opened, accept_of_opens hopens⟩
  | false =>
    cases hcloses : closesBlock line with
    | true =>
      cases depth with
      | zero => simp [nextDepth, hopens, hcloses] at h
      | succ depth =>
        rw [nextDepth_of_closes hcloses] at h
        cases h
        exact ⟨.closed, accept_of_closes hcloses⟩
    | false =>
      rw [nextDepth_of_plain hopens hcloses] at h
      cases h
      exact ⟨.unchanged, accept_of_plain hopens hcloses⟩

end Tracker

/-! ## The pass over the global scope -/

namespace GlobalPass

variable {c c' : ScopeChain} {d d' : Nat} {hs : List Nat} {line : NumberedLine} {p' : GlobalPass}

theorem track_eq_ok : (⟨c, ⟨.countOnly, d⟩, hs⟩ : GlobalPass).track line = .ok p' ↔
    ∃ d', nextDepth line.chars d = some d' ∧ p' = ⟨c, ⟨.countOnly, d'⟩, hs⟩ := by
  unfold track
  constructor
  · intro h
    split at h
    · cases h
    · next change tracker scopes haccept =>
      cases h
      obtain ⟨mode, depth⟩ := tracker
      obtain ⟨hmode, hdepth⟩ := Tracker.nextDepth_of_accept haccept
      cases hmode
      obtain ⟨change', haccept'⟩ := Tracker.accept_countOnly (c := c) hdepth
      rw [haccept] at haccept'
      cases haccept'
      exact ⟨depth, hdepth, rfl⟩
  · rintro ⟨d', hdepth, rfl⟩
    obtain ⟨change, haccept⟩ := Tracker.accept_countOnly (c := c) hdepth
    simp only [haccept]

/-- Inside of methods a line is only counted. -/
theorem step_inside : (⟨c, ⟨.countOnly, d + 1⟩, hs⟩ : GlobalPass).step line = .ok p' ↔
    ∃ d', nextDepth line.chars (d + 1) = some d' ∧ p' = ⟨c, ⟨.countOnly, d'⟩, hs⟩ := track_eq_ok

theorem readLine_eq_ok : (⟨c, ⟨.countOnly, d⟩, hs⟩ : GlobalPass).readLine line = .ok p' ↔
    closesBlock line.chars = false ∧ ∃ kind? c', c.checkLine line.chars = (.ok kind?, c') ∧
      (∀ kind, kind? = some kind → kind ∈ Placement.global.allowed) ∧
      p' = ⟨c', ⟨.countOnly, d⟩, if kind? = some .methodDeclaration then hs ++ [line.number] else hs⟩ := by
  unfold readLine
  cases closesBlock line.chars with
  | true => exact ⟨fun h => (nomatch h), fun h => (nomatch h.1)⟩
  | false =>
    rw [if_neg Bool.false_ne_true]
    constructor
    · intro h
      split at h
      · cases h
      · next kind? c' hline =>
        cases h
        obtain ⟨hcheck, hallowed⟩ := ScopeChain.checkLineAt_eq_ok.1 hline
        exact ⟨rfl, kind?, c', hcheck, hallowed, rfl⟩
    · rintro ⟨-, kind?, c', hcheck, hallowed, rfl⟩
      rw [ScopeChain.checkLineAt_eq_ok.2 ⟨hcheck, hallowed⟩]

/-- Outside of methods a line is first checked, and then counted. -/
theorem step_outside_eq_ok : (⟨c, ⟨.countOnly, 0⟩, hs⟩ : GlobalPass).step line = .ok p' ↔
    ∃ p₁, (⟨c, ⟨.countOnly, 0⟩, hs⟩ : GlobalPass).readLine line = .ok p₁ ∧ p₁.track line = .ok p' := by
  show (readLine ⟨c, ⟨.countOnly, 0⟩, hs⟩ line >>= fun p => p.track line) = _ ↔ _
  exact bind_eq_ok

/-- A blank line leaves the pass as it is. -/
theorem step_of_blank (h : isBlankLine line.chars = true) (p : GlobalPass) : p.step line = .ok p := by
  have htrack : p.track line = .ok p := by rw [track, Tracker.accept_of_blank h]
  have hread : p.readLine line = .ok p := by
    rw [readLine, (no_braces_of_blank h).2, ScopeChain.checkLineAt_of_blank h]
    rfl
  show ((if p.tracker.isGlobal then p.readLine line else .ok p) >>= fun p => p.track line) = _
  rw [hread, ite_self]
  exact htrack

/-- A declaration of variables or an assignment has no braces. -/
theorem not_brace_of_variables {kind : StatementKind} (h : kind ∈ [StatementKind.variableDeclaration, .assignment]) :
    some kind ∉ [some StatementKind.methodDeclaration, some .conditional, some .closeBlock] := by
  rcases List.mem_pair.1 h with rfl | rfl <;> decide

theorem step_of_variables (hline : '\n' ∉ line.chars)
    (h : c.takeLine [.variableDeclaration, .assignment] line.chars = some c') :
    (⟨c, ⟨.countOnly, 0⟩, hs⟩ : GlobalPass).step line = .ok ⟨c', ⟨.countOnly, 0⟩, hs⟩ := by
  obtain ⟨kind, hkind, hcheck⟩ := ScopeChain.takeLine_eq_some.1 h
  have hplain := not_brace_of_variables hkind
  obtain ⟨hopens, hcloses⟩ := ScopeChain.no_braces_of_checkLine hline hcheck hplain
  have hallowed : ∀ k, some kind = some k → k ∈ Placement.global.allowed :=
    fun k hk => Option.some.inj hk ▸ List.mem_cons_of_mem _ hkind
  have hread : (⟨c, ⟨.countOnly, 0⟩, hs⟩ : GlobalPass).readLine line = .ok ⟨c', ⟨.countOnly, 0⟩, hs⟩ := by
    refine readLine_eq_ok.2 ⟨hcloses, some kind, c', hcheck, hallowed, ?_⟩
    rw [if_neg fun h : some kind = some .methodDeclaration => hplain (by rw [h]; exact List.mem_cons_self)]
  exact step_outside_eq_ok.2 ⟨_, hread, track_eq_ok.2 ⟨0, nextDepth_of_plain hopens hcloses 0, rfl⟩⟩

theorem step_of_header (hline : '\n' ∉ line.chars) (h : c.takeLine [.methodDeclaration] line.chars = some c') :
    (⟨c, ⟨.countOnly, 0⟩, hs⟩ : GlobalPass).step line = .ok ⟨c', ⟨.countOnly, 1⟩, hs ++ [line.number]⟩ := by
  obtain ⟨kind, hkind, hcheck⟩ := ScopeChain.takeLine_eq_some.1 h
  cases List.mem_singleton.1 hkind
  have hopens := (ScopeChain.opensBlock_iff_of_checkLine hline hcheck).2 (.inl rfl)
  have hcloses : closesBlock line.chars = false := Bool.eq_false_iff.2 fun h => by
    cases (ScopeChain.closesBlock_iff_of_checkLine hcheck).1 h
  have hallowed : ∀ k, some StatementKind.methodDeclaration = some k → k ∈ Placement.global.allowed :=
    fun k hk => Option.some.inj hk ▸ List.mem_cons_self
  have hread : (⟨c, ⟨.countOnly, 0⟩, hs⟩ : GlobalPass).readLine line =
      .ok ⟨c', ⟨.countOnly, 0⟩, hs ++ [line.number]⟩ :=
    readLine_eq_ok.2 ⟨hcloses, _, c', hcheck, hallowed, rfl⟩
  exact step_outside_eq_ok.2 ⟨_, hread, track_eq_ok.2 ⟨1, nextDepth_of_opens hopens 0, rfl⟩⟩

/-- Outside of methods a line is blank, or holds a declaration of variables or an assignment, or starts a method. -/
theorem step_outside (hline : '\n' ∉ line.chars) :
    (⟨c, ⟨.countOnly, 0⟩, hs⟩ : GlobalPass).step line = .ok p' ↔
      isBlankLine line.chars = true ∧ p' = ⟨c, ⟨.countOnly, 0⟩, hs⟩ ∨
      (∃ c', c.takeLine [.variableDeclaration, .assignment] line.chars = some c' ∧
        p' = ⟨c', ⟨.countOnly, 0⟩, hs⟩) ∨
      ∃ c', c.takeLine [.methodDeclaration] line.chars = some c' ∧
        p' = ⟨c', ⟨.countOnly, 1⟩, hs ++ [line.number]⟩ := by
  constructor
  · intro h
    obtain ⟨p₁, hread, -⟩ := step_outside_eq_ok.1 h
    obtain ⟨-, kind?, c', hcheck, hallowed, -⟩ := readLine_eq_ok.1 hread
    -- The kind of the statement tells which of the three it is, and with it the state after the line.
    cases kind? with
    | none =>
      obtain ⟨hblank, -⟩ := ScopeChain.checkLine_eq_ok_none.1 hcheck
      exact .inl ⟨hblank, Except.ok.inj (h.symm.trans (step_of_blank hblank _))⟩
    | some kind =>
      rcases List.mem_cons.1 (hallowed kind rfl) with rfl | hkind
      · have htake := ScopeChain.takeLine_eq_some.2 ⟨_, List.mem_singleton.2 rfl, hcheck⟩
        exact .inr (.inr ⟨c', htake, Except.ok.inj (h.symm.trans (step_of_header hline htake))⟩)
      · have htake := ScopeChain.takeLine_eq_some.2 ⟨kind, hkind, hcheck⟩
        exact .inr (.inl ⟨c', htake, Except.ok.inj (h.symm.trans (step_of_variables hline htake))⟩)
  · rintro (⟨hblank, rfl⟩ | ⟨c', htake, rfl⟩ | ⟨c', htake, rfl⟩)
    · exact step_of_blank hblank _
    · exact step_of_variables hline htake
    · exact step_of_header hline htake

end GlobalPass

/-! ## The pass over a method -/

namespace MethodPass

variable {c c' : ScopeChain} {d : Nat} {previous last : Option StatementKind} {line : List Char} {p' : MethodPass}

theorem track_of_opens (h : opensBlock line = true) :
    (⟨c, ⟨.switching, d⟩, previous, last⟩ : MethodPass).track line =
      .ok ⟨c.push, ⟨.switching, d + 1⟩, previous, last⟩ := by
  rw [track, Tracker.accept_of_opens h]
  rfl

theorem track_of_closes (h : closesBlock line = true) :
    (⟨c, ⟨.switching, d + 1⟩, previous, last⟩ : MethodPass).track line =
      .ok ⟨c.pop?.getD c, ⟨.switching, d⟩, previous, last⟩ := by
  rw [track, Tracker.accept_of_closes h]
  rfl

theorem track_of_closes_zero (h : closesBlock line = true) :
    (⟨c, ⟨.switching, 0⟩, previous, last⟩ : MethodPass).track line = .error (.ofBlock .mismatchedBraces) := by
  rw [track, Tracker.accept_of_closes_zero h]

theorem track_of_plain (hopens : opensBlock line = false) (hcloses : closesBlock line = false) :
    (⟨c, ⟨.switching, d⟩, previous, last⟩ : MethodPass).track line =
      .ok ⟨c, ⟨.switching, d⟩, previous, last⟩ := by
  rw [track, Tracker.accept_of_plain hopens hcloses]

theorem readLine_eq_ok {t : Tracker} : (⟨c, t, previous, last⟩ : MethodPass).readLine line = .ok p' ↔
    c.checkLine line = (.ok none, p'.scopes) ∧ p' = ⟨p'.scopes, t, previous, last⟩ ∨
      ∃ kind ∈ Placement.methodBody.allowed, c.checkLine line = (.ok (some kind), p'.scopes) ∧
        p' = ⟨p'.scopes, t, last, some kind⟩ := by
  unfold readLine
  constructor
  · intro h
    split at h
    · cases h
    · next c' hline =>
      cases h
      exact .inl ⟨(ScopeChain.checkLineAt_eq_ok.1 hline).1, rfl⟩
    · next kind c' hline =>
      cases h
      obtain ⟨hcheck, hallowed⟩ := ScopeChain.checkLineAt_eq_ok.1 hline
      exact .inr ⟨kind, hallowed kind rfl, hcheck, rfl⟩
  · rintro (⟨hcheck, hp⟩ | ⟨kind, hallowed, hcheck, hp⟩)
    · rw [ScopeChain.checkLineAt_eq_ok.2 ⟨hcheck, fun _ h => (nomatch h)⟩]
      exact congrArg _ hp.symm
    · rw [ScopeChain.checkLineAt_eq_ok.2 ⟨hcheck, fun _ h => Option.some.inj h ▸ hallowed⟩]
      exact congrArg _ hp.symm

theorem step_eq_ok_iff {p : MethodPass} :
    p.step line = .ok p' ↔ ∃ p₁, p.track line = .ok p₁ ∧ p₁.readLine line = .ok p' := bind_eq_ok

/-- Of the statements of a method, those on a line of their own neither start nor end a block. -/
theorem mem_kinds_iff {kind : StatementKind} : kind ∈ Block.kinds ↔ kind ∈ Placement.methodBody.allowed ∧
    some kind ∉ [some StatementKind.methodDeclaration, some .conditional, some .closeBlock] := by
  cases kind <;> decide

/-- A blank line leaves the pass as it is. -/
theorem step_of_blank (h : isBlankLine line = true) (p : MethodPass) : p.step line = .ok p := by
  have htrack : p.track line = .ok p := by rw [track, Tracker.accept_of_blank h]
  have hread : p.readLine line = .ok p := by rw [readLine, ScopeChain.checkLineAt_of_blank h]
  exact step_eq_ok_iff.2 ⟨p, htrack, hread⟩

theorem step_of_statement {kind : StatementKind} (hline : '\n' ∉ line) (hkind : kind ∈ Block.kinds)
    (h : c.checkLine line = (.ok (some kind), c')) :
    (⟨c, ⟨.switching, d⟩, previous, last⟩ : MethodPass).step line = .ok ⟨c', ⟨.switching, d⟩, last, some kind⟩ := by
  obtain ⟨hallowed, hplain⟩ := mem_kinds_iff.1 hkind
  obtain ⟨hopens, hcloses⟩ := ScopeChain.no_braces_of_checkLine hline h hplain
  exact step_eq_ok_iff.2
    ⟨_, track_of_plain hopens hcloses, readLine_eq_ok.2 (.inr ⟨kind, hallowed, h, rfl⟩)⟩

theorem step_of_conditional (hline : '\n' ∉ line) (h : c.checkLine line = (.ok (some .conditional), c)) :
    (⟨c, ⟨.switching, d⟩, previous, last⟩ : MethodPass).step line =
      .ok ⟨c.push, ⟨.switching, d + 1⟩, last, some .conditional⟩ := by
  have hopens := (ScopeChain.opensBlock_iff_of_checkLine hline h).2 (.inr rfl)
  have hpush := ScopeChain.checkLine_push_conditional.2 ⟨rfl, h⟩
  exact step_eq_ok_iff.2 ⟨_, track_of_opens hopens, readLine_eq_ok.2 (.inr ⟨_, by decide, hpush, rfl⟩)⟩

theorem step_of_closing (h : isClosingLine line = true) :
    (⟨c, ⟨.switching, d + 1⟩, previous, last⟩ : MethodPass).step line =
      .ok ⟨c.pop?.getD c, ⟨.switching, d⟩, last, some .closeBlock⟩ := by
  have hcheck : (c.pop?.getD c).checkLine line = (.ok (some .closeBlock), c.pop?.getD c) :=
    ScopeChain.checkLine_closeBlock_iff.2 ⟨h, rfl⟩
  exact step_eq_ok_iff.2
    ⟨_, track_of_closes ((closesBlock_eq line).trans h), readLine_eq_ok.2 (.inr ⟨_, by decide, hcheck, rfl⟩)⟩

theorem step_of_closing_pop {outer : ScopeChain} (h : isClosingLine line = true) (hpop : c.pop? = some outer) :
    (⟨c, ⟨.switching, d + 1⟩, previous, last⟩ : MethodPass).step line =
      .ok ⟨outer, ⟨.switching, d⟩, last, some .closeBlock⟩ := by
  rw [step_of_closing h, hpop]
  rfl

/-- Inside of a method a line is blank, or holds a statement on a line of its own, or starts a conditional block, or
closes a block. -/
theorem step_eq_ok (hline : '\n' ∉ line) :
    (⟨c, ⟨.switching, d⟩, previous, last⟩ : MethodPass).step line = .ok p' ↔
      isBlankLine line = true ∧ p' = ⟨c, ⟨.switching, d⟩, previous, last⟩ ∨
      (∃ kind ∈ Block.kinds, ∃ c', c.checkLine line = (.ok (some kind), c') ∧
        p' = ⟨c', ⟨.switching, d⟩, last, some kind⟩) ∨
      c.checkLine line = (.ok (some .conditional), c) ∧
        p' = ⟨c.push, ⟨.switching, d + 1⟩, last, some .conditional⟩ ∨
      ∃ d', d = d' + 1 ∧ isClosingLine line = true ∧
        p' = ⟨c.pop?.getD c, ⟨.switching, d'⟩, last, some .closeBlock⟩ := by
  constructor
  · intro h
    obtain ⟨p₁, htrack, hread⟩ := step_eq_ok_iff.1 h
    -- The braces of the line tell what the tracker has done, and with it what statement there can be.
    cases hopens : opensBlock line with
    | true =>
      rw [track_of_opens hopens] at htrack
      cases htrack
      rcases readLine_eq_ok.1 hread with ⟨hcheck, -⟩ | ⟨kind, hallowed, hcheck, -⟩
      · exact ((ScopeChain.opensBlock_iff_of_checkLine hline hcheck).1 hopens).elim nofun nofun
      · rcases (ScopeChain.opensBlock_iff_of_checkLine hline hcheck).1 hopens with hkind | hkind <;> cases hkind
        · exact absurd hallowed (by decide)
        · obtain ⟨-, hcheck⟩ := ScopeChain.checkLine_push_conditional.1 hcheck
          exact .inr (.inr (.inl ⟨hcheck, Except.ok.inj (h.symm.trans (step_of_conditional hline hcheck))⟩))
    | false =>
      cases hcloses : closesBlock line with
      | true =>
        have hclosing : isClosingLine line = true := (closesBlock_eq line).symm.trans hcloses
        cases d with
        | zero => rw [track_of_closes_zero hcloses] at htrack; cases htrack
        | succ d =>
          exact .inr (.inr (.inr ⟨d, rfl, hclosing, Except.ok.inj (h.symm.trans (step_of_closing hclosing))⟩))
      | false =>
        rw [track_of_plain hopens hcloses] at htrack
        cases htrack
        rcases readLine_eq_ok.1 hread with ⟨hcheck, -⟩ | ⟨kind, hallowed, hcheck, hp⟩
        · obtain ⟨hblank, -⟩ := ScopeChain.checkLine_eq_ok_none.1 hcheck
          exact .inl ⟨hblank, Except.ok.inj (h.symm.trans (step_of_blank hblank _))⟩
        · have hopens' := mt (ScopeChain.opensBlock_iff_of_checkLine hline hcheck).2 (Bool.eq_false_iff.1 hopens)
          have hcloses' := mt (ScopeChain.closesBlock_iff_of_checkLine hcheck).2 (Bool.eq_false_iff.1 hcloses)
          have hplain : some kind ∉ [some StatementKind.methodDeclaration, some .conditional, some .closeBlock] := by
            simp only [List.mem_cons, List.not_mem_nil, or_false]
            exact fun h => h.elim (hopens' ∘ .inl) (Or.elim · (hopens' ∘ .inr) hcloses')
          exact .inr (.inl ⟨kind, mem_kinds_iff.2 ⟨hallowed, hplain⟩, p'.scopes, hcheck, hp⟩)
  · rintro (⟨hblank, rfl⟩ | ⟨kind, hkind, c', hcheck, rfl⟩ | ⟨hcheck, rfl⟩ | ⟨d', rfl, hclosing, rfl⟩)
    · exact step_of_blank hblank _
    · exact step_of_statement hline hkind hcheck
    · exact step_of_conditional hline hcheck
    · exact step_of_closing hclosing

end MethodPass

end BlockCheck
