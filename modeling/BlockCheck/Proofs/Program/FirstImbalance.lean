import BlockCheck.Proofs.Program.Depth
import Mathlib.Data.Nat.Find

/-!
# Braces that do not match

The balance of the first lines of a source is the number of lines among them that open a block, less the number of
those that close one (`Source.balance`). A source is rejected for its braces exactly at the first line where the balance
falls below 0, or at its last line if the balance never does and ends above 0 (`mismatchedBraces_iff`). In both cases
no line outside of methods has been rejected before; the scopes in which these lines are read are `Source.globalScopes`.

The first pass follows the balance (`GlobalPass.Follows`): a line can be taken into account if the balance after it is
not negative and, where the balance before it is 0, the line is accepted (`GlobalPass.Follows.step`,
`GlobalPass.Follows.exists_step`).
-/

namespace BlockCheck

/-! ## The balance of lines -/

/-- What a line adds to the balance. -/
def braceWeight (line : List Char) : Int := if opensBlock line then 1 else if closesBlock line then -1 else 0

theorem braceWeight_eq (line : List Char) :
    braceWeight line = (if opensBlock line then 1 else 0) - (if closesBlock line then 1 else 0) := by
  unfold braceWeight
  by_cases hcloses : closesBlock line = true
  · simp [not_opensBlock_of_closesBlock hcloses, hcloses]
  · by_cases hopens : opensBlock line = true <;> simp [hopens, hcloses]

theorem nextDepth_eq_some {line : List Char} {d d' : Nat} :
    nextDepth line d = some d' ↔ (d' : Int) = d + braceWeight line := by
  unfold nextDepth braceWeight
  by_cases hopens : opensBlock line = true
  · simp only [hopens, if_true, Option.some.injEq]
    omega
  · by_cases hcloses : closesBlock line = true
    · by_cases hd : d = 0
      · simp only [hopens, hcloses, hd, if_true, Bool.false_eq_true, if_false, reduceCtorEq, false_iff]
        omega
      · simp only [hopens, hcloses, hd, if_true, Bool.false_eq_true, if_false, Option.some.injEq]
        omega
    · simp only [hopens, hcloses, Bool.false_eq_true, if_false, Option.some.injEq]
      omega

theorem exists_nextDepth {line : List Char} {d : Nat} (h : d = 0 → closesBlock line ≠ true) :
    ∃ d', nextDepth line d = some d' := by
  unfold nextDepth
  split
  · exact ⟨_, rfl⟩
  · split
    · by_cases hd : d = 0
      · exact absurd ‹_› (h hd)
      · rw [if_neg hd]
        exact ⟨_, rfl⟩
    · exact ⟨_, rfl⟩

namespace Source

variable {s : Source} {n : Nat} {line : List Char}

/-- The number of lines among the first `n` that open a block, less the number of those that close one. -/
def balance (s : Source) (n : Nat) : Int :=
  ((s.lines.take n).countP fun l => opensBlock l.chars) - ((s.lines.take n).countP fun l => closesBlock l.chars)

/-- The global scopes after the first `n` lines: the lines before which the balance is 0 are read, one after the
other. -/
def globalScopes (s : Source) : Nat → ScopeChain
  | 0 => .empty
  | n + 1 =>
    match s.line? (n + 1) with
    | some line => if s.balance n = 0 then ((s.globalScopes n).checkLine line).2 else s.globalScopes n
    | none => s.globalScopes n

/-- Line `n` holds a statement that may stand outside of methods, or none, and is right in the scopes that the lines
before it have made. -/
def Accepts (s : Source) (n : Nat) : Prop :=
  ∃ line result, s.line? n = some line ∧ (s.globalScopes (n - 1)).checkLineAt .global line = .ok result

/-- Of the first `n` lines, those before which the balance is 0 are accepted. -/
def AcceptsUpTo (s : Source) (n : Nat) : Prop := ∀ k, 0 < k → k ≤ n → s.balance (k - 1) = 0 → s.Accepts k

theorem balance_zero (s : Source) : s.balance 0 = 0 := rfl

theorem balance_succ (h : s.line? (n + 1) = some line) : s.balance (n + 1) = s.balance n + braceWeight line := by
  obtain ⟨l, hl, rfl⟩ := Option.map_eq_some_iff.1 h
  rw [balance, List.take_add_one, hl, Option.toList_some, List.countP_append, List.countP_append,
    List.countP_singleton, List.countP_singleton, braceWeight_eq, balance]
  split <;> split <;> omega

theorem balance_of_le (h : s.lineCount ≤ n) : s.balance n = s.balance s.lineCount := by
  rw [balance, balance, List.take_of_length_le h, lineCount, List.take_length]

theorem globalScopes_succ (h : s.line? (n + 1) = some line) :
    s.globalScopes (n + 1) = if s.balance n = 0 then ((s.globalScopes n).checkLine line).2 else s.globalScopes n := by
  rw [globalScopes, h]

theorem acceptsUpTo_succ : s.AcceptsUpTo (n + 1) ↔ s.AcceptsUpTo n ∧ (s.balance n = 0 → s.Accepts (n + 1)) := by
  constructor
  · intro h
    exact ⟨fun k hpos hk => h k hpos (by omega), h (n + 1) (Nat.succ_pos n) (Nat.le_refl _)⟩
  · rintro ⟨h, hlast⟩ k hpos hk hbalance
    by_cases hkn : k = n + 1
    · subst hkn
      exact hlast hbalance
    · exact h k hpos (by omega) hbalance

theorem accepts_succ (h : s.line? (n + 1) = some line) :
    s.Accepts (n + 1) ↔ ∃ result, (s.globalScopes n).checkLineAt .global line = .ok result := by
  rw [Accepts, h, Nat.add_sub_cancel]
  simp

end Source

/-! ## The first pass follows the balance -/

namespace GlobalPass

variable {source : Source} {p p' : GlobalPass} {line : NumberedLine} {n : Nat} {f : LineFault}

/-- The state of the pass after the first `n` lines. -/
structure Follows (source : Source) (n : Nat) (p : GlobalPass) : Prop where
  coherent : p.Coherent
  depth : (p.tracker.depth : Int) = source.balance n
  scopes : p.scopes = source.globalScopes n

theorem follows_start (source : Source) : Follows source 0 {} := ⟨coherent_start, rfl, rfl⟩

/-- A line that is taken into account is accepted if it is outside of methods, and the pass goes on to follow the
balance. -/
theorem Follows.step (hp : Follows source n p) (hline : source.line? (n + 1) = some line.chars)
    (h : p.step line = .ok p') :
    Follows source (n + 1) p' ∧ 0 ≤ source.balance (n + 1) ∧ (source.balance n = 0 → source.Accepts (n + 1)) := by
  have hdepth : (p'.tracker.depth : Int) = source.balance (n + 1) := by
    rw [Source.balance_succ hline, ← hp.depth]
    exact nextDepth_eq_some.1 (nextDepth_of_step hp.coherent h)
  obtain ⟨hcoherent, -⟩ := hp.coherent.step (Source.newline_not_mem_line? hline) h
  have hscopes := Source.globalScopes_succ hline
  have haccepts := Source.accepts_succ hline
  rw [← hp.scopes, ← hp.depth] at hscopes
  rw [← hp.scopes] at haccepts
  rw [← hp.depth]
  obtain ⟨c, ⟨mode, d⟩, hs⟩ := p
  cases hp.coherent.mode
  cases d with
  | zero =>
    obtain ⟨p₁, hread, htrack⟩ := step_outside_eq_ok.1 h
    obtain ⟨-, kind?, c', hcheck, hallowed, rfl⟩ := readLine_eq_ok.1 hread
    obtain ⟨d', -, rfl⟩ := track_eq_ok.1 htrack
    have haccepted := haccepts.2 ⟨_, ScopeChain.checkLineAt_eq_ok.2 ⟨hcheck, hallowed⟩⟩
    refine ⟨⟨hcoherent, hdepth, ?_⟩, by omega, fun _ => haccepted⟩
    simp [hscopes, hcheck]
  | succ d =>
    obtain ⟨d', -, rfl⟩ := step_inside.1 h
    refine ⟨⟨hcoherent, hdepth, ?_⟩, by omega, fun hzero => ?_⟩
    · rw [hscopes, if_neg (by simp; omega)]
    · simp at hzero
      omega

/-- A line can be taken into account if the balance after it is not negative, and if it is accepted where it is outside
of methods. -/
theorem Follows.exists_step (hp : Follows source n p) (hline : source.line? (n + 1) = some line.chars)
    (hbalance : 0 ≤ source.balance (n + 1)) (haccepts : source.balance n = 0 → source.Accepts (n + 1)) :
    ∃ p', p.step line = .ok p' := by
  rw [Source.balance_succ hline, ← hp.depth] at hbalance
  rw [Source.accepts_succ hline, ← hp.scopes, ← hp.depth] at haccepts
  obtain ⟨c, ⟨mode, d⟩, hs⟩ := p
  cases hp.coherent.mode
  have hdepth : nextDepth line.chars d = some ((d : Int) + braceWeight line.chars).toNat := by
    apply nextDepth_eq_some.2
    simp only at hbalance
    omega
  cases d with
  | succ d => exact ⟨_, step_inside.2 ⟨_, hdepth, rfl⟩⟩
  | zero =>
    obtain ⟨⟨kind?, c'⟩, hcheckAt⟩ := haccepts rfl
    obtain ⟨hcheck, hallowed⟩ := ScopeChain.checkLineAt_eq_ok.1 hcheckAt
    have hcloses : closesBlock line.chars = false := by
      by_contra hcloses
      rw [Bool.not_eq_false] at hcloses
      simp [nextDepth, not_opensBlock_of_closesBlock hcloses, hcloses] at hdepth
    have hread : (⟨c, ⟨.countOnly, 0⟩, hs⟩ : GlobalPass).readLine line = .ok _ :=
      readLine_eq_ok.2 ⟨hcloses, kind?, c', hcheck, hallowed, rfl⟩
    exact ⟨_, step_outside_eq_ok.2 ⟨_, hread, track_eq_ok.2 ⟨_, hdepth, rfl⟩⟩⟩

/-- A line is rejected for its brace exactly if it closes a block outside of methods. -/
theorem step_eq_mismatched (hp : p.Coherent) :
    p.step line = .error (.ofBlock .mismatchedBraces) ↔ p.tracker.depth = 0 ∧ closesBlock line.chars = true := by
  obtain ⟨c, ⟨mode, d⟩, hs⟩ := p
  cases hp.mode
  constructor
  · intro h
    by_contra hcloses
    obtain ⟨d', hcount⟩ : ∃ d', nextDepth line.chars d = some d' := exists_nextDepth fun hd hc => hcloses ⟨hd, hc⟩
    cases d with
    | succ d => cases (step_inside.2 ⟨d', hcount, rfl⟩).symm.trans h
    | zero =>
      rcases bind_eq_error.1 h with hread | ⟨p₁, hread, htrack⟩
      · change readLine _ line = _ at hread
        rw [readLine, if_neg fun hc => hcloses ⟨rfl, hc⟩] at hread
        split at hread
        · next hline =>
          cases hread
          exact (ScopeChain.checkLineAt_belongsTo hline).1 _ rfl
        · cases hread
      · obtain ⟨-, kind?, c', -, -, rfl⟩ := readLine_eq_ok.1 hread
        cases (track_eq_ok.2 ⟨d', hcount, rfl⟩).symm.trans htrack
  · rintro ⟨hdepth, hcloses⟩
    cases hdepth
    show (readLine _ line >>= fun p => p.track line) = _
    rw [readLine, if_pos hcloses]
    rfl

/-- What the pass has found out when it has read the first lines. -/
theorem follows_of_steps (hn : n ≤ source.lineCount) (h : steps {} (source.numberedLines.take n) = .ok p) :
    Follows source n p ∧ (∀ k ≤ n, 0 ≤ source.balance k) ∧ source.AcceptsUpTo n := by
  induction n generalizing p with
  | zero =>
    cases h
    refine ⟨follows_start source, ?_, ?_⟩
    · intro k hk
      rw [Nat.le_zero.1 hk]
      exact Int.le_refl 0
    · intro k hpos hk
      omega
  | succ n ih =>
    obtain ⟨line, htake, -, -, hline⟩ := Source.take_succ hn
    rw [htake] at h
    obtain ⟨p₁, hbefore, hlast⟩ := steps_append_eq_ok.1 h
    obtain ⟨p₂, hstep, hnil⟩ := steps_cons_eq_ok.1 hlast
    cases hnil
    obtain ⟨hfollows, hbalance, haccepts⟩ := ih (Nat.le_of_succ_le hn) hbefore
    obtain ⟨hfollows', hbalance', haccepts'⟩ := hfollows.step hline hstep
    refine ⟨hfollows', ?_, Source.acceptsUpTo_succ.2 ⟨haccepts, haccepts'⟩⟩
    intro k hk
    by_cases hkn : k = n + 1
    · rwa [hkn]
    · exact hbalance k (by omega)

/-- The pass reads the first lines if the balance never falls below 0 and the lines outside of methods are accepted. -/
theorem exists_steps (hn : n ≤ source.lineCount) (hbalance : ∀ k ≤ n, 0 ≤ source.balance k)
    (haccepts : source.AcceptsUpTo n) : ∃ p, steps {} (source.numberedLines.take n) = .ok p := by
  induction n with
  | zero => exact ⟨{}, rfl⟩
  | succ n ih =>
    obtain ⟨line, htake, -, -, hline⟩ := Source.take_succ hn
    obtain ⟨haccepts, haccepts'⟩ := Source.acceptsUpTo_succ.1 haccepts
    obtain ⟨p, hbefore⟩ := ih (Nat.le_of_succ_le hn) (fun k hk => hbalance k (by omega)) haccepts
    obtain ⟨hfollows, -, -⟩ := follows_of_steps (Nat.le_of_succ_le hn) hbefore
    obtain ⟨p', hstep⟩ := hfollows.exists_step hline (hbalance (n + 1) (Nat.le_refl _)) haccepts'
    rw [htake]
    exact ⟨p', steps_append_eq_ok.2 ⟨p, hbefore, steps_cons_eq_ok.2 ⟨p', hstep, rfl⟩⟩⟩

/-- A run ends at a line that fails. -/
theorem outcome_run_of_fault {before after : List NumberedLine} (hbefore : p.steps before = .ok p')
    (hfault : p'.step line = .error f) :
    (run source p (before ++ line :: after)).outcome = .error (.on source line.number f) := by
  induction before generalizing p with
  | nil =>
    cases hbefore
    rw [List.nil_append, outcome_run_cons, hfault]
    rfl
  | cons first before ih =>
    obtain ⟨p₁, hstep, hrest⟩ := steps_cons_eq_ok.1 hbefore
    rw [List.cons_append, outcome_run_cons, hstep]
    exact ih hrest

end GlobalPass

/-! ## The verdict -/

section Verdict

variable {source : Source} {n : Nat} {r : Rejection}

/-- The first line where the balance falls below 0. -/
structure Source.FirstImbalance (s : Source) (n : Nat) : Prop where
  negative : s.balance n < 0
  first : ∀ k < n, 0 ≤ s.balance k

theorem Source.FirstImbalance.bounds (h : source.FirstImbalance n) : 0 < n ∧ n ≤ source.lineCount := by
  refine ⟨?_, ?_⟩
  · by_contra hzero
    have hnegative := h.negative
    rw [Nat.eq_zero_of_not_pos hzero, balance_zero] at hnegative
    omega
  · by_contra hbeyond
    have hnegative := h.negative
    have hlast := h.first source.lineCount (by omega)
    rw [balance_of_le (by omega)] at hnegative
    omega

/-- Where the balance is negative, it has fallen below 0 at some line before. -/
theorem Source.exists_firstImbalance (h : source.balance n < 0) : ∃ m ≤ n, source.FirstImbalance m := by
  classical
  have hex : ∃ k, source.balance k < 0 := ⟨n, h⟩
  refine ⟨Nat.find hex, Nat.find_min' hex h, Nat.find_spec hex, ?_⟩
  intro k hk
  exact Int.not_lt.1 (Nat.find_min hex hk)

theorem check_of_readGlobals_error (h : (readGlobals source).outcome = .error r) : check source = .error r := by
  rw [check_eq, h]
  rfl

/-- **Braces are at fault at the first line where the balance falls below 0**, if all lines outside of methods before it
are accepted. -/
theorem mismatched_of_firstImbalance (h : source.FirstImbalance n) (haccepts : source.AcceptsUpTo (n - 1)) :
    check source = .error (.on source n (.ofBlock .mismatchedBraces)) := by
  obtain ⟨hpos, hn⟩ := h.bounds
  obtain ⟨m, rfl⟩ := Nat.exists_eq_succ_of_ne_zero (Nat.pos_iff_ne_zero.1 hpos)
  obtain ⟨line, -, hsplit, hnumber, hline⟩ := Source.take_succ hn
  obtain ⟨p, hsteps⟩ := GlobalPass.exists_steps (Nat.le_of_succ_le hn) (fun k hk => h.first k (by omega)) haccepts
  obtain ⟨hfollows, -, -⟩ := GlobalPass.follows_of_steps (Nat.le_of_succ_le hn) hsteps
  have hnegative := h.negative
  rw [Source.balance_succ hline, ← hfollows.depth] at hnegative
  -- The balance has fallen from 0, at a closing line.
  have hfault : p.step line = .error (.ofBlock .mismatchedBraces) := by
    refine (GlobalPass.step_eq_mismatched hfollows.coherent).2 ?_
    unfold braceWeight at hnegative
    split at hnegative
    · omega
    · split at hnegative
      · exact ⟨by omega, ‹_›⟩
      · omega
  apply check_of_readGlobals_error
  rw [GlobalPass.outcome_readGlobals, hsplit, GlobalPass.outcome_run_of_fault hsteps hfault, hnumber]
  rfl

/-- **Braces are at fault at the last line** if the balance never falls below 0 and ends above it, and all lines outside
of methods are accepted. -/
theorem mismatched_of_open_end (hbalance : ∀ k ≤ source.lineCount, 0 ≤ source.balance k)
    (hopen : 0 < source.balance source.lineCount) (haccepts : source.AcceptsUpTo source.lineCount) :
    check source = .error (.on source source.lineCount (.ofBlock .mismatchedBraces)) := by
  obtain ⟨p, hsteps⟩ := GlobalPass.exists_steps (Nat.le_refl _) hbalance haccepts
  obtain ⟨hfollows, -, -⟩ := GlobalPass.follows_of_steps (Nat.le_refl _) hsteps
  have hdepth := hfollows.depth
  have hinside : ¬ p.tracker.isGlobal = true := by
    rw [Tracker.isGlobal_iff]
    omega
  rw [← Source.length_numberedLines, List.take_length] at hsteps
  apply check_of_readGlobals_error
  rw [GlobalPass.outcome_readGlobals, GlobalPass.outcome_run_eq_ok.2 hsteps]
  exact if_neg hinside

/-- A source that is rejected for its braces has been rejected by the first pass. -/
theorem readGlobals_of_mismatched (h : check source = .error r) (hcause : r.cause = .ofBlock .mismatchedBraces) :
    (readGlobals source).outcome = .error r := by
  rcases check_eq_error h with hread | ⟨g, i, header, hg, hheader, hmethod⟩
  · exact hread
  · rcases cause_of_checkMethod hg hheader hmethod with hlocal | ⟨name, hreturn⟩
    · exact absurd hcause (hlocal _)
    · rw [hcause] at hreturn
      cases hreturn

/-- Where a source is rejected for its braces. -/
theorem imbalance_of_mismatched (h : check source = .error r) (hcause : r.cause = .ofBlock .mismatchedBraces) :
    source.FirstImbalance r.line ∧ source.AcceptsUpTo (r.line - 1) ∨
      (∀ k ≤ source.lineCount, 0 ≤ source.balance k) ∧ 0 < source.balance source.lineCount ∧
        source.AcceptsUpTo source.lineCount ∧ r.line = source.lineCount := by
  rcases GlobalPass.outcome_readGlobals_eq_error (readGlobals_of_mismatched h hcause) with
    ⟨before, line, after, p, f, hsplit, hsteps, hfault, rfl⟩ | ⟨p, hsteps, hopen, rfl⟩
  · obtain ⟨hnumber, hle⟩ := Source.number_bounds hsplit
    obtain ⟨-, hline, -⟩ := Source.line_of_split hsplit
    have hbefore : source.numberedLines.take before.length = before := by rw [hsplit, List.take_left]
    rw [← hbefore] at hsteps
    obtain ⟨hfollows, hbalance, haccepts⟩ := GlobalPass.follows_of_steps (by omega) hsteps
    have hf : f = .ofBlock .mismatchedBraces := hcause
    rw [hf] at hfault
    obtain ⟨hdepth, hcloses⟩ := (GlobalPass.step_eq_mismatched hfollows.coherent).1 hfault
    have hbefore := hfollows.depth
    rw [hnumber] at hline
    have hafter := Source.balance_succ hline
    rw [braceWeight, if_neg (Bool.eq_false_iff.1 (not_opensBlock_of_closesBlock hcloses)), if_pos hcloses] at hafter
    show source.FirstImbalance line.number ∧ source.AcceptsUpTo (line.number - 1) ∨ _
    rw [hnumber, Nat.add_sub_cancel]
    exact .inl ⟨⟨by omega, fun k hk => hbalance k (by omega)⟩, haccepts⟩
  · rw [← List.take_length (l := source.numberedLines), Source.length_numberedLines] at hsteps
    obtain ⟨hfollows, hbalance, haccepts⟩ := GlobalPass.follows_of_steps (Nat.le_refl _) hsteps
    have hdepth := hfollows.depth
    exact .inr ⟨hbalance, by omega, haccepts, rfl⟩

/-- A source in which the balance falls below 0 is rejected no later than there. -/
theorem rejected_of_firstImbalance (h : source.FirstImbalance n) : ∃ r, check source = .error r ∧ r.line ≤ n := by
  obtain ⟨-, hn⟩ := h.bounds
  cases hrun : (GlobalPass.run source {} (source.numberedLines.take n)).outcome with
  | ok p =>
    obtain ⟨-, hbalance, -⟩ := GlobalPass.follows_of_steps hn (GlobalPass.outcome_run_eq_ok.1 hrun)
    have hnegative := h.negative
    have hlast := hbalance n (Nat.le_refl n)
    omega
  | error r =>
    obtain ⟨before, line, after, p, f, hsplit, hsteps, hfault, rfl⟩ := GlobalPass.outcome_run_eq_error hrun
    have hlines : source.numberedLines = before ++ line :: (after ++ source.numberedLines.drop n) := by
      rw [← List.cons_append, ← List.append_assoc, ← hsplit, List.take_append_drop]
    obtain ⟨hnumber, -⟩ := Source.number_bounds hlines
    have hlength := congrArg List.length hsplit
    simp only [List.length_take, List.length_append, List.length_cons] at hlength
    refine ⟨.on source line.number f, check_of_readGlobals_error ?_, ?_⟩
    · rw [GlobalPass.outcome_readGlobals, hlines, GlobalPass.outcome_run_of_fault hsteps hfault]
      rfl
    · show line.number ≤ n
      omega

/-- **Braces are at fault exactly at the first imbalance.** A source is rejected for its braces on line `n` if that is
the first line where the balance falls below 0, or if it is the last line and the balance never does but ends above 0,
and if the lines outside of methods before this place are accepted. If the balance is negative anywhere, the source is
rejected no later than on the first line where it is. -/
theorem mismatchedBraces_iff (source : Source) :
    (∀ n, (∃ r, check source = .error r ∧ r.cause = .ofBlock .mismatchedBraces ∧ r.line = n) ↔
        source.FirstImbalance n ∧ source.AcceptsUpTo (n - 1) ∨
          (∀ k ≤ source.lineCount, 0 ≤ source.balance k) ∧ 0 < source.balance source.lineCount ∧
            source.AcceptsUpTo source.lineCount ∧ n = source.lineCount) ∧
      ∀ n, source.balance n < 0 → ∃ m ≤ n, source.FirstImbalance m ∧ ∃ r, check source = .error r ∧ r.line ≤ m := by
  constructor
  · intro n
    constructor
    · rintro ⟨r, hr, hcause, rfl⟩
      exact imbalance_of_mismatched hr hcause
    · rintro (⟨hfirst, haccepts⟩ | ⟨hbalance, hopen, haccepts, rfl⟩)
      · exact ⟨_, mismatched_of_firstImbalance hfirst haccepts, rfl, rfl⟩
      · exact ⟨_, mismatched_of_open_end hbalance hopen haccepts, rfl, rfl⟩
  · intro n hnegative
    obtain ⟨m, hm, hfirst⟩ := Source.exists_firstImbalance hnegative
    exact ⟨m, hm, hfirst, rejected_of_firstImbalance hfirst⟩

/-- A brace too many behind a method: what stands in the body and below the brace does not matter. -/
theorem mismatchedBraces_behind_method : ∃ (source : Source) (r : Rejection), check source = .error r ∧
    source.FirstImbalance r.line ∧ source.AcceptsUpTo (r.line - 1) ∧ r.line < source.lineCount := by
  let source : Source := { name := "braces.sjava", text := "int a;\nvoid f() \x7b\n b = 1;\n\x7d\n\x7d\nint c" }
  have hcheck : check source = .error ⟨5, ⟨28, 1⟩, .ofBlock .mismatchedBraces⟩ := by decide +kernel
  have hcount : 5 < source.lineCount := by decide +kernel
  rcases ((mismatchedBraces_iff source).1 5).1 ⟨_, hcheck, rfl, rfl⟩ with ⟨hfirst, haccepts⟩ | ⟨-, -, -, hlast⟩
  · exact ⟨source, _, hcheck, hfirst, haccepts, hcount⟩
  · exact absurd hlast (Nat.ne_of_lt hcount)

end Verdict

end BlockCheck
