import BlockCheck.Proofs.Line.ScopeChanges
import BlockCheck.Proofs.Program.BlockRuns
import BlockCheck.Proofs.Program.Tracked

/-!
# Trackers and scopes in lockstep

The depth of a tracker and the scopes that follow it are changed separately, and so it is an invariant of runs that
there is always one scope more than there are blocks (`Tracked.Following`). A run here is any sequence of lines that are
taken into account and lines that are checked; it goes on after failures (`TrackedCall.runs`). Lines that are checked
open and close no scope, whether they are right or wrong (`TrackedM.after_checkLine`).

What a tracker answers depends on its depth only (`TrackedM.accept_congr`). So a tracker that only counts answers as one
that switches scopes does, and it leaves the scopes alone (`lockstep_of_runs`).
-/

namespace BlockCheck

open Step

/-! ## Runs -/

/-- A use of a tracker and its scopes. -/
inductive TrackedCall
  /-- The line is taken into account. -/
  | accept (line : List Char)
  /-- The line is checked. -/
  | check (line : List Char)
  deriving DecidableEq, Repr

namespace TrackedCall

/-- The lines that are taken into account, in order. -/
def accepted : List TrackedCall → List (List Char)
  | [] => []
  | .accept line :: calls => line :: accepted calls
  | .check _ :: calls => accepted calls

/-- Makes the calls one after the other, also after failures. Gives the answer to each line that is taken into account,
and the state after it. -/
def runs : List TrackedCall → Tracked → List (Except LineFault DepthChange × Tracked)
  | [], _ => []
  | .accept line :: calls, s =>
    (answer (TrackedM.accept line) s, after (TrackedM.accept line) s) :: runs calls (after (TrackedM.accept line) s)
  | .check line :: calls, s => runs calls (after (TrackedM.checkLine line) s)

end TrackedCall

/-! ## The invariant -/

namespace ScopeChain

/-- No line opens or closes a scope, whether it is right or wrong. -/
theorem stable_last (n : Nat) : Stable (·.last = n) where
  addVariable c c' name v hc _ h := by
    obtain ⟨-, rfl⟩ := addVariable_eq_ok.1 h
    exact (last_setInnermost c _).trans hc
  addMethod c c' name m hc h := by
    obtain ⟨-, rfl⟩ := addMethod_eq_ok.1 h
    exact (last_setInnermost c _).trans hc
  initializing c name hc := (last_initializing name c).trans hc

theorem last_push (c : ScopeChain) : c.push.last = c.last + 1 := rfl

theorem last_pop? {c : ScopeChain} {n : Nat} (h : c.last = n + 1) : (c.pop?.getD c).last = n := by
  cases c with
  | global s => cases h
  | block s outer => exact Nat.succ.inj h

end ScopeChain

/-- The scopes follow the tracker, and there is one for every open block and the global one. -/
structure Tracked.Following (s : Tracked) : Prop where
  mode : s.tracker.mode = .switching
  lockstep : s.InLockstep

namespace TrackedM

variable {s s' : Tracked}

theorem after_checkLine (line : List Char) (s : Tracked) :
    (after (checkLine line) s).tracker = s.tracker ∧ (after (checkLine line) s).scopes.last = s.scopes.last := by
  have hlast := (ScopeChain.stable_last s.scopes.last).checkLine rfl line
  unfold after checkLine
  cases hline : s.scopes.checkLine line with
  | mk answer scopes =>
    rw [hline] at hlast
    cases answer with
    | ok kind? => exact ⟨rfl, hlast⟩
    | error f => exact ⟨rfl, hlast⟩

/-- Every line that is checked keeps the invariant. -/
theorem following_checkLine (line : List Char) (h : s.Following) : (after (checkLine line) s).Following := by
  obtain ⟨htracker, hlast⟩ := after_checkLine line s
  refine ⟨htracker ▸ h.mode, ?_⟩
  have hlockstep : s.scopes.last + 1 = s.tracker.depth + 1 := h.lockstep
  show (after (checkLine line) s).scopes.last + 1 = (after (checkLine line) s).tracker.depth + 1
  rw [hlast, htracker, hlockstep]

/-- Every line that is taken into account keeps the invariant, and so does one that fails to be. -/
theorem following_accept (line : List Char) (h : s.Following) : (after (accept line) s).Following := by
  obtain ⟨⟨mode, depth⟩, c⟩ := s
  obtain ⟨hmode, hlockstep⟩ := h
  cases hmode
  have hlast : c.last = depth := Nat.succ.inj hlockstep
  unfold after
  cases hstep : accept line ⟨⟨.switching, depth⟩, c⟩ with
  | error f s' =>
    obtain ⟨-, -, -, rfl⟩ := accept_eq_error.1 hstep
    exact ⟨rfl, hlockstep⟩
  | ok change s' =>
    rcases accept_cases hstep with ⟨-, -, rfl⟩ | ⟨-, -, depth', hdepth, rfl⟩ | ⟨-, -, -, rfl⟩
    · exact ⟨rfl, congrArg (· + 1) ((ScopeChain.last_push c).trans (congrArg (· + 1) hlast))⟩
    · exact ⟨rfl, congrArg (· + 1) (ScopeChain.last_pop? (hlast.trans hdepth))⟩
    · exact ⟨rfl, hlockstep⟩

/-! ## Counting alone -/

/-- **The answer to a line depends on the depth only**, and so does the depth after it. -/
theorem accept_congr (line : List Char) (h : s'.tracker.depth = s.tracker.depth) :
    answer (accept line) s' = answer (accept line) s ∧
      (after (accept line) s').tracker.depth = (after (accept line) s).tracker.depth := by
  unfold answer after
  cases hopens : opensBlock line with
  | true =>
    rw [accept_of_opens hopens s, accept_of_opens hopens s']
    exact ⟨rfl, congrArg (· + 1) h⟩
  | false =>
    cases hcloses : closesBlock line with
    | true =>
      cases hdepth : s.tracker.depth with
      | zero =>
        rw [accept_of_closes_zero hcloses hdepth, accept_of_closes_zero hcloses (h.trans hdepth)]
        exact ⟨rfl, h⟩
      | succ depth =>
        rw [accept_of_closes hcloses hdepth, accept_of_closes hcloses (h.trans hdepth)]
        exact ⟨rfl, rfl⟩
    | false =>
      rw [accept_of_plain hopens hcloses s, accept_of_plain hopens hcloses s']
      exact ⟨rfl, h⟩

/-- A tracker that only counts leaves the scopes alone. -/
theorem after_accept_countOnly (line : List Char) (h : s.tracker.mode = .countOnly) :
    (after (accept line) s).tracker.mode = .countOnly ∧ (after (accept line) s).scopes = s.scopes := by
  obtain ⟨⟨mode, depth⟩, c⟩ := s
  cases h
  unfold after
  cases hstep : accept line ⟨⟨.countOnly, depth⟩, c⟩ with
  | error f s' =>
    obtain ⟨-, -, -, rfl⟩ := accept_eq_error.1 hstep
    exact ⟨rfl, rfl⟩
  | ok change s' =>
    rcases accept_cases hstep with ⟨-, -, rfl⟩ | ⟨-, -, depth', -, rfl⟩ | ⟨-, -, -, rfl⟩
    · exact ⟨rfl, rfl⟩
    · exact ⟨rfl, rfl⟩
    · exact ⟨rfl, rfl⟩

end TrackedM

namespace TrackedCall

open TrackedM

variable {s s' : Tracked}

/-- The invariant holds along every run. -/
theorem following_of_runs {calls : List TrackedCall} (h : s.Following) : ∀ r ∈ runs calls s, r.2.Following := by
  induction calls generalizing s with
  | nil => exact fun r hr => absurd hr List.not_mem_nil
  | cons call calls ih =>
    cases call with
    | accept line =>
      have hstep := following_accept line h
      rw [runs, List.forall_mem_cons]
      exact ⟨hstep, ih hstep⟩
    | check line =>
      rw [runs]
      exact ih (following_checkLine line h)

/-- What is checked in between does not change the answers to the lines that are taken into account. -/
theorem runs_congr {calls : List TrackedCall} (h : s'.tracker.depth = s.tracker.depth) :
    (runs ((accepted calls).map .accept) s').map (fun r => (r.1, r.2.tracker.depth)) =
      (runs calls s).map fun r => (r.1, r.2.tracker.depth) := by
  induction calls generalizing s s' with
  | nil => rfl
  | cons call calls ih =>
    cases call with
    | accept line =>
      obtain ⟨hanswer, hdepth⟩ := accept_congr line h
      rw [accepted, List.map_cons, runs, runs, List.map_cons, List.map_cons, hanswer, hdepth, ih hdepth]
    | check line =>
      rw [accepted, runs]
      exact ih (h.trans (congrArg Tracker.depth (after_checkLine line s).1.symm))

theorem scopes_of_runs_countOnly {lines : List (List Char)} (h : s.tracker.mode = .countOnly) :
    ∀ r ∈ runs (lines.map .accept) s, r.2.scopes = s.scopes := by
  induction lines generalizing s with
  | nil => exact fun r hr => absurd hr List.not_mem_nil
  | cons line lines ih =>
    obtain ⟨hmode, hscopes⟩ := after_accept_countOnly line h
    rw [List.map_cons, runs, List.forall_mem_cons]
    exact ⟨hscopes, fun r hr => (ih hmode r hr).trans hscopes⟩

end TrackedCall

/-- **A tracker and its scopes move in lockstep.** A new tracker follows scopes that are new, or a copy of others. What
ever lines are taken into account and checked, and whatever fails of it: after every line that is taken into account
one scope more is open than there are blocks. A line fails to be taken into account exactly if it is a closing one and
no block is open, and it changes nothing then. A tracker that only counts gives the same answers to the same lines and
has the same depth after each of them, and never changes the scopes that it is given. -/
theorem lockstep_of_runs {start : ScopeChain} (hstart : start = .empty ∨ ∃ c : ScopeChain, start = c.restart)
    (calls : List TrackedCall) :
    (∀ r ∈ TrackedCall.runs calls ⟨⟨.switching, 0⟩, start⟩, r.2.scopes.depth = r.2.tracker.depth + 1) ∧
    (∀ (line : List Char) (s s' : Tracked) (f : LineFault), TrackedM.accept line s = .error f s' ↔
      closesBlock line = true ∧ s.tracker.depth = 0 ∧ f = .ofBlock .mismatchedBraces ∧ s' = s) ∧
    ∀ scopes : ScopeChain,
      let counted := TrackedCall.runs ((TrackedCall.accepted calls).map .accept) ⟨⟨.countOnly, 0⟩, scopes⟩
      counted.map (fun r => (r.1, r.2.tracker.depth)) =
          (TrackedCall.runs calls ⟨⟨.switching, 0⟩, start⟩).map (fun r => (r.1, r.2.tracker.depth)) ∧
        ∀ r ∈ counted, r.2.scopes = scopes := by
  have hlockstep : (⟨⟨.switching, 0⟩, start⟩ : Tracked).InLockstep := by
    rcases hstart with rfl | ⟨c, rfl⟩
    · rfl
    · rfl
  refine ⟨fun r hr => ?_, fun _ _ _ _ => TrackedM.accept_eq_error, fun scopes => ⟨?_, ?_⟩⟩
  · exact (TrackedCall.following_of_runs ⟨rfl, hlockstep⟩ r hr).lockstep
  · exact TrackedCall.runs_congr rfl
  · exact TrackedCall.scopes_of_runs_countOnly rfl

/-- A copy of scopes with a block in it: lines that fail to be checked, and two closing lines too many. -/
theorem lockstep_of_runs_beyond_end :
    let start : ScopeChain := (ScopeChain.empty.push.push).restart
    let calls : List TrackedCall := [.check "int a = b;".toList, .accept "void f() \x7b".toList,
      .check "int a, a;".toList, .accept "\x7d".toList, .accept "\x7d".toList, .accept "while (true) \x7b".toList]
    (∃ c : ScopeChain, start = c.restart) ∧
    (∀ r ∈ TrackedCall.runs calls ⟨⟨.switching, 0⟩, start⟩, r.2.scopes.depth = r.2.tracker.depth + 1) ∧
    (TrackedCall.runs calls ⟨⟨.switching, 0⟩, start⟩).map (fun r => (r.1, r.2.tracker.depth)) =
      [(.ok .opened, 1), (.ok .closed, 0), (.error (.ofBlock .mismatchedBraces), 0), (.ok .opened, 1)] := by
  intro start calls
  have hstart : ∃ c : ScopeChain, start = c.restart := ⟨_, rfl⟩
  obtain ⟨hdepths, -, -⟩ := lockstep_of_runs (.inr hstart) calls
  exact ⟨hstart, hdepths, by decide +kernel⟩

end BlockCheck
