import BlockCheck.Proofs.Program.Steps

/-!
# A tracker and its scopes

`Tracker.accept` says in one go what a line makes of the tracker and of the scopes. Here the two are the state of steps
that change them one after the other, and what has been changed before a failure stays changed: a line is counted, the
scopes are switched (`TrackedM.accept`), and the line is checked in the scopes that are open then
(`TrackedM.checkLine`).

Counting before switching comes to what `Tracker.accept` says, and a line that fails to be counted changes nothing
(`TrackedM.accept_eq`). The pass over a method takes a line by accepting it and then checking it
(`MethodPass.step_eq_ok_iff_tracked`).
-/

namespace BlockCheck

open Step

/-! ## Steps that may fail -/

namespace Step

section Outcomes

variable {ε σ α : Type} {m : EStateM ε σ α} {s s' : σ} {a : α}

/-- What the step gives: a value or a fault. -/
def answer (m : EStateM ε σ α) (s : σ) : Except ε α :=
  match m s with
  | .ok a _ => .ok a
  | .error f _ => .error f

/-- The state after the step, whether it fails or not. -/
def after (m : EStateM ε σ α) (s : σ) : σ :=
  match m s with
  | .ok _ s' | .error _ s' => s'

theorem eq_ok_iff : m s = .ok a s' ↔ answer m s = .ok a ∧ after m s = s' := by
  unfold answer after
  cases m s with
  | ok b t =>
    constructor
    · rintro ⟨⟩
      exact ⟨rfl, rfl⟩
    · rintro ⟨⟨⟩, rfl⟩
      rfl
  | error f t => exact ⟨nofun, nofun⟩

end Outcomes

/-! ### Steps over a list -/

section Lists

variable {ε σ α β : Type} {m : α → EStateM ε σ β} {a : α} {as : List α} {bs : List β} {s s' : σ}

theorem mapM_nil_eq_ok : List.mapM m [] s = .ok bs s' ↔ bs = [] ∧ s' = s := by
  rw [List.mapM_nil]
  constructor
  · intro h
    exact pure_ok h
  · rintro ⟨rfl, rfl⟩
    rfl

theorem mapM_cons_eq_ok : (a :: as).mapM m s = .ok bs s' ↔
    ∃ b s₁ cs, m a s = .ok b s₁ ∧ as.mapM m s₁ = .ok cs s' ∧ bs = b :: cs := by
  rw [List.mapM_cons]
  constructor
  · intro h
    obtain ⟨b, s₁, hfirst, h⟩ := bind_ok h
    obtain ⟨cs, s₂, hrest, h⟩ := bind_ok h
    obtain ⟨rfl, rfl⟩ := pure_ok h
    exact ⟨b, s₁, cs, hfirst, hrest, rfl⟩
  · rintro ⟨b, s₁, cs, hfirst, hrest, rfl⟩
    rw [bind_eq hfirst, bind_eq hrest]
    rfl

end Lists

end Step

/-! ## The steps -/

/-- A tracker and the scopes that it is used on. -/
structure Tracked where
  tracker : Tracker
  scopes : ScopeChain
  deriving DecidableEq, Repr

/-- There is a scope for every open block, and the global one. -/
def Tracked.InLockstep (s : Tracked) : Prop := s.scopes.depth = s.tracker.depth + 1

/-- A step that may fail and changes a tracker and its scopes. What it has changed before it fails stays changed. -/
abbrev TrackedM := EStateM LineFault Tracked

namespace TrackedM

/-- Counts one block more. -/
def countOpened : TrackedM Unit := modify fun s => { s with tracker.depth := s.tracker.depth + 1 }

/-- Counts one block less; there must be one. -/
def countClosed : TrackedM Unit := do
  match (← get).tracker.depth with
  | 0 => throw (.ofBlock .mismatchedBraces)
  | depth + 1 => modify fun s => { s with tracker.depth := depth }

/-- Changes the scopes, if they follow the tracker. -/
def switchScopes (change : ScopeChain → ScopeChain) : TrackedM Unit := do
  if (← get).tracker.mode = .switching then
    modify fun s => { s with scopes := change s.scopes }

/-- Takes a line into account. -/
def accept (line : List Char) : TrackedM DepthChange := do
  if opensBlock line then
    countOpened
    switchScopes ScopeChain.push
    return .opened
  else if closesBlock line then
    countClosed
    switchScopes fun c => c.pop?.getD c
    return .closed
  else return .unchanged

/-- Checks a line in the innermost scope. -/
def checkLine (line : List Char) : TrackedM (Option StatementKind) := fun s =>
  match s.scopes.checkLine line with
  | (.ok kind?, scopes) => .ok kind? { s with scopes }
  | (.error f, scopes) => .error f { s with scopes }

/-- Takes a line into account, and checks it in the scopes after that. -/
def acceptThenCheck (line : List Char) : TrackedM (DepthChange × Option StatementKind) := do
  let change ← accept line
  let kind? ← checkLine line
  return (change, kind?)

/-- Checks a line in the scopes as they are, and then takes it into account. -/
def checkThenAccept (line : List Char) : TrackedM (DepthChange × Option StatementKind) := do
  let kind? ← checkLine line
  let change ← accept line
  return (change, kind?)

/-! ## What the steps do -/

variable {line : List Char} {s s' : Tracked} {change : DepthChange} {kind? : Option StatementKind} {f : LineFault}

/-- **Counting and switching**, one after the other, is what the tracker says. If it fails nothing has been changed. -/
theorem accept_eq (line : List Char) (s : Tracked) : accept line s =
    match s.tracker.accept line s.scopes with
    | .ok (change, tracker, scopes) => .ok change ⟨tracker, scopes⟩
    | .error f => .error (.ofBlock f) s := by
  obtain ⟨⟨mode, depth⟩, c⟩ := s
  unfold accept
  cases hopens : opensBlock line with
  | true =>
    rw [Tracker.accept_of_opens hopens]
    cases mode <;> rfl
  | false =>
    cases hcloses : closesBlock line with
    | true =>
      cases depth with
      | zero =>
        rw [Tracker.accept_of_closes_zero hcloses]
        rfl
      | succ depth =>
        rw [Tracker.accept_of_closes hcloses]
        cases mode <;> rfl
    | false =>
      rw [Tracker.accept_of_plain hopens hcloses]
      rfl

theorem accept_eq_ok : accept line s = .ok change s' ↔
    s.tracker.accept line s.scopes = .ok (change, s'.tracker, s'.scopes) := by
  rw [accept_eq]
  constructor
  · intro h
    split at h
    · next hstep => cases h; exact hstep
    · cases h
  · intro h
    rw [h]

theorem accept_of_opens (h : opensBlock line = true) (s : Tracked) :
    accept line s = .ok .opened ⟨⟨s.tracker.mode, s.tracker.depth + 1⟩, s.tracker.openScope s.scopes⟩ :=
  accept_eq_ok.2 (Tracker.accept_of_opens h)

theorem accept_of_closes {depth : Nat} (h : closesBlock line = true) (hdepth : s.tracker.depth = depth + 1) :
    accept line s = .ok .closed ⟨⟨s.tracker.mode, depth⟩, s.tracker.closeScope s.scopes⟩ := by
  obtain ⟨⟨mode, d⟩, c⟩ := s
  cases hdepth
  exact accept_eq_ok.2 (Tracker.accept_of_closes h)

theorem accept_of_closes_zero (h : closesBlock line = true) (hdepth : s.tracker.depth = 0) :
    accept line s = .error (.ofBlock .mismatchedBraces) s := by
  obtain ⟨⟨mode, d⟩, c⟩ := s
  cases hdepth
  rw [accept_eq, Tracker.accept_of_closes_zero h]

theorem accept_of_plain (hopens : opensBlock line = false) (hcloses : closesBlock line = false) (s : Tracked) :
    accept line s = .ok .unchanged s :=
  accept_eq_ok.2 (Tracker.accept_of_plain hopens hcloses)

/-- A line fails to be taken into account only if it closes a block that is not there, and it changes nothing then. -/
theorem accept_eq_error : accept line s = .error f s' ↔
    closesBlock line = true ∧ s.tracker.depth = 0 ∧ f = .ofBlock .mismatchedBraces ∧ s' = s := by
  constructor
  · intro h
    cases hopens : opensBlock line with
    | true => cases (accept_of_opens hopens s).symm.trans h
    | false =>
      cases hcloses : closesBlock line with
      | true =>
        cases hdepth : s.tracker.depth with
        | zero =>
          cases (accept_of_closes_zero hcloses hdepth).symm.trans h
          exact ⟨rfl, rfl, rfl, rfl⟩
        | succ depth => cases (accept_of_closes hcloses hdepth).symm.trans h
      | false => cases (accept_of_plain hopens hcloses s).symm.trans h
  · rintro ⟨hcloses, hdepth, rfl, rfl⟩
    exact accept_of_closes_zero hcloses hdepth

/-- All that a line can do when it is taken into account. -/
theorem accept_cases (h : accept line s = .ok change s') :
    (opensBlock line = true ∧ change = .opened ∧
      s' = ⟨⟨s.tracker.mode, s.tracker.depth + 1⟩, s.tracker.openScope s.scopes⟩) ∨
    (closesBlock line = true ∧ change = .closed ∧ ∃ depth, s.tracker.depth = depth + 1 ∧
      s' = ⟨⟨s.tracker.mode, depth⟩, s.tracker.closeScope s.scopes⟩) ∨
    (opensBlock line = false ∧ closesBlock line = false ∧ change = .unchanged ∧ s' = s) := by
  cases hopens : opensBlock line with
  | true =>
    cases (accept_of_opens hopens s).symm.trans h
    exact .inl ⟨rfl, rfl, rfl⟩
  | false =>
    cases hcloses : closesBlock line with
    | true =>
      cases hdepth : s.tracker.depth with
      | zero => cases (accept_of_closes_zero hcloses hdepth).symm.trans h
      | succ depth =>
        cases (accept_of_closes hcloses hdepth).symm.trans h
        exact .inr (.inl ⟨rfl, rfl, depth, rfl, rfl⟩)
    | false =>
      cases (accept_of_plain hopens hcloses s).symm.trans h
      exact .inr (.inr ⟨rfl, rfl, rfl, rfl⟩)

theorem checkLine_eq_ok : checkLine line s = .ok kind? s' ↔
    s.scopes.checkLine line = (.ok kind?, s'.scopes) ∧ s'.tracker = s.tracker := by
  unfold checkLine
  constructor
  · intro h
    split at h
    · next hline => cases h; exact ⟨hline, rfl⟩
    · cases h
  · rintro ⟨hline, htracker⟩
    rw [hline, ← htracker]

theorem acceptThenCheck_eq_ok : acceptThenCheck line s = .ok (change, kind?) s' ↔
    ∃ s₁, accept line s = .ok change s₁ ∧ checkLine line s₁ = .ok kind? s' := by
  constructor
  · intro h
    obtain ⟨change', s₁, haccept, h⟩ := bind_ok h
    obtain ⟨kind?', s₂, hcheck, h⟩ := bind_ok h
    obtain ⟨heq, rfl⟩ := pure_ok h
    cases heq
    exact ⟨s₁, haccept, hcheck⟩
  · rintro ⟨s₁, haccept, hcheck⟩
    unfold acceptThenCheck
    rw [bind_eq haccept, bind_eq hcheck]
    rfl

theorem checkThenAccept_eq_ok : checkThenAccept line s = .ok (change, kind?) s' ↔
    ∃ s₁, checkLine line s = .ok kind? s₁ ∧ accept line s₁ = .ok change s' := by
  constructor
  · intro h
    obtain ⟨kind?', s₁, hcheck, h⟩ := bind_ok h
    obtain ⟨change', s₂, haccept, h⟩ := bind_ok h
    obtain ⟨heq, rfl⟩ := pure_ok h
    cases heq
    exact ⟨s₁, hcheck, haccept⟩
  · rintro ⟨s₁, hcheck, haccept⟩
    unfold checkThenAccept
    rw [bind_eq hcheck, bind_eq haccept]
    rfl

end TrackedM

/-! ## The pass over a method -/

/-- The tracker and the scopes of the pass. -/
def MethodPass.tracked (p : MethodPass) : Tracked := ⟨p.tracker, p.scopes⟩

theorem MethodPass.track_eq_ok {p p₁ : MethodPass} {line : List Char} : p.track line = .ok p₁ ↔
    ∃ change s, TrackedM.accept line p.tracked = .ok change s ∧ p₁ = ⟨s.scopes, s.tracker, p.previous, p.last⟩ := by
  simp only [TrackedM.accept_eq_ok]
  unfold MethodPass.track
  constructor
  · intro h
    split at h
    · cases h
    · next change tracker scopes haccept =>
      cases h
      exact ⟨change, ⟨tracker, scopes⟩, haccept, rfl⟩
  · rintro ⟨change, s, haccept, rfl⟩
    have haccept' : p.tracker.accept line p.scopes = .ok (change, s.tracker, s.scopes) := haccept
    rw [haccept']

/-- **The pass over a method accepts a line and then checks it.** What it adds is that the statement may stand in a
method, and that it remembers the last two of them. -/
theorem MethodPass.step_eq_ok_iff_tracked {p p' : MethodPass} {line : List Char} :
    p.step line = .ok p' ↔ ∃ change kind?,
      TrackedM.acceptThenCheck line p.tracked = .ok (change, kind?) p'.tracked ∧
      (∀ kind, kind? = some kind → kind ∈ Placement.methodBody.allowed) ∧
      (p'.previous, p'.last) = kind?.elim (p.previous, p.last) fun kind => (p.last, some kind) := by
  simp only [MethodPass.step_eq_ok_iff, MethodPass.track_eq_ok, TrackedM.acceptThenCheck_eq_ok,
    TrackedM.checkLine_eq_ok]
  obtain ⟨scopes', tracker', previous', last'⟩ := p'
  constructor
  · rintro ⟨_, ⟨change, s, haccept, rfl⟩, hread⟩
    rcases MethodPass.readLine_eq_ok.1 hread with ⟨hcheck, hp⟩ | ⟨kind, hallowed, hcheck, hp⟩
    · cases hp
      exact ⟨change, none, ⟨s, haccept, hcheck, rfl⟩, nofun, rfl⟩
    · cases hp
      exact ⟨change, some kind, ⟨s, haccept, hcheck, rfl⟩, fun _ h => Option.some.inj h ▸ hallowed, rfl⟩
  · rintro ⟨change, kind?, ⟨s, haccept, hcheck, htracker⟩, hallowed, hstatements⟩
    refine ⟨_, ⟨change, s, haccept, rfl⟩, MethodPass.readLine_eq_ok.2 ?_⟩
    cases htracker
    cases kind? with
    | none =>
      cases hstatements
      exact .inl ⟨hcheck, rfl⟩
    | some kind =>
      cases hstatements
      exact .inr ⟨kind, hallowed kind rfl, hcheck, rfl⟩

end BlockCheck
