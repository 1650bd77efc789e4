import BlockCheck.Proofs.Line.FaultPlaces
import BlockCheck.Proofs.Program.Runs

/-!
# The two passes agree on the nesting

The pass over the global scope counts the blocks of all lines, the pass over a method those of its own lines once
more. Line by line they count the same (`GlobalPass.steps_of_within`). What the first pass has found for a header is
what the second one needs to start there (`method_of_step`), and since the first one ends outside of methods, the
second one finds the end of the method, if no line before it is wrong (`end_of_method`). Hence a run of the checker
ends with neither of two faults (`passes_agree`): a method whose first line does not open its scope, and a method that
does not end.
-/

namespace BlockCheck

/-! ## Counting in step -/

namespace MethodPass

variable {p p' q : MethodPass} {line : List Char} {f : LineFault}

theorem tracker_of_readLine (h : p.readLine line = .ok p') : p'.tracker = p.tracker := by
  obtain ⟨c, t, previous, last⟩ := p
  rcases readLine_eq_ok.1 h with ⟨-, hp⟩ | ⟨kind, -, -, hp⟩ <;> rw [hp]

/-- A step counts the braces of its line. -/
theorem nextDepth_of_step (h : p.step line = .ok p') : nextDepth line p.tracker.depth = some p'.tracker.depth := by
  obtain ⟨p₁, htrack, hread⟩ := step_eq_ok_iff.1 h
  rw [tracker_of_readLine hread]
  unfold track at htrack
  split at htrack
  · cases htrack
  · next change tracker scopes haccept =>
    cases htrack
    exact (Tracker.nextDepth_of_accept haccept).2

/-- Inside of a method the braces are never at fault. -/
theorem track_of_inside (line : List Char) (h : p.tracker.isGlobal = false) : ∃ p₁, p.track line = .ok p₁ := by
  obtain ⟨c, ⟨mode, d⟩, previous, last⟩ := p
  cases d with
  | zero => cases h
  | succ d =>
    unfold track
    cases hopens : opensBlock line with
    | true => exact ⟨_, by rw [Tracker.accept_of_opens hopens]⟩
    | false =>
      cases hcloses : closesBlock line with
      | true => exact ⟨_, by rw [Tracker.accept_of_closes hcloses]⟩
      | false => exact ⟨_, by rw [Tracker.accept_of_plain hopens hcloses]⟩

/-- Inside of a method a line that fails is wrong in itself. -/
theorem step_eq_error (hinside : p.tracker.isGlobal = false) (h : p.step line = .error f) :
    ∃ p₁, p.track line = .ok p₁ ∧ p₁.readLine line = .error f ∧ f.BelongsTo line := by
  obtain ⟨p₁, htrack⟩ := track_of_inside line hinside
  have hread : p₁.readLine line = .error f := by
    rw [← h]
    show _ = (p.track line >>= fun p => p.readLine line)
    rw [htrack]
    rfl
  refine ⟨p₁, htrack, hread, ?_⟩
  unfold readLine at hread
  split at hread
  · next hline =>
    cases hread
    exact ScopeChain.checkLineAt_belongsTo hline
  · cases hread
  · cases hread

theorem Within.inside {lines : List NumberedLine} (h : p.Within lines q) (hinside : p.tracker.isGlobal = false) :
    q.tracker.isGlobal = false := by
  induction h with
  | nil => exact hinside
  | cons _ hinside' _ ih => exact ih hinside'

end MethodPass

namespace GlobalPass

variable {c : ScopeChain} {hs : List Nat} {p q : MethodPass}

/-- Inside of methods the pass over the global scope counts as the pass over the method does. -/
theorem step_of_step {line : NumberedLine} (hinside : p.tracker.isGlobal = false)
    (h : p.step line.chars = .ok q) :
    (⟨c, ⟨.countOnly, p.tracker.depth⟩, hs⟩ : GlobalPass).step line =
      .ok ⟨c, ⟨.countOnly, q.tracker.depth⟩, hs⟩ := by
  have hdepth := MethodPass.nextDepth_of_step h
  cases hd : p.tracker.depth with
  | zero => rw [Tracker.isGlobal_iff.2 hd] at hinside; cases hinside
  | succ d =>
    rw [hd] at hdepth
    exact step_inside.2 ⟨_, hdepth, rfl⟩

/-- A step fails because its line is wrong in itself, or because the braces do not match. -/
theorem step_eq_error {p : GlobalPass} {line : NumberedLine} {f : LineFault} (h : p.step line = .error f) :
    f.BelongsTo line.chars ∨ f = .ofBlock .mismatchedBraces := by
  have htrack : ∀ {p : GlobalPass}, p.track line = .error f → f = .ofBlock .mismatchedBraces := by
    intro p h
    unfold track at h
    split at h
    · next e haccept =>
      cases h
      rw [Tracker.accept_eq_error haccept]
    · cases h
  change ((if p.tracker.isGlobal = true then p.readLine line else .ok p) >>= fun p => p.track line) = _ at h
  by_cases hglobal : p.tracker.isGlobal = true
  · rw [if_pos hglobal] at h
    cases hread : p.readLine line with
    | ok p₁ =>
      rw [hread] at h
      exact .inr (htrack h)
    | error e =>
      rw [hread] at h
      cases h
      unfold readLine at hread
      split at hread
      · cases hread
        exact .inr rfl
      · split at hread
        · next hline =>
          cases hread
          exact .inl (ScopeChain.checkLineAt_belongsTo hline)
        · cases hread
  · rw [if_neg hglobal] at h
    exact .inr (htrack h)

theorem steps_of_within {lines : List NumberedLine} (h : p.Within lines q) (hinside : p.tracker.isGlobal = false) :
    (⟨c, ⟨.countOnly, p.tracker.depth⟩, hs⟩ : GlobalPass).steps lines =
      .ok ⟨c, ⟨.countOnly, q.tracker.depth⟩, hs⟩ := by
  induction h with
  | nil => rfl
  | cons hstep hinside' _ ih => exact steps_cons_eq_ok.2 ⟨_, step_of_step hinside hstep, ih hinside'⟩

end GlobalPass

/-! ## The start of a method -/

/-- **What the first pass finds for a header**: the method declared there has the number of the header, and its
parameters can be declared in a scope of their own. -/
theorem method_of_step {p g : GlobalPass} {line : NumberedLine} {c : ScopeChain} (hp : p.Coherent) (hg : g.Coherent)
    (hline : '\n' ∉ line.chars) (htake : p.scopes.takeLine [.methodDeclaration] line.chars = some c)
    (hkept : g.Extends ⟨c, ⟨.countOnly, 1⟩, p.headers ++ [line.number]⟩) :
    ∃ name m, declaredMethod? line.chars = some m ∧ g.scopes.methodAt? p.headers.length = some (name, m) ∧
      MethodPass.enter { scopes := g.scopes.restart } line.chars name m = .ok (MethodPass.entered g.scopes m) := by
  obtain ⟨kind, hkind, hcheck⟩ := ScopeChain.takeLine_eq_some.1 htake
  cases List.mem_singleton.1 hkind
  have hopens := (ScopeChain.opensBlock_iff_of_checkLine hline hcheck).2 (.inl rfl)
  rw [hp.global] at hcheck
  obtain ⟨name, m, hdeclared, hnames, rfl⟩ := ScopeChain.checkLine_global_methodDeclaration hcheck
  have hrestart : g.scopes.restart = g.scopes := hg.global.symm
  refine ⟨name, m, hdeclared, ?_, ?_⟩
  · obtain ⟨more, hmore⟩ := hkept.methods
    rw [ScopeChain.methodAt?, SymbolTable.entry?, ← hmore, hp.length]
    simp [ScopeChain.root]
  · rw [hrestart]
    exact MethodPass.enter_eq_ok name hopens hnames

/-! ## The end of a method -/

/-- **The end of a method is found**, unless a line before it is wrong in itself. -/
theorem end_of_method (source : Source) {g : GlobalPass} {c : ScopeChain} {hs : List Nat} {p : MethodPass}
    {lines : List NumberedLine} (hinside : p.tracker.isGlobal = false)
    (hsteps : (⟨c, ⟨.countOnly, p.tracker.depth⟩, hs⟩ : GlobalPass).steps lines = .ok g) (hg : g.tracker.depth = 0) :
    ∃ before line after p', lines = before ++ line :: after ∧ p.Within before p' ∧ p'.tracker.isGlobal = false ∧
      ((∃ q, p'.step line.chars = .ok q ∧ q.tracker.depth = 0 ∧
          (p.run source lines).outcome = .ok (some (line.number, q))) ∨
        ∃ p₁ f, p'.track line.chars = .ok p₁ ∧ p₁.readLine line.chars = .error f ∧ f.Local ∧
          (p.run source lines).outcome = .error (.on source line.number f)) := by
  rcases MethodPass.outcome_run source p lines with ⟨q, hq, -⟩ | ⟨before, line, after, p', hsplit, hbefore, hend⟩
  · -- Then the first pass would end inside of a method as well.
    rw [GlobalPass.steps_of_within hq hinside] at hsteps
    cases hsteps
    have hq' := hq.inside hinside
    have hdepth : q.tracker.depth = 0 := hg
    rw [Tracker.isGlobal_iff.2 hdepth] at hq'
    cases hq'
  · have hinside' := hbefore.inside hinside
    refine ⟨before, line, after, p', hsplit, hbefore, hinside', ?_⟩
    rcases hend with ⟨q, hstep, hq, hrun⟩ | ⟨f, hstep, hrun⟩
    · exact .inl ⟨q, hstep, Tracker.isGlobal_iff.1 hq, hrun⟩
    · obtain ⟨p₁, htrack, hread, hlocal, -⟩ := MethodPass.step_eq_error hinside' hstep
      exact .inr ⟨p₁, f, htrack, hread, hlocal, hrun⟩

/-! ## Both passes -/

/-- The pass over a method starts on line `n` in state `p`: the method has been found, and its first line has opened
one scope, which holds its parameters. -/
structure StartsAt (source : Source) (g : GlobalPass) (ordinal n : Nat) (p : MethodPass) : Prop where
  entered : ∃ name m header, g.scopes.methodAt? ordinal = some (name, m) ∧ source.line? n = some header ∧
    MethodPass.enter { scopes := g.scopes.restart } header name m = .ok p ∧
    p.scopes = g.scopes.restart.push.withVariables m.parameters.entries
  tracker : p.tracker = ⟨.switching, 1⟩

/-- The pass over a method that has read line `n` and is in state `p` counts like the pass over the global scope. -/
structure InStep (source : Source) (n : Nat) (p : MethodPass) : Prop where
  /-- The braces of a line that it reads are never at fault. -/
  tracked : ∀ before line after p', source.linesFrom (n + 1) = before ++ line :: after → p.Within before p' →
    ∃ p₁, p'.track line.chars = .ok p₁
  /-- After each line both passes count the same number of blocks. -/
  counted : ∀ before line after p' q, source.linesFrom (n + 1) = before ++ line :: after → p.Within before p' →
    p'.step line.chars = .ok q →
    ∃ r, GlobalPass.steps {} (source.numberedLines.take line.number) = .ok r ∧ q.tracker.depth = r.tracker.depth
  /-- It finds the line that closes the method, or a line before it is wrong in itself. -/
  closed : (∃ closing q, (p.run source (source.linesFrom (n + 1))).outcome = .ok (some (closing, q)) ∧
      q.tracker.depth = 0) ∨
    ∃ before line after p' p₁ f, source.linesFrom (n + 1) = before ++ line :: after ∧ p.Within before p' ∧
      p'.track line.chars = .ok p₁ ∧ p₁.readLine line.chars = .error f ∧ f.Local ∧
      (p.run source (source.linesFrom (n + 1))).outcome = .error (.on source line.number f)

section Agreement

variable {source : Source} {g : GlobalPass} {ordinal n : Nat}

/-- From a header on, the second pass counts as the first one does, and finds the end of the method. -/
theorem inStep_of_header {p : GlobalPass} {line : NumberedLine} {before after : List NumberedLine} {c : ScopeChain}
    {hs : List Nat} (m : Method) (hsplit : source.numberedLines = before ++ line :: after)
    (hbefore : GlobalPass.steps {} before = .ok p) (hstep : p.step line = .ok ⟨c, ⟨.countOnly, 1⟩, hs⟩)
    (hafter : GlobalPass.steps ⟨c, ⟨.countOnly, 1⟩, hs⟩ after = .ok g) (hdepth : g.tracker.depth = 0) :
    InStep source line.number (MethodPass.entered g.scopes m) := by
  obtain ⟨-, -, hfrom⟩ := Source.line_of_split hsplit
  refine ⟨?_, ?_, ?_⟩
  · intro body l rest p' _ hbody
    exact MethodPass.track_of_inside l.chars (hbody.inside rfl)
  · intro body l rest p' q hbodysplit hbody hq
    rw [hfrom] at hbodysplit
    have hfound : source.numberedLines = (before ++ line :: body) ++ l :: rest := by
      rw [hsplit, hbodysplit, List.append_assoc, List.cons_append]
    obtain ⟨hnumber, -, -⟩ := Source.line_of_split hfound
    have htaken : source.numberedLines.take l.number = before ++ line :: (body ++ [l]) := by
      rw [hfound, List.append_cons, hnumber, List.take_left' (by simp [Nat.add_assoc])]
      simp
    refine ⟨⟨c, ⟨.countOnly, q.tracker.depth⟩, hs⟩, ?_, rfl⟩
    rw [htaken]
    refine GlobalPass.steps_append_eq_ok.2 ⟨p, hbefore, GlobalPass.steps_cons_eq_ok.2 ⟨_, hstep, ?_⟩⟩
    refine GlobalPass.steps_append_eq_ok.2 ⟨_, GlobalPass.steps_of_within hbody rfl, ?_⟩
    exact GlobalPass.steps_cons_eq_ok.2 ⟨_, GlobalPass.step_of_step (hbody.inside rfl) hq, rfl⟩
  · rw [hfrom]
    obtain ⟨body, l, rest, p', hbodysplit, hbody, -, ⟨q, -, hq, hrun⟩ | ⟨p₁, f, htrack, hread, hlocal, hrun⟩⟩ :=
      end_of_method source (p := MethodPass.entered g.scopes m) rfl hafter hdepth
    · exact .inl ⟨l.number, q, hrun, hq⟩
    · exact .inr ⟨body, l, rest, p', p₁, f, hbodysplit, hbody, htrack, hread, hlocal, hrun⟩

theorem startsAt_of_header (hg : (readGlobals source).outcome = .ok g) (hn : g.headers[ordinal]? = some n) :
    ∃ p, StartsAt source g ordinal n p ∧ InStep source n p := by
  obtain ⟨hsteps, hdepth⟩ := GlobalPass.outcome_readGlobals_eq_ok.1 hg
  have hlines : ∀ l ∈ source.numberedLines, '\n' ∉ l.chars := fun _ => Source.newline_not_mem
  obtain ⟨before, line, after, p, c, hsplit, rfl, hbefore, hp, hpdepth, rfl, htake, hstep, hafter⟩ :=
    GlobalPass.header_of_steps GlobalPass.coherent_start hlines hsteps (Nat.zero_le _) hn
  obtain ⟨-, hheader, -⟩ := Source.line_of_split hsplit
  have hline : '\n' ∉ line.chars := hlines line (by rw [hsplit]; simp)
  have hafterlines : ∀ l ∈ after, '\n' ∉ l.chars := fun l hl => hlines l (by rw [hsplit]; simp [hl])
  obtain ⟨hgcoherent, -⟩ := GlobalPass.coherent_start.steps hlines hsteps
  obtain ⟨-, hkept⟩ := (hp.step hline hstep).1.steps hafterlines hafter
  obtain ⟨name, m, -, hmethod, henter⟩ := method_of_step hp hgcoherent hline htake hkept
  have hscopes : (MethodPass.entered g.scopes m).scopes =
      g.scopes.restart.push.withVariables m.parameters.entries := by
    rw [show g.scopes.restart = g.scopes from hgcoherent.global.symm]
    rfl
  exact ⟨MethodPass.entered g.scopes m, ⟨⟨name, m, line.chars, hmethod, hheader, henter, hscopes⟩, rfl⟩,
    inStep_of_header m hsplit hbefore hstep hafter hdepth⟩

/-- The check of a method fails because a line is wrong in itself, or because there is no return at the end. -/
theorem cause_of_checkMethod {r : Rejection} (hg : (readGlobals source).outcome = .ok g)
    (hn : g.headers[ordinal]? = some n) (h : (checkMethod source g.scopes ordinal n).outcome = .error r) :
    r.cause.Local ∨ ∃ name, r.cause = .ofBlock (.missingReturn name) := by
  obtain ⟨p, ⟨⟨name, m, header, hmethod, hheader, henter, -⟩, -⟩, hstep⟩ := startsAt_of_header hg hn
  rcases hstep.closed with ⟨closing, q, hrun, -⟩ | ⟨_, _, _, _, _, f, -, -, -, -, hlocal, hrun⟩
  · rcases outcome_checkMethod_eq_error hmethod hheader henter h with hfail | ⟨hopen, -⟩ | ⟨_, _, -, -, rfl⟩
    · cases hrun.symm.trans hfail
    · cases hrun.symm.trans hopen
    · exact .inr ⟨name, rfl⟩
  · rw [outcome_checkMethod hmethod hheader henter, hrun] at h
    cases h
    exact .inl hlocal

/-- The pass over the global scope fails because a line is wrong in itself, or because the braces do not match. -/
theorem cause_of_readGlobals {r : Rejection} (h : (readGlobals source).outcome = .error r) :
    r.cause.Local ∨ r.cause = .ofBlock .mismatchedBraces := by
  rcases GlobalPass.outcome_readGlobals_eq_error h with ⟨_, _, _, _, f, -, -, hstep, rfl⟩ | ⟨_, -, -, rfl⟩
  · exact (GlobalPass.step_eq_error hstep).imp_left And.left
  · exact .inr rfl

/-- **Both passes see the same blocks.** For every header that the first pass finds, the second pass starts with the
scope of the method, counts as the first one did, and finds the end of the method if its lines are right. So no method
is without its scope, and none without an end. -/
theorem passes_agree (source : Source) :
    (∀ g, (readGlobals source).outcome = .ok g → ∀ ordinal n, g.headers[ordinal]? = some n →
      (∃ p, StartsAt source g ordinal n p ∧ InStep source n p) ∧
        ∀ r, (checkMethod source g.scopes ordinal n).outcome = .error r → r.cause ≠ .ofBlock .mismatchedBraces) ∧
      ∀ r name, check source = .error r → r.cause ≠ .ofBlock (.parametersNotInScope name) := by
  refine ⟨fun g hg ordinal n hn => ⟨startsAt_of_header hg hn, fun r hr hcause => ?_⟩, fun r name hr hcause => ?_⟩
  · rcases cause_of_checkMethod hg hn hr with hlocal | ⟨name, hreturn⟩
    · exact hlocal _ hcause
    · rw [hreturn] at hcause
      cases hcause
  · rcases check_eq_error hr with hread | ⟨g, i, n, hg, hn, hmethod⟩
    · rcases cause_of_readGlobals hread with hlocal | hbraces
      · exact hlocal _ hcause
      · rw [hbraces] at hcause
        cases hcause
    · rcases cause_of_checkMethod hg hn hmethod with hlocal | ⟨name', hreturn⟩
      · exact hlocal _ hcause
      · rw [hreturn] at hcause
        cases hcause

/-- One method with a parameter, which returns at once. -/
theorem passes_agree_on_lone_method : ∃ (source : Source) (g : GlobalPass), (readGlobals source).outcome = .ok g ∧
    g.headers[0]? = some 1 ∧ ∃ p, StartsAt source g 0 1 p ∧ InStep source 1 p := by
  let source : Source := { name := "lone.sjava", text := "void run(int a) \x7b\n return;\n\x7d\n" }
  let methods : SymbolTable Method := ⟨[("run", ⟨⟨[("a", .parameter .int false)]⟩⟩)]⟩
  have hg : (readGlobals source).outcome = .ok ⟨.global { methods }, ⟨.countOnly, 0⟩, [1]⟩ := by decide +kernel
  exact ⟨source, _, hg, rfl, ((passes_agree source).1 _ hg 0 1 rfl).1⟩

end Agreement

end BlockCheck
