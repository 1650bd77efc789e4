import BlockCheck.Proofs.Program.Steps

/-!
# Runs of the two passes

- A run of the pass over the global scope is its steps in sequence (`GlobalPass.outcome_run_eq_ok`). Every step keeps
  the state coherent and only adds to what has been found (`GlobalPass.Coherent.step`), so every run does
  (`GlobalPass.Coherent.steps`); each header that it finds stands outside of methods (`GlobalPass.header_of_steps`).
- A run of the pass over a method reads lines inside of it, and then ends for one of three reasons
  (`MethodPass.outcome_run`). It starts with one scope that holds the parameters (`MethodPass.enter_eq_ok`).
- The verdict on a program is that of its two passes (`check_eq_ok`, `check_eq_error`).
-/

namespace BlockCheck

theorem Tracker.isGlobal_iff {t : Tracker} : t.isGlobal = true ↔ t.depth = 0 := beq_iff_eq

/-! ## The pass over the global scope -/

namespace GlobalPass

variable {source : Source} {p p' q : GlobalPass} {line : NumberedLine} {lines before after : List NumberedLine}

/-- The state of the pass after some lines. -/
def steps (p : GlobalPass) (lines : List NumberedLine) : Except LineFault GlobalPass := lines.foldlM step p

theorem steps_cons : p.steps (line :: lines) = (p.step line).bind (·.steps lines) := List.foldlM_cons

theorem steps_cons_eq_ok : p.steps (line :: lines) = .ok q ↔ ∃ p', p.step line = .ok p' ∧ p'.steps lines = .ok q := by
  rw [steps_cons]
  exact bind_eq_ok

theorem steps_append_eq_ok : p.steps (before ++ after) = .ok q ↔
    ∃ p', p.steps before = .ok p' ∧ p'.steps after = .ok q := by
  rw [steps, List.foldlM_append]
  exact bind_eq_ok

theorem outcome_run_cons : (run source p (line :: lines)).outcome =
    ((p.step line).mapError (.on source line.number)).bind fun p' => (run source p' lines).outcome := by
  rw [run, Logged.outcome_bind]

theorem outcome_run_eq_ok : (run source p lines).outcome = .ok q ↔ p.steps lines = .ok q := by
  induction lines generalizing p with
  | nil => exact ⟨fun h => congrArg _ (Except.ok.inj h), fun h => congrArg _ (Except.ok.inj h)⟩
  | cons line lines ih =>
    rw [outcome_run_cons, bind_eq_ok, steps_cons_eq_ok]
    simp only [mapError_eq_ok, ih]

/-- A run that fails has reached the line that is at fault. -/
theorem outcome_run_eq_error {r : Rejection} (h : (run source p lines).outcome = .error r) :
    ∃ before line after p' f, lines = before ++ line :: after ∧ p.steps before = .ok p' ∧ p'.step line = .error f ∧
      r = .on source line.number f := by
  induction lines generalizing p with
  | nil => cases h
  | cons line lines ih =>
    rw [outcome_run_cons, bind_eq_error, mapError_eq_error] at h
    rcases h with ⟨f, hstep, rfl⟩ | ⟨p₁, hstep, hrun⟩
    · exact ⟨[], line, lines, p, f, rfl, rfl, hstep, rfl⟩
    · obtain ⟨before, l, after, p', f, rfl, hbefore, hfault, hr⟩ := ih hrun
      have hfirst := steps_cons_eq_ok.2 ⟨p₁, mapError_eq_ok.1 hstep, hbefore⟩
      exact ⟨line :: before, l, after, p', f, rfl, hfirst, hfault, hr⟩

theorem outcome_readGlobals (source : Source) : (readGlobals source).outcome =
    (run source {} source.numberedLines).outcome.bind fun p =>
      if p.tracker.isGlobal then .ok p else .error (.on source source.lineCount (.ofBlock .mismatchedBraces)) := by
  rw [readGlobals, Logged.outcome_bind]
  refine congrArg _ (funext fun p => ?_)
  split <;> rfl

/-- The pass succeeds if its steps do, and no block is open at its end. -/
theorem outcome_readGlobals_eq_ok : (readGlobals source).outcome = .ok q ↔
    steps {} source.numberedLines = .ok q ∧ q.tracker.depth = 0 := by
  rw [outcome_readGlobals, bind_eq_ok]
  simp only [outcome_run_eq_ok]
  constructor
  · rintro ⟨p, hsteps, hp⟩
    split at hp
    · next hglobal =>
      cases hp
      exact ⟨hsteps, Tracker.isGlobal_iff.1 hglobal⟩
    · cases hp
  · rintro ⟨hsteps, hdepth⟩
    exact ⟨q, hsteps, if_pos (Tracker.isGlobal_iff.2 hdepth)⟩

/-- The pass fails on a line, or at the end because a block is open there. -/
theorem outcome_readGlobals_eq_error {r : Rejection} (h : (readGlobals source).outcome = .error r) :
    (∃ before line after p f, source.numberedLines = before ++ line :: after ∧ steps {} before = .ok p ∧
        p.step line = .error f ∧ r = .on source line.number f) ∨
      ∃ p, steps {} source.numberedLines = .ok p ∧ p.tracker.depth ≠ 0 ∧
        r = .on source source.lineCount (.ofBlock .mismatchedBraces) := by
  rw [outcome_readGlobals, bind_eq_error] at h
  rcases h with h | ⟨p, hrun, hp⟩
  · exact .inl (outcome_run_eq_error h)
  · split at hp
    · cases hp
    · next hopen =>
      cases hp
      exact .inr ⟨p, outcome_run_eq_ok.1 hrun, fun hdepth => hopen (Tracker.isGlobal_iff.2 hdepth), rfl⟩

/-! ### What every run keeps -/

/-- One scope is open, it is not touched by the braces, and there is one method in it for each header, with different
names for its parameters. -/
structure Coherent (p : GlobalPass) : Prop where
  global : p.scopes = .global p.scopes.root
  mode : p.tracker.mode = .countOnly
  length : p.headers.length = p.scopes.root.methods.entries.length
  distinct : ∀ e ∈ p.scopes.root.methods.entries, e.2.parameters.names.Nodup

/-- All that has been found is still there. -/
structure Extends (q p : GlobalPass) : Prop where
  headers : p.headers <+: q.headers
  methods : p.scopes.root.methods.entries <+: q.scopes.root.methods.entries

theorem Extends.refl (p : GlobalPass) : p.Extends p := ⟨List.prefix_rfl, List.prefix_rfl⟩

theorem Extends.trans {r : GlobalPass} (h : r.Extends q) (h' : q.Extends p) : r.Extends p :=
  ⟨h'.headers.trans h.headers, h'.methods.trans h.methods⟩

theorem coherent_start : Coherent {} := ⟨rfl, rfl, rfl, fun _ h => (nomatch h)⟩

/-- A step keeps the state coherent, and adds at most one method. -/
theorem Coherent.step (hp : p.Coherent) (hline : '\n' ∉ line.chars) (h : p.step line = .ok p') :
    p'.Coherent ∧ p'.Extends p := by
  obtain ⟨c, ⟨mode, d⟩, hs⟩ := p
  obtain ⟨hglobal, hmode, hlength, hdistinct⟩ := hp
  obtain ⟨s, rfl⟩ : ∃ s, c = .global s := ⟨_, hglobal⟩
  cases hmode
  cases d with
  | succ d =>
    obtain ⟨d', -, rfl⟩ := step_inside.1 h
    exact ⟨⟨rfl, rfl, hlength, hdistinct⟩, List.prefix_rfl, List.prefix_rfl⟩
  | zero =>
    rcases (step_outside hline).1 h with ⟨-, rfl⟩ | ⟨c', htake, rfl⟩ | ⟨c', htake, rfl⟩
    · exact ⟨⟨rfl, rfl, hlength, hdistinct⟩, Extends.refl _⟩
    · obtain ⟨kind, hkind, hcheck⟩ := ScopeChain.takeLine_eq_some.1 htake
      obtain ⟨vars, rfl⟩ := ScopeChain.checkLine_global_of_variables hkind hcheck
      exact ⟨⟨rfl, rfl, hlength, hdistinct⟩, List.prefix_rfl, List.prefix_rfl⟩
    · obtain ⟨kind, hkind, hcheck⟩ := ScopeChain.takeLine_eq_some.1 htake
      cases List.mem_singleton.1 hkind
      obtain ⟨name, m, -, hnames, rfl⟩ := ScopeChain.checkLine_global_methodDeclaration hcheck
      refine ⟨⟨rfl, rfl, ?_, fun e he => ?_⟩, List.prefix_append _ _, List.prefix_append _ _⟩
      · show (hs ++ [line.number]).length = (s.methods.entries ++ [(name, m)]).length
        rw [List.length_append, List.length_append, hlength]
        rfl
      · rcases List.mem_append.1 he with he | he
        · exact hdistinct e he
        · rw [List.mem_singleton.1 he]
          exact hnames

/-- Every run keeps the state coherent. -/
theorem Coherent.steps (hp : p.Coherent) (hlines : ∀ l ∈ lines, '\n' ∉ l.chars) (h : p.steps lines = .ok q) :
    q.Coherent ∧ q.Extends p := by
  induction lines generalizing p with
  | nil =>
    cases h
    exact ⟨hp, Extends.refl _⟩
  | cons line lines ih =>
    obtain ⟨p', hstep, hrest⟩ := steps_cons_eq_ok.1 h
    obtain ⟨hp', hextends⟩ := hp.step (hlines line List.mem_cons_self) hstep
    obtain ⟨hq, hextends'⟩ := ih hp' (fun l hl => hlines l (List.mem_cons_of_mem _ hl)) hrest
    exact ⟨hq, hextends'.trans hextends⟩

/-- **Every header stands outside of methods.** It is found by a step that starts a method there. -/
theorem header_of_steps {i n : Nat} (hp : p.Coherent) (hlines : ∀ l ∈ lines, '\n' ∉ l.chars)
    (h : p.steps lines = .ok q) (hi : p.headers.length ≤ i) (hn : q.headers[i]? = some n) :
    ∃ before line after p' c, lines = before ++ line :: after ∧ line.number = n ∧ p.steps before = .ok p' ∧
      p'.Coherent ∧ p'.tracker.depth = 0 ∧ p'.headers.length = i ∧
      p'.scopes.takeLine [.methodDeclaration] line.chars = some c ∧
      p'.step line = .ok ⟨c, ⟨.countOnly, 1⟩, p'.headers ++ [n]⟩ ∧
      steps ⟨c, ⟨.countOnly, 1⟩, p'.headers ++ [n]⟩ after = .ok q := by
  induction lines generalizing p with
  | nil =>
    cases h
    rw [List.getElem?_eq_none hi] at hn
    cases hn
  | cons line lines ih =>
    obtain ⟨p', hstep, hrest⟩ := steps_cons_eq_ok.1 h
    have hline := hlines line List.mem_cons_self
    have hlines' : ∀ l ∈ lines, '\n' ∉ l.chars := fun l hl => hlines l (List.mem_cons_of_mem _ hl)
    obtain ⟨hp', hextends⟩ := hp.step hline hstep
    by_cases hlater : p'.headers.length ≤ i
    · obtain ⟨before, l, after, p₁, c, rfl, hnumber, hbefore, hfound⟩ := ih hp' hlines' hrest hlater
      exact ⟨line :: before, l, after, p₁, c, rfl, hnumber, steps_cons_eq_ok.2 ⟨p', hstep, hbefore⟩, hfound⟩
    · -- This line has added the header with number `i`.
      obtain ⟨-, hkept⟩ := hp'.steps hlines' hrest
      obtain ⟨c, ⟨mode, d⟩, hs⟩ := p
      cases hp.mode
      cases d with
      | succ d =>
        obtain ⟨d', -, rfl⟩ := step_inside.1 hstep
        exact absurd hi hlater
      | zero =>
        rcases (step_outside hline).1 hstep with ⟨-, rfl⟩ | ⟨c', -, rfl⟩ | ⟨c', htake, rfl⟩
        · exact absurd hi hlater
        · exact absurd hi hlater
        · have hlast : hs.length = i := by
            simp only [List.length_append, List.length_singleton] at hlater hi
            omega
          have hnumber : line.number = n := by
            obtain ⟨more, hmore⟩ := hkept.headers
            rw [← hmore, ← hlast, List.append_assoc, List.getElem?_append_right (Nat.le_refl _), Nat.sub_self] at hn
            exact Option.some.inj hn
          subst hnumber
          exact ⟨[], line, lines, _, c', rfl, rfl, rfl, hp, rfl, hlast, htake, hstep, hrest⟩

end GlobalPass

/-! ## The pass over a method -/

namespace MethodPass

variable {source : Source} {p p' q : MethodPass} {line : NumberedLine} {lines before after : List NumberedLine}

/-- The lines lead from one state to another and do not leave the method. -/
inductive Within : MethodPass → List NumberedLine → MethodPass → Prop
  | nil {p : MethodPass} : Within p [] p
  | cons {p p' q : MethodPass} {line : NumberedLine} {lines : List NumberedLine} : p.step line.chars = .ok p' →
      p'.tracker.isGlobal = false → Within p' lines q → Within p (line :: lines) q

theorem Within.append {r : MethodPass} (h : p.Within before q) (h' : q.Within after r) :
    p.Within (before ++ after) r := by
  induction h with
  | nil => exact h'
  | cons hstep hinside _ ih => exact .cons hstep hinside (ih h')

theorem Within.split (h : p.Within (before ++ after) q) : ∃ r, p.Within before r ∧ r.Within after q := by
  induction before generalizing p with
  | nil => exact ⟨p, .nil, h⟩
  | cons line before ih =>
    cases h with
    | cons hstep hinside hrest =>
      obtain ⟨r, hbefore, hafter⟩ := ih hrest
      exact ⟨r, .cons hstep hinside hbefore, hafter⟩

theorem Within.unique {r : MethodPass} (h : p.Within lines q) (h' : p.Within lines r) : q = r := by
  induction h with
  | nil => cases h'; rfl
  | cons hstep _ _ ih =>
    cases h' with
    | cons hstep' _ hrest =>
      rw [hstep] at hstep'
      cases hstep'
      exact ih hrest

theorem outcome_run_cons : (run source p (line :: lines)).outcome =
    ((p.step line.chars).mapError (.on source line.number)).bind fun p' =>
      if p'.tracker.isGlobal then .ok (some (line.number, p')) else (run source p' lines).outcome := by
  rw [run, Logged.outcome_bind]
  refine congrArg _ (funext fun p' => ?_)
  split <;> rfl

/-- **How a run ends.** It reads lines inside of the method, and then there is no line left, or one that leaves the
method, or one that fails. -/
theorem outcome_run (source : Source) (p : MethodPass) (lines : List NumberedLine) :
    (∃ q, p.Within lines q ∧ (run source p lines).outcome = .ok none) ∨
      ∃ before line after p', lines = before ++ line :: after ∧ p.Within before p' ∧
        ((∃ q, p'.step line.chars = .ok q ∧ q.tracker.isGlobal = true ∧
            (run source p lines).outcome = .ok (some (line.number, q))) ∨
          ∃ f, p'.step line.chars = .error f ∧
            (run source p lines).outcome = .error (.on source line.number f)) := by
  induction lines generalizing p with
  | nil => exact .inl ⟨p, .nil, rfl⟩
  | cons line lines ih =>
    cases hstep : p.step line.chars with
    | error f => exact .inr ⟨[], line, lines, p, rfl, .nil, .inr ⟨f, hstep, by rw [outcome_run_cons, hstep]; rfl⟩⟩
    | ok p₁ =>
      have hrun : (run source p (line :: lines)).outcome =
          if p₁.tracker.isGlobal then .ok (some (line.number, p₁)) else (run source p₁ lines).outcome := by
        rw [outcome_run_cons, hstep]
        rfl
      rw [hrun]
      cases hglobal : p₁.tracker.isGlobal with
      | true => exact .inr ⟨[], line, lines, p, rfl, .nil, .inl ⟨p₁, hstep, hglobal, rfl⟩⟩
      | false =>
        rcases ih p₁ with ⟨q, hq, hr⟩ | ⟨before, l, after, p', rfl, hbefore, hend⟩
        · exact .inl ⟨q, .cons hstep hglobal hq, hr⟩
        · exact .inr ⟨line :: before, l, after, p', rfl, .cons hstep hglobal hbefore, hend⟩

/-- Lines inside of the method are read, and the run goes on. -/
theorem outcome_run_of_within (h : p.Within before p') :
    (run source p (before ++ after)).outcome = (run source p' after).outcome := by
  induction h with
  | nil => rfl
  | cons hstep hinside _ ih =>
    rw [List.cons_append, outcome_run_cons, hstep]
    show (if _ then _ else _) = _
    rw [hinside]
    exact ih

/-! ### The first line -/

/-- The state in which the body of a method is entered: one scope is open in it, which holds the parameters. -/
def entered (globals : ScopeChain) (m : Method) : MethodPass :=
  ⟨globals.push.withVariables m.parameters.entries, ⟨.switching, 1⟩, none, none⟩

/-- The first line of a method opens a block, and its parameters are declared there. -/
theorem enter_eq_ok {globals : ScopeChain} {header : List Char} {m : Method} (name : String)
    (hopens : opensBlock header = true) (hnames : m.parameters.names.Nodup) :
    enter { scopes := globals } header name m = .ok (entered globals m) := by
  have hdeclare : declare ⟨globals.push, ⟨.switching, 1⟩, none, none⟩ m.parameters.entries =
      .ok (entered globals m) := by
    rw [declare, ScopeChain.foldlM_addVariable hnames fun _ _ => rfl]
    rfl
  show (track ⟨globals, ⟨.switching, 0⟩, none, none⟩ header >>= _) = _
  rw [track_of_opens hopens]
  show (declare _ _).mapError _ = _
  rw [hdeclare]
  rfl

end MethodPass

/-! ## One method -/

section Method

variable {source : Source} {globals : ScopeChain} {ordinal declaration : Nat} {name : String} {m : Method}
  {header : List Char} {p : MethodPass}

/-- What is left of the check of a method after its first line. -/
theorem outcome_checkMethod (hmethod : globals.methodAt? ordinal = some (name, m))
    (hheader : source.line? declaration = some header)
    (henter : MethodPass.enter { scopes := globals.restart } header name m = .ok p) :
    (checkMethod source globals ordinal declaration).outcome =
      (p.run source (source.linesFrom (declaration + 1))).outcome.bind fun
        | none => .error (.on source source.lineCount (.ofBlock .mismatchedBraces))
        | some (closing, q) =>
          if q.endsWithReturn then .ok () else .error (.on source closing (.ofBlock (.missingReturn name))) := by
  unfold checkMethod
  rw [hmethod, hheader]
  simp only [Option.getD_some, Logged.outcome_bind, Logged.outcome_tell]
  show Except.bind (Except.mapError _ (MethodPass.enter { scopes := globals.restart } header name m)) _ = _
  rw [henter]
  show Except.bind (p.run source (source.linesFrom (declaration + 1))).outcome _ = _
  refine congrArg _ (funext fun closing? => ?_)
  obtain _ | ⟨closing, q⟩ := closing?
  · rfl
  · show (if q.endsWithReturn = true then _ else _ : Logged Rejection Unit).outcome =
      if q.endsWithReturn = true then _ else _
    cases q.endsWithReturn <;> rfl

/-- A method is right if the run ends with it, after a return. -/
theorem outcome_checkMethod_eq_ok (hmethod : globals.methodAt? ordinal = some (name, m))
    (hheader : source.line? declaration = some header)
    (henter : MethodPass.enter { scopes := globals.restart } header name m = .ok p) :
    (checkMethod source globals ordinal declaration).outcome = .ok () ↔
      ∃ closing q, (p.run source (source.linesFrom (declaration + 1))).outcome = .ok (some (closing, q)) ∧
        q.endsWithReturn = true := by
  rw [outcome_checkMethod hmethod hheader henter, bind_eq_ok]
  constructor
  · rintro ⟨_ | ⟨closing, q⟩, hrun, hend⟩
    · cases hend
    · exact ⟨closing, q, hrun, by_contra fun hreturn => by simp [hreturn] at hend⟩
  · rintro ⟨closing, q, hrun, hreturn⟩
    exact ⟨_, hrun, if_pos hreturn⟩

/-- A method is wrong if its run fails, or reaches the end of the program, or ends without a return. -/
theorem outcome_checkMethod_eq_error {r : Rejection} (hmethod : globals.methodAt? ordinal = some (name, m))
    (hheader : source.line? declaration = some header)
    (henter : MethodPass.enter { scopes := globals.restart } header name m = .ok p)
    (h : (checkMethod source globals ordinal declaration).outcome = .error r) :
    (p.run source (source.linesFrom (declaration + 1))).outcome = .error r ∨
      (p.run source (source.linesFrom (declaration + 1))).outcome = .ok none ∧
        r = .on source source.lineCount (.ofBlock .mismatchedBraces) ∨
      ∃ closing q, (p.run source (source.linesFrom (declaration + 1))).outcome = .ok (some (closing, q)) ∧
        q.endsWithReturn = false ∧ r = .on source closing (.ofBlock (.missingReturn name)) := by
  rw [outcome_checkMethod hmethod hheader henter, bind_eq_error] at h
  rcases h with h | ⟨_ | ⟨closing, q⟩, hrun, hend⟩
  · exact .inl h
  · cases hend
    exact .inr (.inl ⟨hrun, rfl⟩)
  · cases hreturn : q.endsWithReturn with
    | true => simp [hreturn] at hend
    | false =>
      simp only [hreturn, Bool.false_eq_true, if_false] at hend
      cases hend
      exact .inr (.inr ⟨closing, q, hrun, hreturn, rfl⟩)

end Method

/-! ## All methods -/

section Methods

variable {source : Source} {globals : ScopeChain} {declarations : List Nat} {ordinal : Nat}

theorem outcome_checkMethods_cons {declaration : Nat} :
    (checkMethods source globals ordinal (declaration :: declarations)).outcome =
      (checkMethod source globals ordinal declaration).outcome.bind fun _ =>
        (checkMethods source globals (ordinal + 1) declarations).outcome := by
  rw [checkMethods, Logged.outcome_bind]

/-- All methods are right if each one is. -/
theorem outcome_checkMethods_eq_ok : (checkMethods source globals ordinal declarations).outcome = .ok () ↔
    ∀ i n, declarations[i]? = some n → (checkMethod source globals (ordinal + i) n).outcome = .ok () := by
  induction declarations generalizing ordinal with
  | nil => exact ⟨fun _ _ _ h => (nomatch h), fun _ => rfl⟩
  | cons declaration declarations ih =>
    rw [outcome_checkMethods_cons, bind_eq_ok]
    constructor
    · rintro ⟨_, hfirst, hrest⟩ i n hn
      cases i with
      | zero => cases hn; exact hfirst
      | succ i =>
        have hi := ih.1 hrest i n hn
        rwa [Nat.add_assoc, Nat.add_comm 1] at hi
    · intro h
      refine ⟨(), h 0 declaration rfl, ih.2 fun i n hn => ?_⟩
      have hi := h (i + 1) n hn
      rwa [Nat.add_comm i, ← Nat.add_assoc] at hi

/-- If the methods are not all right, one of them is not. -/
theorem outcome_checkMethods_eq_error {r : Rejection}
    (h : (checkMethods source globals ordinal declarations).outcome = .error r) :
    ∃ i n, declarations[i]? = some n ∧ (checkMethod source globals (ordinal + i) n).outcome = .error r := by
  induction declarations generalizing ordinal with
  | nil => cases h
  | cons declaration declarations ih =>
    rw [outcome_checkMethods_cons, bind_eq_error] at h
    rcases h with hfirst | ⟨_, -, hrest⟩
    · exact ⟨0, declaration, rfl, hfirst⟩
    · obtain ⟨i, n, hn, hi⟩ := ih hrest
      refine ⟨i + 1, n, hn, ?_⟩
      rwa [Nat.add_comm i, ← Nat.add_assoc]

end Methods

/-! ## Both passes -/

section Verdict

variable {source : Source} {r : Rejection} {report : Report}

theorem check_eq (source : Source) : check source = (readGlobals source).outcome.bind fun g =>
    (checkMethods source g.scopes 0 g.headers).outcome.bind fun _ => .ok (Report.of source g.scopes.root) := by
  unfold check run
  simp only [Logged.outcome_bind, Logged.outcome_tell, Logged.outcome_pure]
  rfl

/-- A program is right if the global scope is, and then every method. -/
theorem check_eq_ok : check source = .ok report ↔ ∃ g, (readGlobals source).outcome = .ok g ∧
    (∀ i n, g.headers[i]? = some n → (checkMethod source g.scopes i n).outcome = .ok ()) ∧
    Report.of source g.scopes.root = report := by
  simp only [check_eq, bind_eq_ok, Except.ok.injEq]
  refine exists_congr fun g => and_congr_right fun _ => ?_
  constructor
  · rintro ⟨_, hmethods, hreport⟩
    rw [outcome_checkMethods_eq_ok] at hmethods
    exact ⟨fun i n hn => Nat.zero_add i ▸ hmethods i n hn, hreport⟩
  · rintro ⟨hmethods, hreport⟩
    exact ⟨(), outcome_checkMethods_eq_ok.2 fun i n hn => (Nat.zero_add i).symm ▸ hmethods i n hn, hreport⟩

/-- A program is rejected by one of the two passes. -/
theorem check_eq_error (h : check source = .error r) : (readGlobals source).outcome = .error r ∨
    ∃ g i n, (readGlobals source).outcome = .ok g ∧ g.headers[i]? = some n ∧
      (checkMethod source g.scopes i n).outcome = .error r := by
  rw [check_eq, bind_eq_error] at h
  rcases h with h | ⟨g, hg, h⟩
  · exact .inl h
  · rcases bind_eq_error.1 h with hmethods | ⟨_, -, hreport⟩
    · obtain ⟨i, n, hn, hmethod⟩ := outcome_checkMethods_eq_error hmethods
      rw [Nat.zero_add] at hmethod
      exact .inr ⟨g, i, n, hg, hn, hmethod⟩
    · cases hreport

end Verdict

end BlockCheck
