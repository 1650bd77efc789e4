import BlockCheck.Proofs.Program.Depth

/-!
# Visits

A visit is the check of one line in the scopes that are open there. `visits` lists the visits of a run of the checker
in the order in which they are made. It takes the same steps as the run, and the run logs every visit:
what the log says of lines that are checked is what the visits say, in the same order (`log_eq_visits`).

A line that is taken into account is visited, and right (`GlobalPass.visit_of_step_outside`,
`MethodPass.visit_of_step`).
-/

namespace BlockCheck

/-- The check of a line. -/
structure Visit where
  line : NumberedLine
  placement : Placement
  /-- The scopes in which the line is checked. -/
  scopes : ScopeChain

namespace Visit

/-- The line is right, and may stand where it does. -/
def Accepted (v : Visit) : Prop := ∃ result, v.scopes.checkLineAt v.placement v.line.chars = .ok result

/-- What is logged of the visit. -/
def log (v : Visit) : List LogEntry := lineLog v.scopes v.line.chars

end Visit

/-! ## The visits of a run -/

/-- The visit to a line by the pass over the global scope. -/
def GlobalPass.visit (p : GlobalPass) (line : NumberedLine) : List Visit :=
  if p.tracker.isGlobal && !closesBlock line.chars then [⟨line, .global, p.scopes⟩] else []

/-- The visits to lines up to the first fault. -/
def GlobalPass.visits : GlobalPass → List NumberedLine → List Visit
  | _, [] => []
  | p, line :: lines =>
    p.visit line ++
      match p.step line with
      | .ok p' => p'.visits lines
      | .error _ => []

/-- The visit to a line by the pass over a method. The braces of the line have been followed before it. -/
def MethodPass.visit (p : MethodPass) (line : NumberedLine) : List Visit :=
  match p.track line.chars with
  | .ok p' => [⟨line, .methodBody, p'.scopes⟩]
  | .error _ => []

/-- The visits to lines up to the end of the method or the first fault. -/
def MethodPass.visits : MethodPass → List NumberedLine → List Visit
  | _, [] => []
  | p, line :: lines =>
    p.visit line ++
      match p.step line.chars with
      | .ok p' => if p'.tracker.isGlobal then [] else p'.visits lines
      | .error _ => []

/-- The visits to the lines of the method that is declared `ordinal`-th, on the given line. -/
def methodVisits (source : Source) (globals : ScopeChain) (ordinal declaration : Nat) : List Visit :=
  match globals.methodAt? ordinal with
  | none => []
  | some (name, m) =>
    match MethodPass.enter { scopes := globals.restart } ((source.line? declaration).getD []) name m with
    | .ok p => p.visits (source.linesFrom (declaration + 1))
    | .error _ => []

/-- The visits to the lines of methods that are declared on the given lines, up to the first fault. -/
def methodsVisits (source : Source) (globals : ScopeChain) : (ordinal : Nat) → List Nat → List Visit
  | _, [] => []
  | ordinal, declaration :: rest =>
    methodVisits source globals ordinal declaration ++
      match (checkMethod source globals ordinal declaration).outcome with
      | .ok _ => methodsVisits source globals (ordinal + 1) rest
      | .error _ => []

/-- All visits of a run. -/
def visits (source : Source) : List Visit :=
  GlobalPass.visits {} source.numberedLines ++
    match (readGlobals source).outcome with
    | .ok g => methodsVisits source g.scopes 0 g.headers
    | .error _ => []

/-! ## The visits are logged -/

/-- The entry is about a line that is checked. -/
def LogEntry.isVisit (e : LogEntry) : Bool := e.level = .trace && "Parsing ".toList.isPrefixOf e.message.toList

namespace Logged

variable {ε ε' α β : Type}

theorem log_bind (x : Logged ε α) (f : α → Logged ε β) :
    (x >>= f).log = x.log ++ match x.outcome with
      | .ok a => (f a).log
      | .error _ => [] := by
  obtain ⟨log, outcome⟩ := x
  cases outcome with
  | ok a => rfl
  | error e => exact (List.append_nil log).symm

@[simp] theorem log_tell (level : LogLevel) (message : String) :
    (tell level message : Logged ε Unit).log = [⟨level, message⟩] := rfl

/-- What is logged of lines that are checked. -/
def visitLog (x : Logged ε α) : List LogEntry := x.log.filter LogEntry.isVisit

theorem visitLog_bind (x : Logged ε α) (f : α → Logged ε β) :
    (x >>= f).visitLog = x.visitLog ++ match x.outcome with
      | .ok a => (f a).visitLog
      | .error _ => [] := by
  rw [visitLog, log_bind, List.filter_append]
  cases x.outcome <;> rfl

theorem visitLog_tell {level : LogLevel} {message : String} (h : LogEntry.isVisit ⟨level, message⟩ = false) :
    (tell level message : Logged ε Unit).visitLog = [] := by
  rw [visitLog, log_tell, List.filter_cons, h]
  rfl

/-- Entries above the level of visits are about something else. -/
theorem visitLog_tell_of_level {level : LogLevel} (message : String) (h : level ≠ .trace) :
    (tell level message : Logged ε Unit).visitLog = [] :=
  visitLog_tell (by rw [LogEntry.isVisit, decide_eq_false h, Bool.false_and])

end Logged

/-- Every entry on a line that is checked is about such a line. -/
theorem Visit.filter_log (v : Visit) : v.log.filter LogEntry.isVisit = v.log := by
  refine List.filter_eq_self.2 fun e he => ?_
  unfold log lineLog at he
  split at he
  · rw [List.mem_singleton.1 he]
    simp [LogEntry.isVisit, toString]
  · cases he

theorem Visit.filter_flatMap_log (vs : List Visit) : (vs.flatMap log).filter LogEntry.isVisit = vs.flatMap log := by
  rw [List.filter_flatMap]
  exact List.flatMap_congr fun v _ => v.filter_log

section Log

variable (source : Source)

theorem GlobalPass.stepLog_eq (p : GlobalPass) (line : NumberedLine) :
    p.stepLog line = (p.visit line).flatMap Visit.log := by
  unfold stepLog visit
  split
  · exact (List.append_nil _).symm
  · rfl

theorem GlobalPass.visitLog_run (p : GlobalPass) (lines : List NumberedLine) :
    (run source p lines).visitLog = (p.visits lines).flatMap Visit.log := by
  induction lines generalizing p with
  | nil => rfl
  | cons line lines ih =>
    rw [run, Logged.visitLog_bind, visits, List.flatMap_append]
    refine congrArg₂ _ ?_ ?_
    · rw [Logged.visitLog, stepLog_eq, Visit.filter_flatMap_log]
    · cases p.step line with
      | ok p' => exact ih p'
      | error f => rfl

theorem visitLog_readGlobals :
    (readGlobals source).visitLog = (GlobalPass.visits {} source.numberedLines).flatMap Visit.log := by
  rw [readGlobals, Logged.visitLog_bind, GlobalPass.visitLog_run]
  refine (congrArg _ ?_).trans (List.append_nil _)
  split
  · next p _ =>
    split
    · rw [Logged.visitLog_bind, Logged.visitLog_tell_of_level _ (by decide)]
      rfl
    · rfl
  · rfl

/-- What is logged of the braces of a line is not about the check of the line. -/
theorem MethodPass.filter_trackLog (p : MethodPass) (line : List Char) :
    (p.trackLog line).filter LogEntry.isVisit = [] := by
  refine List.filter_eq_nil_iff.2 fun e he => ?_
  unfold trackLog at he
  split at he
  · rw [List.mem_singleton.1 he]
    simp [LogEntry.isVisit, toString]
  · rw [List.mem_singleton.1 he]
    simp [LogEntry.isVisit, toString]
  · cases he

theorem MethodPass.filter_stepLog (p : MethodPass) (line : NumberedLine) :
    (p.stepLog line.chars).filter LogEntry.isVisit = (p.visit line).flatMap Visit.log := by
  rw [stepLog, List.filter_append, filter_trackLog, List.nil_append, visit]
  cases p.track line.chars with
  | ok p' => exact (Visit.filter_log ⟨line, .methodBody, p'.scopes⟩).trans (List.append_nil _).symm
  | error f => rfl

theorem MethodPass.visitLog_run (p : MethodPass) (lines : List NumberedLine) :
    (run source p lines).visitLog = (p.visits lines).flatMap Visit.log := by
  induction lines generalizing p with
  | nil => rfl
  | cons line lines ih =>
    rw [run, Logged.visitLog_bind, visits, List.flatMap_append]
    refine congrArg₂ _ (filter_stepLog p line) ?_
    cases p.step line.chars with
    | error f => rfl
    | ok p' =>
      show (if p'.tracker.isGlobal = true then _ else _ : Logged Rejection _).visitLog =
        (if p'.tracker.isGlobal = true then [] else p'.visits lines).flatMap Visit.log
      split
      · rfl
      · exact ih p'

theorem visitLog_checkMethod (globals : ScopeChain) (ordinal declaration : Nat) :
    (checkMethod source globals ordinal declaration).visitLog =
      (methodVisits source globals ordinal declaration).flatMap Visit.log := by
  unfold checkMethod methodVisits
  cases globals.methodAt? ordinal with
  | none => rfl
  | some entry =>
    obtain ⟨name, m⟩ := entry
    have hstart : ∀ (p : MethodPass) (outcome : Except Rejection MethodPass),
        (⟨p.trackLog ((source.line? declaration).getD []), outcome⟩ : Logged Rejection MethodPass).visitLog = [] :=
      fun p _ => p.filter_trackLog _
    simp only
    rw [Logged.visitLog_bind, Logged.visitLog_tell_of_level _ (by decide), List.nil_append]
    show Logged.visitLog (Logged.mk _ ((MethodPass.enter _ _ _ _).mapError _) >>= _) = _
    rw [Logged.visitLog_bind, hstart, List.nil_append]
    cases MethodPass.enter { scopes := globals.restart } ((source.line? declaration).getD []) name m with
    | error f => rfl
    | ok p =>
      show Logged.visitLog (p.run source (source.linesFrom (declaration + 1)) >>= _) =
        (p.visits (source.linesFrom (declaration + 1))).flatMap Visit.log
      rw [Logged.visitLog_bind, MethodPass.visitLog_run]
      refine (congrArg _ ?_).trans (List.append_nil _)
      -- What follows the run is the judgement on its end, which is no visit.
      cases (p.run source (source.linesFrom (declaration + 1))).outcome with
      | error r => rfl
      | ok closing? =>
        match closing? with
        | none => rfl
        | some (closing, q) =>
          show (if q.endsWithReturn = true then _ else _ : Logged Rejection Unit).visitLog = []
          split
          · refine Logged.visitLog_tell ?_
            simp [LogEntry.isVisit, toString, List.isPrefixOf]
          · rfl

theorem visitLog_checkMethods (globals : ScopeChain) (ordinal : Nat) (declarations : List Nat) :
    (checkMethods source globals ordinal declarations).visitLog =
      (methodsVisits source globals ordinal declarations).flatMap Visit.log := by
  induction declarations generalizing ordinal with
  | nil => rfl
  | cons declaration declarations ih =>
    rw [checkMethods, Logged.visitLog_bind, visitLog_checkMethod, methodsVisits, List.flatMap_append]
    refine congrArg _ ?_
    cases (checkMethod source globals ordinal declaration).outcome with
    | ok _ => exact ih (ordinal + 1)
    | error r => rfl

/-- **The visits are those of the run**: what it logs of lines that are checked is what the visits say. -/
theorem log_eq_visits (source : Source) :
    (run source).log.filter LogEntry.isVisit = (visits source).flatMap Visit.log := by
  show (run source).visitLog = _
  rw [run, Logged.visitLog_bind, Logged.visitLog_tell_of_level _ (by decide), visits, List.flatMap_append]
  show Logged.visitLog (readGlobals source >>= _) = _
  rw [Logged.visitLog_bind, visitLog_readGlobals]
  refine congrArg _ ?_
  cases (readGlobals source).outcome with
  | error r => rfl
  | ok g =>
    show Logged.visitLog (checkMethods source g.scopes 0 g.headers >>= _) = _
    rw [Logged.visitLog_bind, visitLog_checkMethods]
    refine (congrArg _ ?_).trans (List.append_nil _)
    split
    · rw [Logged.visitLog_bind, Logged.visitLog_tell_of_level _ (by decide)]
      rfl
    · rfl

end Log

/-! ## Where visits are made -/

/-- The pass over the global scope makes a visit outside of methods, in the scopes that the lines before have made. -/
theorem GlobalPass.of_mem_visits {p : GlobalPass} {lines : List NumberedLine} {v : Visit} (h : v ∈ p.visits lines) :
    ∃ before after q, lines = before ++ v.line :: after ∧ p.steps before = .ok q ∧ q.scopes = v.scopes := by
  induction lines generalizing p with
  | nil => cases h
  | cons line lines ih =>
    rw [visits] at h
    rcases List.mem_append.1 h with h | h
    · unfold visit at h
      split at h
      · cases List.mem_singleton.1 h
        exact ⟨[], lines, p, rfl, rfl, rfl⟩
      · cases h
    · split at h
      · next p' hstep =>
        obtain ⟨before, after, q, rfl, hbefore, hscopes⟩ := ih h
        exact ⟨line :: before, after, q, rfl, steps_cons_eq_ok.2 ⟨p', hstep, hbefore⟩, hscopes⟩
      · cases h

/-- The pass over a method makes a visit inside of the method, in the scopes that the lines before and the brace of the
line have made. -/
theorem MethodPass.of_mem_visits {p : MethodPass} {lines : List NumberedLine} {v : Visit} (h : v ∈ p.visits lines) :
    ∃ before after p' q, lines = before ++ v.line :: after ∧ p.Within before p' ∧ p'.track v.line.chars = .ok q ∧
      q.scopes = v.scopes := by
  induction lines generalizing p with
  | nil => cases h
  | cons line lines ih =>
    rw [visits] at h
    rcases List.mem_append.1 h with h | h
    · unfold visit at h
      split at h
      · next q htrack =>
        cases List.mem_singleton.1 h
        exact ⟨[], lines, p, q, rfl, .nil, htrack, rfl⟩
      · cases h
    · split at h
      · next p' hstep =>
        split at h
        · cases h
        · next hinside =>
          obtain ⟨before, after, p₁, q, rfl, hbefore, htrack, hscopes⟩ := ih h
          exact ⟨line :: before, after, p₁, q, rfl, .cons hstep (Bool.eq_false_iff.2 hinside) hbefore, htrack, hscopes⟩
      · cases h

/-! ## Visits that succeed -/

namespace GlobalPass

variable {source : Source} {p p' q : GlobalPass} {line : NumberedLine} {before after : List NumberedLine}

theorem visits_append (h : p.steps before = .ok q) :
    p.visits (before ++ after) = p.visits before ++ q.visits after := by
  induction before generalizing p with
  | nil =>
    cases h
    rfl
  | cons line before ih =>
    obtain ⟨p', hstep, hrest⟩ := steps_cons_eq_ok.1 h
    rw [List.cons_append, visits, visits, hstep, List.append_assoc]
    exact congrArg _ (ih hrest)

theorem visits_singleton (h : p.step line = .ok p') : p.visits [line] = p.visit line := by
  rw [visits, h]
  exact List.append_nil _

/-- Outside of methods a line that is taken into account is visited, and right. -/
theorem visit_of_step_outside (hp : p.Coherent) (hdepth : p.tracker.depth = 0) (h : p.step line = .ok p') :
    p.visit line = [⟨line, .global, p.scopes⟩] ∧ Visit.Accepted ⟨line, .global, p.scopes⟩ := by
  obtain ⟨c, ⟨mode, d⟩, hs⟩ := p
  cases hp.mode
  cases hdepth
  obtain ⟨p₁, hread, -⟩ := step_outside_eq_ok.1 h
  obtain ⟨hcloses, kind?, c', hcheck, hallowed, -⟩ := readLine_eq_ok.1 hread
  refine ⟨?_, _, ScopeChain.checkLineAt_eq_ok.2 ⟨hcheck, hallowed⟩⟩
  show (if (true && !closesBlock line.chars) = true then _ else _) = _
  rw [hcloses]
  rfl

theorem visit_inside (hdepth : p.tracker.depth ≠ 0) : p.visit line = [] := by
  have hglobal : p.tracker.isGlobal = false := Bool.eq_false_iff.2 fun h => hdepth (Tracker.isGlobal_iff.1 h)
  rw [visit, hglobal]
  rfl

end GlobalPass

namespace MethodPass

variable {p q : MethodPass} {line : NumberedLine} {before after : List NumberedLine}

theorem visits_append (h : p.Within before q) : p.visits (before ++ after) = p.visits before ++ q.visits after := by
  induction h with
  | nil => rfl
  | cons hstep hinside _ ih =>
    simp only [List.cons_append, visits, hstep, hinside, Bool.false_eq_true, if_false, ih, List.append_assoc]

/-- A line that is taken into account is visited, and right. -/
theorem visit_of_step (h : p.step line.chars = .ok q) :
    ∃ c, p.visit line = [⟨line, .methodBody, c⟩] ∧ Visit.Accepted ⟨line, .methodBody, c⟩ := by
  obtain ⟨p₁, htrack, hread⟩ := step_eq_ok_iff.1 h
  refine ⟨p₁.scopes, by rw [visit, htrack], ?_⟩
  unfold readLine at hread
  split at hread
  · cases hread
  · next hline => exact ⟨_, hline⟩
  · next hline => exact ⟨_, hline⟩

theorem Within.visits (h : p.Within before q) :
    (p.visits before).map Visit.line = before ∧ ∀ v ∈ p.visits before, v.Accepted := by
  induction h with
  | nil => exact ⟨rfl, fun _ h => (nomatch h)⟩
  | cons hstep hinside _ ih =>
    obtain ⟨c, hvisit, haccepted⟩ := visit_of_step hstep
    simp only [MethodPass.visits, hvisit, hstep, hinside, Bool.false_eq_true, if_false, List.singleton_append,
      List.map_cons, ih.1, List.forall_mem_cons]
    exact ⟨trivial, haccepted, ih.2⟩

end MethodPass

end BlockCheck
