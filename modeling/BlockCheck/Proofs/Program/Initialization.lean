import BlockCheck.Proofs.Program.MethodIndex
import BlockCheck.Proofs.Scope.History

/-!
# Initialized variables

What the lines of a program do to its variables is told from their text: the brace of a line opens or closes a block,
and the statement on it declares or assigns (`lineEvents`). A line outside of methods has as its past the lines outside
of methods before it (`Source.globalPast`). A line of a method has all lines outside of methods, the parameters, and
the lines of the method before it (`Source.methodPast`), and nothing that happens in another method.

The two passes keep the scopes as these pasts say (`GlobalPass.recorded_of_steps`, `MethodPass.Within.recorded`). So
whenever a line is checked, the flag of each variable tells whether its declaration has been given a value, and in a
program that is accepted each name that is used as a value has been given one (`flags_tell_values`): on a line before,
or, for a global variable in a method, on any line outside of methods (`value_given_below`).
-/

namespace BlockCheck

/-! ## Events of a line -/

/-- What a declarator does. -/
def Declarator.act (d : Declarator) : Act := .declared d.name.name d.value.isSome

/-- What a statement does to the variables, in order. -/
def StatementTree.acts : StatementTree → List Act
  | variableDeclaration _ _ ds => ds.map Declarator.act
  | assignment target _ => [.assigned target.name]
  | returnStatement | conditional _ | methodDeclaration _ _ | methodCall _ _ | closeBlock => []

/-- What the statement on a line does. -/
def statementEvents (l : NumberedLine) : List Event :=
  (statementOn? l.chars).elim [] fun st => st.acts.map (Event.mk l.number)

/-- What the brace of a line does. -/
def braceEvents (l : NumberedLine) : List Event :=
  if opensBlock l.chars then [⟨l.number, .opened⟩] else if closesBlock l.chars then [⟨l.number, .closed⟩] else []

/-- What a line of a method does: first its brace, then its statement. -/
def lineEvents (l : NumberedLine) : List Event := braceEvents l ++ statementEvents l

/-- The past while a declaration is read: the declarators in front have been declared. -/
def pastWithin (past : List Event) (line : Nat) (ds : List Declarator) : List Event :=
  (ds.map fun d => ⟨line, d.act⟩).reverse ++ past

/-! ## The past of a line -/

namespace Source

variable (s : Source)

/-- What the lines outside of methods do, among some lines. -/
def globalEvents (lines : List NumberedLine) : List Event :=
  (lines.filter (·.number ∈ s.outside)).flatMap statementEvents

/-- What happens before line `n`, which is outside of methods. -/
def globalPast (n : Nat) : List Event := (s.globalEvents (s.numberedLines.take (n - 1))).reverse

/-- What the first line of a method does to the body: its block is opened, and its parameters are declared. -/
def entryEvents (header : Nat) : List Event :=
  ⟨header, .opened⟩ :: ((s.line? header).bind namedMethod?).elim [] fun e =>
    e.2.parameters.names.map fun name => ⟨header, .declared name true⟩

/-- What happens before the statement on a line of the method with the given header. -/
def methodPast (header : Nat) (line : NumberedLine) : List Event :=
  (s.globalEvents s.numberedLines ++ s.entryEvents header ++
    ((s.numberedLines.take (line.number - 1)).drop header).flatMap lineEvents ++ braceEvents line).reverse

/-- The declaration is made outside of methods. -/
def IsGlobalDeclaration (d : Nat) : Prop := d < (s.globalEvents s.numberedLines).length

end Source

/-! ## Lines and their events -/

section Lines

variable {past : List Event} {c c' : ScopeChain} {l : NumberedLine} {kind? : Option StatementKind}

theorem line_of_mem_statementEvents {e : Event} (h : e ∈ statementEvents l) : e.line = l.number := by
  unfold statementEvents at h
  cases hst : statementOn? l.chars with
  | none =>
    rw [hst] at h
    cases h
  | some st =>
    rw [hst] at h
    obtain ⟨act, -, rfl⟩ := List.mem_map.1 h
    rfl

theorem line_of_mem_braceEvents {e : Event} (h : e ∈ braceEvents l) : e.line = l.number := by
  unfold braceEvents at h
  split at h
  · rw [List.mem_singleton.1 h]
  · split at h
    · rw [List.mem_singleton.1 h]
    · cases h

theorem line_of_mem_lineEvents {e : Event} (h : e ∈ lineEvents l) : e.line = l.number :=
  (List.mem_append.1 h).elim line_of_mem_braceEvents line_of_mem_statementEvents

theorem Recorded.withMethod (h : Recorded past c) (name : String) (m : Method) :
    Recorded past (c.withMethod name m) := by
  obtain ⟨rest, hflags, hset⟩ := c.exists_flags
  have hsame : (c.withMethod name m).flags = c.flags := by
    rw [hflags]
    exact hset _
  exact ⟨hsame ▸ h.flags, hsame ▸ h.distinct⟩

/-- Declarators are declared along with their events. -/
theorem Recorded.declaring (h : Recorded past c) (line : Nat) {isFinal : Bool} {type : ValueType}
    {ds : List Declarator} (hds : c.Declarable isFinal type ds) :
    Recorded (pastWithin past line ds) (c.declaring isFinal type ds) := by
  have hnames : ((ds.map (Declarator.entry type isFinal)).map Prod.fst).Nodup := by
    rw [List.map_map]
    exact hds.distinct
  have hfresh : ∀ e ∈ ds.map (Declarator.entry type isFinal), c.innermost.vars.contains e.1 = false := fun e he => by
    obtain ⟨d, hd, rfl⟩ := List.mem_map.1 he
    exact hds.fresh d hd
  have hall := h.declareAll line hnames hfresh
  rw [List.map_map] at hall
  exact hall

/-- **An accepted line keeps the scopes as its events say.** -/
theorem Recorded.checkLine (h : Recorded past c) (hline : c.checkLine l.chars = (.ok kind?, c')) :
    Recorded ((statementEvents l).reverse ++ past) c' := by
  obtain ⟨-, hlegal, rfl⟩ := ScopeChain.statementOn?_of_checkLine hline
  rw [statementEvents]
  cases hst : statementOn? l.chars with
  | none => exact h
  | some st =>
    cases st with
    | variableDeclaration isFinal type ds =>
      have hdeclared := h.declaring l.number (hlegal _ hst)
      rw [pastWithin] at hdeclared
      rw [Option.elim_some, StatementTree.acts, List.map_map]
      exact hdeclared
    | methodDeclaration name ps => exact h.withMethod name.name _
    | assignment target value => exact h.assign l.number target.name
    | _ => exact h

end Lines

/-! ### The values on a line -/

/-- The values of a statement, each with the declarators that are in front of it. -/
def StatementTree.values : StatementTree → List (List Declarator × Token)
  | variableDeclaration _ _ ds => ds.zipIdx.filterMap fun (d, i) => d.value.map fun value => (ds.take i, value)
  | conditional operands => operands.map ([], ·)
  | assignment _ value => [([], value)]
  | methodCall _ arguments => arguments.map ([], ·)
  | returnStatement | methodDeclaration _ _ | closeBlock => []

section Values

variable {c : ScopeChain} {isFinal : Bool} {type : ValueType} {ds : List Declarator} {value : Token}

theorem ScopeChain.Declarable.take (h : c.Declarable isFinal type ds) (i : Nat) :
    c.Declarable isFinal type (ds.take i) where
  fits j d v hj hv := by
    rw [List.getElem?_take] at hj
    split at hj
    · next hlt =>
      rw [List.take_take, Nat.min_eq_left (Nat.le_of_lt hlt)]
      exact h.fits j d v hj hv
    · cases hj
  distinct := h.distinct.sublist ((List.take_sublist i ds).map _)
  fresh d hd := h.fresh d (List.mem_of_mem_take hd)

/-- The values of a legal statement fit, once the declarators in front of them are declared. -/
theorem StatementTree.Legal.fits {st : StatementTree} (h : st.Legal c) (hvalue : (ds, value) ∈ st.values) :
    ∃ isFinal type expected, c.Declarable isFinal type ds ∧ (c.declaring isFinal type ds).Fits expected value := by
  -- Where nothing is declared in front of a value, it fits in the scopes as they are.
  have hnone : ∀ {expected : ValueType}, c.Fits expected value → ∃ isFinal type expected,
      c.Declarable isFinal type [] ∧ (c.declaring isFinal type []).Fits expected value := fun hfits =>
    ⟨false, .int, _, c.declarable_nil, c.declaring_nil.symm ▸ hfits⟩
  cases st with
  | variableDeclaration isFinal type all =>
    have hlegal : c.Declarable isFinal type all := h
    obtain ⟨⟨d, i⟩, hd, hpair⟩ := List.mem_filterMap.1 hvalue
    obtain ⟨v, hv, heq⟩ := Option.map_eq_some_iff.1 hpair
    cases heq
    exact ⟨isFinal, type, type, hlegal.take i, hlegal.fits i d value (List.mk_mem_zipIdx_iff_getElem?.1 hd) hv⟩
  | conditional operands =>
    obtain ⟨v, hv, heq⟩ := List.mem_map.1 hvalue
    cases heq
    exact hnone (h value hv)
  | assignment target source =>
    obtain ⟨v, -, -, hfits⟩ := h
    cases List.mem_singleton.1 hvalue
    exact hnone hfits
  | methodCall name arguments =>
    obtain ⟨m, -, hfits⟩ := h
    obtain ⟨v, hv, heq⟩ := List.mem_map.1 hvalue
    cases heq
    obtain ⟨i, hi, rfl⟩ := List.getElem_of_mem hv
    exact hnone (hfits.get (hfits.length_eq ▸ hi) hi)
  | returnStatement | methodDeclaration name ps | closeBlock => cases hvalue

end Values

/-! ## Runs and their events -/

/-! ### The pass over the global scope -/

section Global

variable {source : Source} {p : GlobalPass} {before after : List NumberedLine}

theorem Source.globalEvents_append (s : Source) (before after : List NumberedLine) :
    s.globalEvents (before ++ after) = s.globalEvents before ++ s.globalEvents after := by
  rw [globalEvents, List.filter_append, List.flatMap_append]
  rfl

/-- **The pass over the global scope keeps the scopes as the lines outside of methods say.** -/
theorem GlobalPass.recorded_of_steps (hsplit : source.numberedLines = before ++ after)
    (h : steps {} before = .ok p) : Recorded (source.globalEvents before).reverse p.scopes := by
  refine (induction (P := fun before p => Recorded (source.globalEvents before).reverse p.scopes) recorded_start
    (fun before line after p p' hsplit hsteps hp hrecorded hstep => ?_) hsplit h).2
  have hfilter := filter_outside hsplit hsteps
  rw [source.globalEvents_append, List.reverse_append]
  by_cases hdepth : p.tracker.depth = 0
  · obtain ⟨kind?, hcheck, -⟩ := found_of_step_outside hp hdepth hstep
    rw [if_pos hdepth] at hfilter
    rw [Source.globalEvents, hfilter, List.flatMap_singleton]
    exact hrecorded.checkLine hcheck
  · obtain ⟨hscopes, -⟩ := found_of_step_inside hp hdepth hstep
    rw [if_neg hdepth] at hfilter
    rw [Source.globalEvents, hfilter, hscopes]
    exact hrecorded

end Global

/-! ### The pass over a method -/

namespace MethodPass

variable {past : List Event} {p p' : MethodPass} {line : NumberedLine} {lines : List NumberedLine}

theorem recorded_of_track (hmode : p.tracker.mode = .switching) (hp : Recorded past p.scopes)
    (h : p.track line.chars = .ok p') :
    p'.tracker.mode = .switching ∧ Recorded ((braceEvents line).reverse ++ past) p'.scopes := by
  obtain ⟨c, ⟨mode, d⟩, previous, last⟩ := p
  cases hmode
  unfold braceEvents
  cases hopens : opensBlock line.chars with
  | true =>
    rw [track_of_opens hopens] at h
    cases h
    exact ⟨rfl, hp.push line.number⟩
  | false =>
    cases hcloses : closesBlock line.chars with
    | true =>
      cases d with
      | zero =>
        rw [track_of_closes_zero hcloses] at h
        cases h
      | succ d =>
        rw [track_of_closes hcloses] at h
        cases h
        exact ⟨rfl, hp.pop line.number⟩
    | false =>
      rw [track_of_plain hopens hcloses] at h
      cases h
      exact ⟨rfl, hp⟩

theorem recorded_of_readLine (hp : Recorded past p.scopes) (h : p.readLine line.chars = .ok p') :
    p'.tracker = p.tracker ∧ Recorded ((statementEvents line).reverse ++ past) p'.scopes := by
  obtain ⟨c, t, previous, last⟩ := p
  rcases readLine_eq_ok.1 h with ⟨hcheck, hp'⟩ | ⟨kind, -, hcheck, hp'⟩
  · exact ⟨by rw [hp'], hp.checkLine hcheck⟩
  · exact ⟨by rw [hp'], hp.checkLine hcheck⟩

/-- **The pass over a method keeps the scopes as the lines of the method say.** -/
theorem Within.recorded (h : p.Within lines p') (hmode : p.tracker.mode = .switching) (hp : Recorded past p.scopes) :
    p'.tracker.mode = .switching ∧ Recorded ((lines.flatMap lineEvents).reverse ++ past) p'.scopes := by
  induction h generalizing past with
  | nil => exact ⟨hmode, hp⟩
  | cons hstep _ _ ih =>
    obtain ⟨p₁, htrack, hread⟩ := step_eq_ok_iff.1 hstep
    obtain ⟨hmode₁, hp₁⟩ := recorded_of_track hmode hp htrack
    obtain ⟨htracker, hp₂⟩ := recorded_of_readLine hp₁ hread
    rw [List.flatMap_cons, lineEvents, List.reverse_append, List.reverse_append, List.append_assoc, List.append_assoc]
    exact ih (htracker ▸ hmode₁) hp₂

end MethodPass

section Method

variable {source : Source} {g : GlobalPass} {ordinal header : Nat}

/-- The pass over a method starts with the global variables as the first pass has left them, and with the parameters,
which have values. -/
theorem recorded_of_startsAt {p : MethodPass} (hg : (readGlobals source).outcome = .ok g)
    (hheader : g.headers[ordinal]? = some header) (hstart : StartsAt source g ordinal header p) :
    Recorded ((source.entryEvents header).reverse ++ (source.globalEvents source.numberedLines).reverse) p.scopes := by
  obtain ⟨hsteps, -⟩ := GlobalPass.outcome_readGlobals_eq_ok.1 hg
  have hall := (List.append_nil source.numberedLines).symm
  obtain ⟨hcoherent, -⟩ := GlobalPass.found_of_steps hall hsteps
  obtain ⟨first, name, m, hfirst, hmethod, halone⟩ :=
    (GlobalPass.indexed_of_steps hall hsteps).entry ordinal header hheader
  obtain ⟨_, _, _, hmethod', -, -, hscopes⟩ := hstart.entered
  cases hmethod.symm.trans hmethod'
  obtain ⟨hnames, hgiven⟩ := ScopeChain.parameters_of_checkLine halone
  have hentered := ((GlobalPass.recorded_of_steps hall hsteps).push header).declareAll header hnames fun _ _ => rfl
  have hevents : (source.entryEvents header).reverse =
      (m.parameters.entries.map fun e => ⟨header, .declared e.1 e.2.isInitialized⟩).reverse ++ [⟨header, .opened⟩] := by
    rw [Source.entryEvents, hfirst, Option.bind_some, ScopeChain.namedMethod?_eq_some.2 halone, Option.elim_some,
      List.reverse_cons, SymbolTable.names, List.map_map]
    refine congrArg (fun es => List.reverse es ++ _) (List.map_congr_left fun e he => ?_)
    rw [Function.comp_apply, hgiven e he]
  rw [hscopes, show g.scopes.restart = g.scopes from hcoherent.global.symm, hevents, List.append_assoc]
  exact hentered

end Method

/-! ## Visits and their past -/

namespace Visit

/-- The flags tell the truth when the line is checked. -/
structure Sound (past : List Event) (v : Visit) : Prop where
  before : Truthful past v.scopes
  /-- The flags also do so when some declarators of the line have been declared. -/
  within : ∀ isFinal type ds, v.scopes.Declarable isFinal type ds →
    Truthful (pastWithin past v.line.number ds) (v.scopes.declaring isFinal type ds)
  after : ∀ kind? c, v.scopes.checkLine v.line.chars = (.ok kind?, c) →
    Truthful ((statementEvents v.line).reverse ++ past) c

/-- Each name that is used as a value on the line stands for a declaration in scope, which has been given a value on a
line that is near. -/
def ValuesGiven (past : List Event) (near : Nat → Nat → Prop) (v : Visit) : Prop :=
  ∀ st, statementOn? v.line.chars = some st → ∀ ds value, (ds, value) ∈ st.values → value.category = .identifier →
    ∃ d, declaration? (pastWithin past v.line.number ds) value.name = some d ∧
      ∃ line ∈ givenOn (pastWithin past v.line.number ds) d, near d line

variable {past : List Event} {near : Nat → Nat → Prop} {v : Visit}

theorem sound_of_recorded (h : Recorded past v.scopes) : v.Sound past where
  before := h.truthful
  within _ _ _ hds := (h.declaring v.line.number hds).truthful
  after _ _ hline := (h.checkLine hline).truthful

/-- On a line that is right, the flags of the values are set, so that the values have been given. -/
theorem valuesGiven_of_recorded (h : Recorded past v.scopes) (haccepted : v.Accepted)
    (hline : ∀ d, near d v.line.number) (hpast : ∀ d, ∀ line ∈ givenOn past d, near d line) :
    v.ValuesGiven past near := by
  intro st hst ds value hvalue hname
  obtain ⟨⟨kind?, c⟩, hcheckAt⟩ := haccepted
  obtain ⟨-, hlegal, -⟩ := ScopeChain.statementOn?_of_checkLine (ScopeChain.checkLineAt_eq_ok.1 hcheckAt).1
  obtain ⟨isFinal, type, expected, hds, hfits⟩ := (hlegal st hst).fits hvalue
  obtain ⟨variable', hvisible, hflag, -⟩ := hfits.2 hname
  have htruth := (h.declaring v.line.number hds).truthful value.name
  rw [hvisible, Option.map_some, hflag] at htruth
  obtain ⟨d, hd, hgiven⟩ := Option.map_eq_some_iff.1 htruth.symm
  obtain ⟨line, hmem⟩ := exists_givenOn_of_isGiven hgiven
  refine ⟨d, hd, line, hmem, ?_⟩
  rcases mem_givenOn_append hmem with ⟨e, he, rfl⟩ | hearlier
  · obtain ⟨d', -, rfl⟩ := List.mem_map.1 (List.mem_reverse.1 he)
    exact hline d
  · exact hpast d line hearlier

end Visit

/-! ### Lines of the past -/

namespace Source

variable {s : Source} {header d k n : Nat} {line : NumberedLine} {before after : List NumberedLine}

theorem number_of_mem_drop_take {i j : Nat} (h : line ∈ (s.numberedLines.take j).drop i) :
    i < line.number ∧ line.number ≤ j := by
  obtain ⟨m, hm, rfl⟩ := List.getElem_of_mem h
  rw [List.length_drop, List.length_take] at hm
  simp only [List.getElem_drop, List.getElem_take, numberedLines, List.getElem_map, List.getElem_zipIdx]
  omega

theorem exists_line_of_globalEvents {lines : List NumberedLine} {e : Event} (h : e ∈ s.globalEvents lines) :
    ∃ l ∈ lines, l.number ∈ s.outside ∧ e.line = l.number := by
  obtain ⟨l, hl, he⟩ := List.mem_flatMap.1 h
  obtain ⟨hmem, houtside⟩ := List.mem_filter.1 hl
  exact ⟨l, hmem, of_decide_eq_true houtside, line_of_mem_statementEvents he⟩

/-- What has a value outside of methods has got it outside of methods, before. -/
theorem line_of_globalPast (h : k ∈ givenOn (s.globalPast n) d) : k ∈ s.outside ∧ k < n := by
  obtain ⟨e, he, rfl⟩ := exists_event_of_givenOn h
  obtain ⟨l, hl, houtside, hline⟩ := exists_line_of_globalEvents (List.mem_reverse.1 he)
  obtain ⟨hpos, hle⟩ := number_of_mem_drop_take (i := 0) hl
  exact ⟨hline ▸ houtside, by omega⟩

/-- What has a value in a method has got it in this method, before, or is declared outside of methods and has got it
there. -/
theorem line_of_methodPast (hline : header < line.number) (h : k ∈ givenOn (s.methodPast header line) d) :
    (header ≤ k ∧ k ≤ line.number) ∨ k ∈ s.outside ∧ s.IsGlobalDeclaration d := by
  rw [methodPast, List.append_assoc, List.append_assoc, List.reverse_append] at h
  rcases mem_givenOn_append h with ⟨e, he, rfl⟩ | h
  · refine .inl ?_
    rcases List.mem_append.1 (List.mem_reverse.1 he) with he | he
    · have hheader : e.line = header := by
        rcases List.mem_cons.1 he with rfl | he
        · rfl
        · cases hentry : (s.line? header).bind namedMethod? with
          | none =>
            rw [hentry] at he
            cases he
          | some entry =>
            rw [hentry] at he
            obtain ⟨name, -, rfl⟩ := List.mem_map.1 he
            rfl
      omega
    · rcases List.mem_append.1 he with he | he
      · obtain ⟨l, hl, he⟩ := List.mem_flatMap.1 he
        have hnumber := line_of_mem_lineEvents he
        obtain ⟨hlt, hle⟩ := number_of_mem_drop_take hl
        omega
      · have hnumber := line_of_mem_braceEvents he
        omega
  · refine .inr ⟨?_, ?_⟩
    · obtain ⟨e, he, rfl⟩ := exists_event_of_givenOn h
      obtain ⟨l, -, houtside, hnumber⟩ := exists_line_of_globalEvents (List.mem_reverse.1 he)
      exact hnumber ▸ houtside
    · by_contra hlater
      have hle : (s.globalEvents s.numberedLines).reverse.length ≤ d := by
        rw [List.length_reverse]
        exact Nat.not_lt.1 hlater
      cases (isGiven_of_mem h).symm.trans (isGiven_of_length_le hle)

theorem globalPast_of_split (h : s.numberedLines = before ++ line :: after) :
    s.globalPast line.number = (s.globalEvents before).reverse := by
  rw [globalPast, (line_of_split h).1, Nat.add_sub_cancel, h, List.take_left]

theorem methodPast_of_linesFrom (h : s.linesFrom (header + 1) = before ++ line :: after) :
    s.methodPast header line = (braceEvents line).reverse ++ ((before.flatMap lineEvents).reverse ++
      ((s.entryEvents header).reverse ++ (s.globalEvents s.numberedLines).reverse)) := by
  obtain ⟨hsplit, hlength⟩ := linesFrom_split h
  generalize s.numberedLines.take header = front at hsplit hlength
  rw [← List.append_assoc] at hsplit
  have hbody : (s.numberedLines.take (line.number - 1)).drop header = before := by
    rw [(line_of_split hsplit).1, Nat.add_sub_cancel, hsplit, List.take_left, List.drop_left' hlength]
  simp only [methodPast, hbody, List.reverse_append, List.append_assoc]

end Source

/-! ## All runs -/

section Runs

variable {source : Source} {g : GlobalPass} {ordinal header : Nat} {v : Visit}

theorem GlobalPass.recorded_of_visit (h : v ∈ GlobalPass.visits {} source.numberedLines) :
    Recorded (source.globalPast v.line.number) v.scopes := by
  obtain ⟨before, after, q, hsplit, hbefore, hscopes⟩ := of_mem_visits h
  rw [Source.globalPast_of_split hsplit, ← hscopes]
  exact recorded_of_steps hsplit hbefore

theorem MethodPass.recorded_of_visit (hg : (readGlobals source).outcome = .ok g)
    (hheader : g.headers[ordinal]? = some header) (h : v ∈ methodVisits source g.scopes ordinal header) :
    Recorded (source.methodPast header v.line) v.scopes := by
  obtain ⟨p, hstart, -⟩ := startsAt_of_header hg hheader
  rw [hstart.methodVisits_eq] at h
  obtain ⟨before, after, p', q, hfrom, hbefore, htrack, hscopes⟩ := of_mem_visits h
  have hstarted := recorded_of_startsAt hg hheader hstart
  obtain ⟨hmode, hp'⟩ := hbefore.recorded (by rw [hstart.tracker]) hstarted
  rw [Source.methodPast_of_linesFrom hfrom, ← hscopes]
  exact (recorded_of_track hmode hp' htrack).2

/-- **Flags tell which variables have values.** Whenever a line is checked, in any run, the flags say which of the
declarations in scope have been given a value: outside of methods by the lines outside of methods before it; in a method
by all lines outside of methods, the parameters, and the lines of this method before it. In a program that is accepted
each name that is used as a value stands for a declaration that has been given one: textually before, or, for a global
variable in a method, on any line outside of methods. No value comes from the body of another method. -/
theorem flags_tell_values (source : Source) :
    (∀ v ∈ GlobalPass.visits {} source.numberedLines, v.Sound (source.globalPast v.line.number)) ∧
      (∀ g ordinal header, (readGlobals source).outcome = .ok g → g.headers[ordinal]? = some header →
        ∀ v ∈ methodVisits source g.scopes ordinal header, v.Sound (source.methodPast header v.line)) ∧
      ∀ report, check source = .ok report →
        (∀ v ∈ GlobalPass.visits {} source.numberedLines, v.ValuesGiven (source.globalPast v.line.number)
          fun _ line => line ∈ source.outside ∧ line ≤ v.line.number) ∧
        ∀ g ordinal header, (readGlobals source).outcome = .ok g → g.headers[ordinal]? = some header →
          ∀ v ∈ methodVisits source g.scopes ordinal header, v.ValuesGiven (source.methodPast header v.line)
            fun d line => (line = header ∨ line ∈ source.body header) ∧ line ≤ v.line.number ∨
              line ∈ source.outside ∧ source.IsGlobalDeclaration d := by
  refine ⟨fun v hv => Visit.sound_of_recorded (GlobalPass.recorded_of_visit hv),
    fun g ordinal header hg hheader v hv => Visit.sound_of_recorded (MethodPass.recorded_of_visit hg hheader hv),
    fun report h => ⟨fun v hv => ?_, fun g ordinal header hg hheader v hv => ?_⟩⟩
  · obtain ⟨g, hg, -⟩ := check_eq_ok.1 h
    obtain ⟨hlines, haccepted⟩ :=
      GlobalPass.visits_of_steps (List.append_nil _).symm (GlobalPass.outcome_readGlobals_eq_ok.1 hg).1
    have hmem := List.mem_map_of_mem (f := Visit.line) hv
    rw [hlines, List.mem_filter, decide_eq_true_eq] at hmem
    refine Visit.valuesGiven_of_recorded (GlobalPass.recorded_of_visit hv) (haccepted v hv)
      (fun d => ⟨hmem.2, Nat.le_refl _⟩) fun d line hline => ?_
    obtain ⟨houtside, hlt⟩ := Source.line_of_globalPast hline
    exact ⟨houtside, Nat.le_of_lt hlt⟩
  · obtain ⟨g', hg', hmethods, -⟩ := check_eq_ok.1 h
    cases hg.symm.trans hg'
    obtain ⟨hlines, haccepted⟩ := methodVisits_of_ok hg hheader (hmethods ordinal header hheader)
    have hmem := List.mem_map_of_mem (f := Visit.line) hv
    rw [hlines, List.mem_filter, decide_eq_true_eq] at hmem
    obtain ⟨hlt, hle⟩ := Source.mem_body.1 hmem.2
    refine Visit.valuesGiven_of_recorded (MethodPass.recorded_of_visit hg hheader hv) (haccepted v hv)
      (fun d => .inl ⟨.inr hmem.2, Nat.le_refl _⟩) fun d line hline => ?_
    refine (Source.line_of_methodPast hlt hline).imp_left fun ⟨hfrom, hupTo⟩ => ⟨?_, hupTo⟩
    exact (Nat.eq_or_lt_of_le hfrom).imp Eq.symm fun h => Source.mem_body.2 ⟨h, Nat.le_trans hupTo hle⟩

/-- A variable of a method gets its value in a block, from another one that hides a global variable there. -/
theorem flags_tell_values_around_block : ∃ (source : Source) (g : GlobalPass) (report : Report),
    (readGlobals source).outcome = .ok g ∧ g.headers[0]? = some 3 ∧ check source = .ok report ∧
      (∃ v ∈ GlobalPass.visits {} source.numberedLines, v.line.number = 2 ∧
        v.Sound (source.globalPast v.line.number) ∧ v.ValuesGiven (source.globalPast v.line.number)
          fun _ line => line ∈ source.outside ∧ line ≤ v.line.number) ∧
      ∃ v ∈ methodVisits source g.scopes 0 3, v.line.number = 9 ∧ v.Sound (source.methodPast 3 v.line) ∧
        v.ValuesGiven (source.methodPast 3 v.line) fun d line =>
          (line = 3 ∨ line ∈ source.body 3) ∧ line ≤ v.line.number ∨
            line ∈ source.outside ∧ source.IsGlobalDeclaration d := by
  let source : Source :=
    { name := "hidden.sjava"
      text := "int g;\ng = 1;\nvoid f(int a) \x7b\nint x;\nif (true) \x7b\nint g = a;\nx = g;\n\x7d\n" ++
        "int y = x, z = g;\nreturn;\n\x7d\n" }
  let methods : SymbolTable Method := ⟨[("f", ⟨⟨[("a", .parameter .int false)]⟩⟩)]⟩
  let vars : SymbolTable Variable := ⟨[("g", .initialized .int)]⟩
  let scopes : ScopeChain := .global { vars, methods }
  have hg : (readGlobals source).outcome = .ok ⟨scopes, ⟨.countOnly, 0⟩, [3]⟩ := by decide +kernel
  have hreport : check source = .ok ⟨11, ["g"], ["f"]⟩ := by decide +kernel
  have hfirst : (2 : Nat) ∈ (GlobalPass.visits {} source.numberedLines).map (·.line.number) := by decide +kernel
  have hsecond : (9 : Nat) ∈ (methodVisits source scopes 0 3).map (·.line.number) := by decide +kernel
  obtain ⟨v, hv, hline⟩ := List.mem_map.1 hfirst
  obtain ⟨w, hw, hline'⟩ := List.mem_map.1 hsecond
  obtain ⟨hglobal, hmethod, haccepted⟩ := flags_tell_values source
  obtain ⟨hglobalGiven, hmethodGiven⟩ := haccepted _ hreport
  exact ⟨source, _, _, hg, rfl, hreport, ⟨v, hv, hline, hglobal v hv, hglobalGiven v hv⟩,
    w, hw, hline', hmethod _ 0 3 hg rfl w hw, hmethodGiven _ 0 3 hg rfl w hw⟩

/-- A method may use the value of a global variable that is declared below it: the pass over the global scope has read
this declaration first. -/
theorem value_given_below : ∃ (source : Source) (g : GlobalPass) (report : Report),
    source.text = "void f() \x7b\nint x = g;\nreturn;\n\x7d\nint g = 1;\n" ∧
      (readGlobals source).outcome = .ok g ∧ g.headers[0]? = some 1 ∧ check source = .ok report ∧
      ∃ v ∈ methodVisits source g.scopes 0 1, v.line.number = 2 ∧
        ¬ v.ValuesGiven (source.methodPast 1 v.line) fun _ line => line ≤ v.line.number := by
  let source : Source :=
    { name := "below.sjava", text := "void f() \x7b\nint x = g;\nreturn;\n\x7d\nint g = 1;\n" }
  let methods : SymbolTable Method := ⟨[("f", {})]⟩
  let vars : SymbolTable Variable := ⟨[("g", .initialized .int)]⟩
  let scopes : ScopeChain := .global { vars, methods }
  let line : NumberedLine := ⟨2, "int x = g;".toList⟩
  have hg : (readGlobals source).outcome = .ok ⟨scopes, ⟨.countOnly, 0⟩, [1]⟩ := by decide +kernel
  have hreport : check source = .ok ⟨5, ["g"], ["f"]⟩ := by decide +kernel
  have hvisited : line ∈ (methodVisits source scopes 0 1).map Visit.line := by decide +kernel
  -- The line has a name as a value, and what this name stands for is given a value on line 5 and nowhere else.
  have hvalue : ((statementOn? line.chars).elim [] StatementTree.values).any (fun (ds, value) =>
      value.category = .identifier &&
        (declaration? (pastWithin (source.methodPast 1 line) line.number ds) value.name).map
          (givenOn (pastWithin (source.methodPast 1 line) line.number ds)) = some [5]) = true := by
    decide +kernel
  obtain ⟨v, hv, hline⟩ := List.mem_map.1 hvisited
  refine ⟨source, _, _, rfl, hg, rfl, hreport, v, hv, by rw [hline], fun hgiven => ?_⟩
  obtain ⟨⟨ds, value⟩, hmem, htest⟩ := List.any_eq_true.1 hvalue
  rw [Bool.and_eq_true, decide_eq_true_eq, decide_eq_true_eq] at htest
  obtain ⟨hname, hlines⟩ := htest
  rw [Visit.ValuesGiven, hline] at hgiven
  cases hst : statementOn? line.chars with
  | none =>
    rw [hst] at hmem
    cases hmem
  | some st =>
    rw [hst] at hmem
    obtain ⟨d, hd, k, hk, hle⟩ := hgiven st hst ds value hmem hname
    rw [hd, Option.map_some] at hlines
    rw [Option.some.inj hlines, List.mem_singleton] at hk
    rw [hk] at hle
    exact absurd hle (by decide)

end Runs

end BlockCheck
