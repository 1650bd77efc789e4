import BlockCheck.Proofs.Line.StatementReader
import BlockCheck.Proofs.Program.BlockRuns
import BlockCheck.Proofs.Program.Coverage

/-!
# The methods and their headers

The pass over the global scope keeps the methods in one table and the lines that declare them in a list. The two are
in step after every line (`GlobalPass.indexed_of_steps`): as many methods as lines, in the same order, and each method
is the one that its line alone declares (`namedMethod?`). So a body is checked with the parameters of its own header
(`paired_of_header`), and the report names what the lines outside of methods declare, in their order
(`methods_indexed`).
-/

namespace BlockCheck

/-! ## What a line declares -/

/-- The method that a line declares, under its name, told from this line alone. -/
def namedMethod? (line : List Char) : Option (String × Method) :=
  (ScopeChain.empty.takeLine [.methodDeclaration] line).bind fun c => c.innermost.methods.entries.head?

namespace StatementTree

/-- The variables that a statement declares in its scope, in order. -/
def declared : StatementTree → List String
  | variableDeclaration _ _ ds => ds.map fun d => d.name.name
  | _ => []

/-- The method that a statement declares. -/
def method? : StatementTree → Option (String × Method)
  | methodDeclaration name ps => some (name.name, ⟨⟨ps.map Parameter.entry⟩⟩)
  | _ => none

end StatementTree

/-- The variables that a line declares, in order. -/
def declaredVariables (line : List Char) : List String := (statementOn? line).elim [] StatementTree.declared

namespace ScopeChain

variable {c c' : ScopeChain} {line : List Char} {st : StatementTree} {kind? : Option StatementKind}

/-- A mark changes no name and no method of the innermost scope. -/
theorem innermost_initializing (name : String) (c : ScopeChain) :
    (c.initializing name).innermost.vars.names = c.innermost.vars.names ∧
      (c.initializing name).innermost.methods = c.innermost.methods := by
  cases c with
  | global s => exact ⟨SymbolTable.names_modify name _, rfl⟩
  | block s outer =>
    unfold initializing
    split
    · exact ⟨SymbolTable.names_modify name _, rfl⟩
    · exact ⟨rfl, rfl⟩

theorem names_effect (c : ScopeChain) (st : StatementTree) :
    (st.effect c).innermost.vars.names = c.innermost.vars.names ++ st.declared := by
  cases st with
  | variableDeclaration isFinal type ds =>
    rw [StatementTree.effect, declaring, withVariables, innermost_setInnermost, SymbolTable.names, List.map_append,
      List.map_map]
    rfl
  | methodDeclaration name ps =>
    rw [StatementTree.effect, withMethod, innermost_setInnermost]
    exact (List.append_nil _).symm
  | assignment target value => exact (innermost_initializing target.name c).1.trans (List.append_nil _).symm
  | _ => exact (List.append_nil _).symm

theorem methods_effect (c : ScopeChain) (st : StatementTree) :
    (st.effect c).innermost.methods.entries = c.innermost.methods.entries ++ st.method?.toList := by
  cases st with
  | variableDeclaration isFinal type ds =>
    rw [StatementTree.effect, declaring, withVariables, innermost_setInnermost]
    exact (List.append_nil _).symm
  | methodDeclaration name ps =>
    rw [StatementTree.effect, withMethod, innermost_setInnermost]
    rfl
  | assignment target value =>
    rw [StatementTree.effect, (innermost_initializing target.name c).2]
    exact (List.append_nil _).symm
  | _ => exact (List.append_nil _).symm

/-- The names that a legal statement declares are new, and differ from each other. -/
theorem vars_nodup (h : st.Legal c) (hnodup : c.innermost.vars.names.Nodup) :
    (c.innermost.vars.names ++ st.declared).Nodup := by
  cases st with
  | variableDeclaration isFinal type ds =>
    have hlegal : c.Declarable isFinal type ds := h
    refine List.nodup_append'.2 ⟨hnodup, hlegal.distinct, fun name hold hnew => ?_⟩
    obtain ⟨d, hd, rfl⟩ := List.mem_map.1 hnew
    exact SymbolTable.contains_eq_false.1 (hlegal.fresh d hd) hold
  | _ => simpa only [StatementTree.declared, List.append_nil] using hnodup

theorem methods_nodup (h : st.Legal c) (hnodup : c.innermost.methods.names.Nodup) :
    ((c.innermost.methods.entries ++ st.method?.toList).map Prod.fst).Nodup := by
  rw [List.map_append]
  cases st with
  | methodDeclaration name ps =>
    obtain ⟨-, -, hfresh⟩ := h
    refine List.nodup_append'.2 ⟨hnodup, List.nodup_singleton _, fun name' hold hnew => ?_⟩
    cases List.mem_singleton.1 hnew
    exact SymbolTable.contains_eq_false.1 hfresh hold
  | _ => exact (List.append_nil _).symm ▸ hnodup

/-- What a line declares is what it adds to an empty scope. -/
theorem namedMethod?_eq_some {name : String} {m : Method} : namedMethod? line = some (name, m) ↔
    empty.checkLine line = (.ok (some .methodDeclaration), empty.withMethod name m) := by
  constructor
  · intro h
    obtain ⟨c, htake, hhead⟩ := Option.bind_eq_some_iff.1 h
    have hcheck := takeLine_singleton_eq_some.1 htake
    obtain ⟨st, hkind, -, -, -, rfl⟩ := checkLine_eq_ok_some_iff.1 hcheck
    cases st with
    | methodDeclaration name' ps =>
      cases hhead
      exact hcheck
    | _ => cases hkind
  · intro h
    rw [namedMethod?, takeLine_singleton_eq_some.2 h]
    rfl

/-- The parameters of a method have different names, and a value each. -/
theorem parameters_of_checkLine {name : String} {m : Method}
    (h : empty.checkLine line = (.ok (some .methodDeclaration), empty.withMethod name m)) :
    m.parameters.names.Nodup ∧ ∀ e ∈ m.parameters.entries, e.2.isInitialized = true := by
  obtain ⟨st, hkind, -, -, hlegal, heffect⟩ := checkLine_eq_ok_some_iff.1 h
  cases st with
  | methodDeclaration name' ps =>
    cases heffect
    constructor
    · rw [SymbolTable.names, List.map_map]
      exact hlegal.2.1
    · intro e he
      obtain ⟨p, -, rfl⟩ := List.mem_map.1 he
      rfl
  | _ => cases hkind

/-- The method that an accepted line declares does not depend on the scopes that it is accepted in. -/
theorem namedMethod?_of_checkLine (h : c.checkLine line = (.ok kind?, c')) :
    namedMethod? line = (statementOn? line).bind StatementTree.method? := by
  -- A line with another statement, or none, is no first line of a method for the empty scope either.
  have hother : (statementOn? line).map StatementTree.kind ≠ some .methodDeclaration → namedMethod? line = none := by
    intro hkind
    refine Option.eq_none_iff_forall_ne_some.2 fun ⟨name, m⟩ hentry => hkind ?_
    exact (statementOn?_of_checkLine (namedMethod?_eq_some.1 hentry)).1.symm
  rcases checkLine_ok h with ⟨rfl, -, -⟩ | ⟨st, rfl, hfailure, hw, hlegal, -⟩
  · obtain ⟨hnone, -⟩ := statementOn?_of_checkLine h
    rw [hother (by rw [← hnone]; exact nofun), Option.map_eq_none_iff.1 hnone.symm]
    rfl
  · have hst : statementOn? line = some st := hw.ofTokens?
    rw [hst] at hother ⊢
    cases st with
    | methodDeclaration name ps =>
      have halone : empty.checkLine line = (.ok (some .methodDeclaration),
          empty.withMethod name.name ⟨⟨ps.map Parameter.entry⟩⟩) :=
        checkLine_of_legal hfailure hw ⟨hlegal.1, hlegal.2.1, rfl⟩
      exact namedMethod?_eq_some.2 halone
    | _ => exact hother nofun

/-- **All that an accepted line declares.** -/
theorem declared_of_checkLine (h : c.checkLine line = (.ok kind?, c')) :
    c'.innermost.vars.names = c.innermost.vars.names ++ declaredVariables line ∧
      c'.innermost.methods.entries = c.innermost.methods.entries ++ (namedMethod? line).toList ∧
      (c.innermost.vars.names.Nodup → c'.innermost.vars.names.Nodup) ∧
      (c.innermost.methods.names.Nodup → c'.innermost.methods.names.Nodup) ∧
      (kind? = some .methodDeclaration ↔ (namedMethod? line).isSome = true) := by
  rw [namedMethod?_of_checkLine h, declaredVariables]
  obtain ⟨rfl, hlegal, rfl⟩ := statementOn?_of_checkLine h
  cases hst : statementOn? line with
  | none => exact ⟨(List.append_nil _).symm, (List.append_nil _).symm, id, id, nofun, nofun⟩
  | some st =>
    have hnames := names_effect c st
    have hmethods := methods_effect c st
    refine ⟨hnames, hmethods, fun hnodup => ?_, fun hnodup => ?_, ?_⟩
    · exact hnames ▸ vars_nodup (hlegal st hst) hnodup
    · have hnodup' := methods_nodup (hlegal st hst) hnodup
      rw [← hmethods] at hnodup'
      exact hnodup'
    · cases st <;> simp [StatementTree.kind, StatementTree.method?]

end ScopeChain

/-! ## The two lists -/

namespace GlobalPass

variable {source : Source} {p p' : GlobalPass} {line : NumberedLine} {before after : List NumberedLine}

/-- The methods found so far are in step with the lines that declare them. -/
structure Indexed (source : Source) (p : GlobalPass) : Prop where
  length : p.headers.length = p.scopes.root.methods.size
  increasing : p.headers.Pairwise (· < ·)
  /-- Each method is what its line declares if it is checked alone, in an empty scope. -/
  entry : ∀ i n, p.headers[i]? = some n → ∃ header name m, source.line? n = some header ∧
    p.scopes.methodAt? i = some (name, m) ∧
    ScopeChain.empty.checkLine header = (.ok (some .methodDeclaration), ScopeChain.empty.withMethod name m)

/-- What the pass has found is what the lines outside of methods declare. -/
structure Found (source : Source) (before : List NumberedLine) (p : GlobalPass) : Prop where
  vars : p.scopes.root.vars.names =
    (before.filter (·.number ∈ source.outside)).flatMap fun l => declaredVariables l.chars
  methods : p.scopes.root.methods.entries =
    (before.filter (·.number ∈ source.outside)).filterMap fun l => namedMethod? l.chars
  headers : p.headers.map (fun n => (source.line? n).bind namedMethod?) = p.scopes.root.methods.entries.map some
  varsDistinct : p.scopes.root.vars.names.Nodup
  methodsDistinct : p.scopes.root.methods.names.Nodup

/-- Inside of methods nothing is found. -/
theorem found_of_step_inside (hp : p.Coherent) (hdepth : p.tracker.depth ≠ 0) (h : p.step line = .ok p') :
    p'.scopes = p.scopes ∧ p'.headers = p.headers := by
  obtain ⟨c, ⟨mode, d⟩, hs⟩ := p
  cases hp.mode
  cases d with
  | zero => exact absurd rfl hdepth
  | succ d =>
    obtain ⟨d', -, rfl⟩ := step_inside.1 h
    exact ⟨rfl, rfl⟩

/-- Outside of methods the statement on the line has its effect, and the line is a header if it declares a method. -/
theorem found_of_step_outside (hp : p.Coherent) (hdepth : p.tracker.depth = 0) (h : p.step line = .ok p') :
    ∃ kind?, p.scopes.checkLine line.chars = (.ok kind?, p'.scopes) ∧
      p'.headers = if kind? = some .methodDeclaration then p.headers ++ [line.number] else p.headers := by
  obtain ⟨c, ⟨mode, d⟩, hs⟩ := p
  cases hp.mode
  cases hdepth
  obtain ⟨p₁, hread, htrack⟩ := step_outside_eq_ok.1 h
  obtain ⟨-, kind?, c', hcheck, -, rfl⟩ := readLine_eq_ok.1 hread
  obtain ⟨d', -, rfl⟩ := track_eq_ok.1 htrack
  exact ⟨kind?, hcheck, rfl⟩

/-- Nothing but the global scope is open in the pass. -/
theorem Coherent.innermost (hp : p.Coherent) : p.scopes.innermost = p.scopes.root := by
  rw [hp.global]
  rfl

theorem found_step (hsplit : source.numberedLines = before ++ line :: after) (hsteps : steps {} before = .ok p)
    (hp : p.Coherent) (hfound : Found source before p) (h : p.step line = .ok p') :
    Found source (before ++ [line]) p' := by
  have hline : '\n' ∉ line.chars := Source.newline_not_mem (s := source) (by rw [hsplit]; simp)
  have hp' := (hp.step hline h).1
  by_cases hdepth : p.tracker.depth = 0
  · obtain ⟨kind?, hcheck, hheaders⟩ := found_of_step_outside hp hdepth h
    obtain ⟨hnames, hentries, hvarsDistinct, hmethodsDistinct, hkind⟩ := ScopeChain.declared_of_checkLine hcheck
    rw [hp.innermost, hp'.innermost] at hnames hentries hvarsDistinct hmethodsDistinct
    have hfilter := filter_outside hsplit hsteps
    rw [if_pos hdepth] at hfilter
    refine ⟨?_, ?_, ?_, hvarsDistinct hfound.varsDistinct, hmethodsDistinct hfound.methodsDistinct⟩
    · rw [hnames, hfound.vars, List.filter_append, hfilter, List.flatMap_append, List.flatMap_singleton]
    · rw [hentries, hfound.methods, List.filter_append, hfilter, List.filterMap_append]
      refine congrArg _ ?_
      cases hentry : namedMethod? line.chars <;> simp [hentry]
    · obtain ⟨-, hfind, -⟩ := Source.line_of_split hsplit
      rw [hheaders, hentries, List.map_append, ← hfound.headers]
      cases hentry : namedMethod? line.chars with
      | none =>
        have hnone : kind? ≠ some .methodDeclaration := fun hkind' => by
          have hsome := hkind.1 hkind'
          rw [hentry] at hsome
          cases hsome
        rw [if_neg hnone]
        exact (List.append_nil _).symm
      | some entry =>
        have hheader := hkind.2 (by rw [hentry]; rfl)
        rw [if_pos hheader, List.map_append, List.map_singleton, hfind, Option.bind_some, hentry]
        rfl
  · obtain ⟨hscopes, hheaders⟩ := found_of_step_inside hp hdepth h
    have hfilter := filter_outside hsplit hsteps
    rw [if_neg hdepth] at hfilter
    constructor
    · rw [List.filter_append, hfilter, List.append_nil, hscopes, hfound.vars]
    · rw [List.filter_append, hfilter, List.append_nil, hscopes, hfound.methods]
    · rw [hheaders, hscopes, hfound.headers]
    · rw [hscopes]
      exact hfound.varsDistinct
    · rw [hscopes]
      exact hfound.methodsDistinct

/-- **The methods and the lines that declare them are in step** after every line. -/
theorem found_of_steps (hsplit : source.numberedLines = before ++ after) (h : steps {} before = .ok p) :
    p.Coherent ∧ Found source before p :=
  induction (P := Found source) ⟨rfl, rfl, rfl, .nil, .nil⟩
    (fun _ _ _ _ _ hsplit hsteps hp hfound hstep => found_step hsplit hsteps hp hfound hstep) hsplit h

theorem indexed_of_steps (hsplit : source.numberedLines = before ++ after) (h : steps {} before = .ok p) :
    Indexed source p := by
  obtain ⟨hp, hfound⟩ := found_of_steps hsplit h
  refine ⟨hp.length, (headers_of_steps hsplit h).1, fun i n hn => ?_⟩
  have hi := congrArg (fun list => list[i]?) hfound.headers
  simp only [List.getElem?_map, hn, Option.map_some] at hi
  obtain ⟨entry, hentry, hdeclared⟩ := Option.map_eq_some_iff.1 hi.symm
  obtain ⟨header, hheader, hdeclares⟩ := Option.bind_eq_some_iff.1 hdeclared.symm
  obtain ⟨name, m⟩ := entry
  exact ⟨header, name, m, hheader, hentry, ScopeChain.namedMethod?_eq_some.1 hdeclares⟩

end GlobalPass

/-! ## Bodies and reports -/

/-- The check of the method with the given number runs through the lines after line `n`, and starts with the parameters
that line `n` declares. -/
structure Paired (source : Source) (g : GlobalPass) (ordinal n : Nat) : Prop where
  checked : ∃ header name m, source.line? n = some header ∧
    ScopeChain.empty.checkLine header = (.ok (some .methodDeclaration), ScopeChain.empty.withMethod name m) ∧
    (checkMethod source g.scopes ordinal n).outcome =
      ((MethodPass.entered g.scopes m).run source (source.linesFrom (n + 1))).outcome.bind fun
        | none => .error (.on source source.lineCount (.ofBlock .mismatchedBraces))
        | some (closing, q) =>
          if q.endsWithReturn then .ok () else .error (.on source closing (.ofBlock (.missingReturn name)))

section Report

variable {source : Source} {g : GlobalPass} {ordinal n : Nat} {report : Report}

theorem paired_of_header (hg : (readGlobals source).outcome = .ok g) (hn : g.headers[ordinal]? = some n) :
    Paired source g ordinal n := by
  obtain ⟨hsteps, -⟩ := GlobalPass.outcome_readGlobals_eq_ok.1 hg
  have hall := (List.append_nil source.numberedLines).symm
  obtain ⟨hcoherent, -⟩ := GlobalPass.found_of_steps hall hsteps
  obtain ⟨header, name, m, hheader, hmethod, halone⟩ := (GlobalPass.indexed_of_steps hall hsteps).entry ordinal n hn
  have hopens := (ScopeChain.opensBlock_iff_of_checkLine (Source.newline_not_mem_line? hheader) halone).2 (.inl rfl)
  have hrestart : g.scopes.restart = g.scopes := hcoherent.global.symm
  have hnames := (ScopeChain.parameters_of_checkLine halone).1
  have henter : MethodPass.enter { scopes := g.scopes } header name m = .ok (MethodPass.entered g.scopes m) :=
    MethodPass.enter_eq_ok name hopens hnames
  exact ⟨header, name, m, hheader, halone, outcome_checkMethod hmethod hheader (hrestart ▸ henter)⟩

/-- **A body is checked with the parameters of its own header.** -/
theorem methods_indexed (source : Source) :
    (∀ before after p, source.numberedLines = before ++ after → GlobalPass.steps {} before = .ok p →
      GlobalPass.Indexed source p) ∧
      (∀ g ordinal n, (readGlobals source).outcome = .ok g → g.headers[ordinal]? = some n →
        Paired source g ordinal n) ∧
      ∀ report, check source = .ok report →
        report.methods =
            (source.numberedLines.filter (·.number ∈ source.outside)).filterMap
              (fun l => (namedMethod? l.chars).map Prod.fst) ∧
          report.globals =
            (source.numberedLines.filter (·.number ∈ source.outside)).flatMap (fun l => declaredVariables l.chars) ∧
          report.methods.Nodup ∧ report.globals.Nodup := by
  refine ⟨fun _ _ _ => GlobalPass.indexed_of_steps, fun _ _ _ => paired_of_header, fun report h => ?_⟩
  obtain ⟨g, hg, -, rfl⟩ := check_eq_ok.1 h
  obtain ⟨-, hfound⟩ := GlobalPass.found_of_steps (List.append_nil _).symm (GlobalPass.outcome_readGlobals_eq_ok.1 hg).1
  refine ⟨?_, hfound.vars, hfound.methodsDistinct, hfound.varsDistinct⟩
  show g.scopes.root.methods.entries.map Prod.fst = _
  rw [hfound.methods, List.map_filterMap]

/-- Two methods, and two variables declared between them. -/
theorem methods_indexed_around_variables : ∃ (source : Source) (g : GlobalPass) (report : Report),
    (readGlobals source).outcome = .ok g ∧ GlobalPass.Indexed source g ∧ Paired source g 1 5 ∧
      check source = .ok report ∧ report.methods.Nodup ∧ report.globals.Nodup := by
  let source : Source :=
    { name := "two.sjava"
      text := "void f() \x7b\n return;\n\x7d\nint a, b = 1;\nvoid g(final int c) \x7b\n a = c;\n return;\n\x7d\n" }
  let methods : SymbolTable Method := ⟨[("f", {}), ("g", ⟨⟨[("c", .parameter .int true)]⟩⟩)]⟩
  let vars : SymbolTable Variable := ⟨[("a", .uninitialized .int), ("b", .initialized .int)]⟩
  have hg : (readGlobals source).outcome = .ok ⟨.global { vars, methods }, ⟨.countOnly, 0⟩, [1, 5]⟩ := by
    decide +kernel
  have hreport : check source = .ok ⟨8, ["a", "b"], ["f", "g"]⟩ := by decide +kernel
  obtain ⟨hindexed, hpaired, hreported⟩ := methods_indexed source
  obtain ⟨hsteps, -⟩ := GlobalPass.outcome_readGlobals_eq_ok.1 hg
  obtain ⟨-, -, hmethods, hglobals⟩ := hreported _ hreport
  exact ⟨source, _, _, hg, hindexed _ [] _ (List.append_nil _).symm hsteps, hpaired _ 1 5 hg rfl, hreport, hmethods,
    hglobals⟩

end Report

end BlockCheck
