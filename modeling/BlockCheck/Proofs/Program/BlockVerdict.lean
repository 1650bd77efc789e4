import BlockCheck.Proofs.Program.BlockRuns

/-!
# The verdict by blocks

A program passes the checker exactly if its lines are those of a tree of blocks that is accepted
(`check_ok_iff_accepted`). The first pass finds the items of the tree, and the second one the blocks of each method
(`method_of_run`, `run_of_method`); the two are put together along the lines of the program (`items_of_steps`,
`steps_of_items`).
-/

namespace BlockCheck

/-! ## One method -/

section Methods

variable {globals : ScopeChain} {m : Method}

theorem MethodTree.check_eq_true {t : MethodTree} : t.check globals = true ↔
    ∃ m c, declaredMethod? t.header = some m ∧ t.body.check (MethodPass.entered globals m).scopes = some c ∧
      (c.takeLine [.returnStatement] t.finish).isSome = true ∧ t.blanks.all isBlankLine = true ∧
      isClosingLine t.close = true := by
  unfold check
  constructor
  · intro h
    split at h
    · cases h
    · next m hm =>
      split at h
      · cases h
      · next c hc =>
        rw [Bool.and_eq_true, Bool.and_eq_true] at h
        exact ⟨m, c, hm, hc, h.1.1, h.1.2, h.2⟩
  · rintro ⟨m, c, hm, hc, hfinish, hblanks, hclosing⟩
    have hc' : t.body.check (globals.push.withVariables m.parameters.entries) = some c := hc
    simp only [hm, hc', hfinish, hblanks, hclosing, Bool.and_self]

/-- A run that leaves the method after a return has read the lines of a method that passes its check. -/
theorem method_of_run {header : List Char} {p q : MethodPass} {before : List NumberedLine} {line : NumberedLine}
    (hdeclared : declaredMethod? header = some m) (h : (MethodPass.entered globals m).Within before p)
    (hlines : ∀ l ∈ before ++ [line], '\n' ∉ l.chars) (hstep : p.step line.chars = .ok q) (hq : q.tracker.depth = 0)
    (hreturn : q.endsWithReturn = true) :
    ∃ t : MethodTree, t.header = header ∧ t.lines = header :: (before ++ [line]).map NumberedLine.chars ∧
      t.check globals = true := by
  obtain ⟨b, close, rest, c, hsplit, hb, hclosing, hrest⟩ := closes_of_within h rfl rfl hlines hstep hq
  cases hrest
  rw [List.map_append] at hsplit
  obtain ⟨hbefore, hclose⟩ := List.append_inj' hsplit rfl
  obtain ⟨rfl⟩ : line.chars = close := (List.cons.inj hclose).1
  obtain ⟨hlinesBefore, hlineLast⟩ := List.forall_mem_append.1 hlines
  have hline := hlineLast line List.mem_cons_self
  -- The state before the closing line is known from the block, and with it the statement before it.
  obtain ⟨previous, hwithin⟩ := Block.within_of_check (d := 0) hb hbefore hlinesBefore
  cases h.unique hwithin
  have hlast : b.lastKind none = some .returnStatement := by
    rcases (MethodPass.step_eq_ok hline).1 hstep with
      ⟨-, rfl⟩ | ⟨kind, -, c', -, rfl⟩ | ⟨-, rfl⟩ | ⟨d', -, -, rfl⟩
    · cases hq
    · cases hq
    · cases hq
    · simp only [MethodPass.endsWithReturn, Bool.and_eq_true, decide_eq_true_eq] at hreturn
      exact hreturn.1
  rcases Block.split_at_return hb hlast with ⟨hnone, -⟩ | ⟨b', finish, blanks, c₁, hlines', hb', hfinish, hblanks⟩
  · cases hnone
  · refine ⟨⟨header, b', finish, blanks, line.chars⟩, rfl, ?_, ?_⟩
    · rw [MethodTree.lines, List.map_append, hbefore, hlines']
      simp
    · exact MethodTree.check_eq_true.2 ⟨m, c₁, hdeclared, hb', hfinish, hblanks, hclosing⟩

theorem within_of_blanks {c : ScopeChain} {d : Nat} {previous last : Option StatementKind} {lines : List NumberedLine}
    (h : ∀ l ∈ lines, isBlankLine l.chars = true) :
    MethodPass.Within ⟨c, ⟨.switching, d + 1⟩, previous, last⟩ lines ⟨c, ⟨.switching, d + 1⟩, previous, last⟩ := by
  induction lines with
  | nil => exact .nil
  | cons l ls ih =>
    obtain ⟨hblank, h⟩ := List.forall_mem_cons.1 h
    exact .cons (MethodPass.step_of_blank hblank _) rfl (ih h)

/-- The lines of a method that passes its check lead out of it, after a return. -/
theorem run_of_method {t : MethodTree} {lines : List NumberedLine} (h : t.check globals = true)
    (ht : lines.map NumberedLine.chars = t.body.lines ++ t.finish :: (t.blanks ++ [t.close]))
    (hlines : ∀ l ∈ lines, '\n' ∉ l.chars) :
    ∃ m before line p q, declaredMethod? t.header = some m ∧ lines = before ++ [line] ∧
      (MethodPass.entered globals m).Within before p ∧ p.step line.chars = .ok q ∧ q.tracker.depth = 0 ∧
      q.endsWithReturn = true := by
  obtain ⟨m, c, hdeclared, hbody, hfinish, hblanks, hclosing⟩ := MethodTree.check_eq_true.1 h
  obtain ⟨c', hfinish⟩ := Option.isSome_iff_exists.1 hfinish
  have hreturn := ScopeChain.takeLine_singleton_eq_some.1 hfinish
  obtain ⟨bodyLines, more, rfl, hbodyLines, hmore⟩ := List.map_eq_append_iff.1 ht
  obtain ⟨finish, more, rfl, hfinishLine, hmore⟩ := List.map_eq_cons_iff.1 hmore
  obtain ⟨blanks, last, rfl, hblankLines, hmore⟩ := List.map_eq_append_iff.1 hmore
  obtain ⟨close, nothing, rfl, hcloseLine, hnothing⟩ := List.map_eq_cons_iff.1 hmore
  cases List.map_eq_nil_iff.1 hnothing
  obtain ⟨hlinesBody, hlines⟩ := List.forall_mem_append.1 hlines
  obtain ⟨hlineFinish, -⟩ := List.forall_mem_cons.1 hlines
  rw [← hfinishLine] at hreturn
  rw [← hcloseLine] at hclosing
  rw [← hblankLines, List.all_map, List.all_eq_true] at hblanks
  -- The scope of the body is still open at the closing line.
  have hdepth : c'.last = globals.last + 1 :=
    (ScopeChain.last_of_checkLine hreturn).trans
      ((Block.last_of_check hbody).trans (ScopeChain.last_setInnermost globals.push _))
  obtain ⟨outer, hpop⟩ := ScopeChain.pop?_of_last hdepth
  obtain ⟨previous, hwithin⟩ : ∃ previous, (MethodPass.entered globals m).Within bodyLines
      ⟨c, ⟨.switching, 1⟩, previous, t.body.lastKind none⟩ := Block.within_of_check hbody hbodyLines hlinesBody
  have hbefore : (MethodPass.entered globals m).Within (bodyLines ++ finish :: blanks)
      ⟨c', ⟨.switching, 1⟩, t.body.lastKind none, some .returnStatement⟩ := by
    refine hwithin.append (.cons (MethodPass.step_of_statement hlineFinish (by decide) hreturn) rfl ?_)
    exact within_of_blanks hblanks
  have hlast : (⟨c', ⟨.switching, 1⟩, t.body.lastKind none, some .returnStatement⟩ : MethodPass).step close.chars =
      .ok ⟨outer, ⟨.switching, 0⟩, some .returnStatement, some .closeBlock⟩ :=
    MethodPass.step_of_closing_pop hclosing hpop
  exact ⟨m, bodyLines ++ finish :: blanks, close, _, _, hdeclared, by simp, hbefore, hlast, rfl, rfl⟩

/-- A run that reads lines inside of the method, and then one that leaves it, ends there. -/
theorem outcome_run_of_leaving {source : Source} {p p' q : MethodPass} {before : List NumberedLine}
    {line : NumberedLine} (after : List NumberedLine) (h : p.Within before p') (hstep : p'.step line.chars = .ok q)
    (hq : q.tracker.depth = 0) : (p.run source (before ++ line :: after)).outcome = .ok (some (line.number, q)) := by
  rw [MethodPass.outcome_run_of_within h, MethodPass.outcome_run_cons, hstep]
  show (if _ then _ else _) = _
  rw [if_pos (Tracker.isGlobal_iff.2 hq)]

/-! ## A header and its method -/

variable {source : Source} {c c' : ScopeChain} {hs : List Nat} {g : GlobalPass} {line : NumberedLine}
  {before after lines : List NumberedLine}

/-- When the check of the method of a header succeeds. -/
theorem checkMethod_of_header {p : GlobalPass} (hp : p.Coherent) (hg : g.Coherent)
    (hsource : source.numberedLines = before ++ line :: after)
    (htake : p.scopes.takeLine [.methodDeclaration] line.chars = some c')
    (hkept : g.Extends ⟨c', ⟨.countOnly, 1⟩, p.headers ++ [line.number]⟩) :
    ∃ m, declaredMethod? line.chars = some m ∧
      ((checkMethod source g.scopes p.headers.length line.number).outcome = .ok () ↔
        ∃ closing q, ((MethodPass.entered g.scopes m).run source after).outcome = .ok (some (closing, q)) ∧
          q.endsWithReturn = true) := by
  have hline : '\n' ∉ line.chars := Source.newline_not_mem (s := source) (by rw [hsource]; simp)
  obtain ⟨-, hheader, hfrom⟩ := Source.line_of_split hsource
  obtain ⟨name, m, hdeclared, hmethod, henter⟩ := method_of_step hp hg hline htake hkept
  refine ⟨m, hdeclared, ?_⟩
  rw [← hfrom]
  exact outcome_checkMethod_eq_ok hmethod hheader henter

/-- If the check of its method succeeds, a header is the first line of a method that passes its check, and the pass
over the global scope is outside of methods again after it. -/
theorem method_of_header (hp : GlobalPass.Coherent ⟨c, ⟨.countOnly, 0⟩, hs⟩) (hg : g.Coherent)
    (hsource : source.numberedLines = before ++ line :: after)
    (htake : c.takeLine [.methodDeclaration] line.chars = some c')
    (hafter : GlobalPass.steps ⟨c', ⟨.countOnly, 1⟩, hs ++ [line.number]⟩ after = .ok g)
    (hkept : g.Extends ⟨c', ⟨.countOnly, 1⟩, hs ++ [line.number]⟩) (hdepth : g.tracker.depth = 0)
    (hcheck : (checkMethod source g.scopes hs.length line.number).outcome = .ok ()) :
    ∃ (t : MethodTree) (inside rest : List NumberedLine), after = inside ++ rest ∧ t.header = line.chars ∧
      t.lines = (line :: inside).map NumberedLine.chars ∧ t.check g.scopes = true ∧
      GlobalPass.steps ⟨c', ⟨.countOnly, 0⟩, hs ++ [line.number]⟩ rest = .ok g := by
  obtain ⟨m, hdeclared, hiff⟩ := checkMethod_of_header hp hg hsource htake hkept
  obtain ⟨closing, q, hrun, hreturn⟩ := hiff.1 hcheck
  -- The counts of both passes are the same up to the line at which the method ends.
  obtain ⟨body, l, rest, p', rfl, hbody, hinside, hend⟩ :=
    end_of_method source (p := MethodPass.entered g.scopes m) rfl hafter hdepth
  rcases hend with ⟨q', hstep, hq', hrun'⟩ | ⟨p₁, f, -, -, -, hrun'⟩
  · rw [hrun] at hrun'
    cases hrun'
    have hlines : ∀ l' ∈ body ++ [l], '\n' ∉ l'.chars := by
      intro l' hl'
      refine Source.newline_not_mem (s := source) ?_
      rw [hsource, List.append_cons body]
      exact List.mem_append_right _ (List.mem_cons_of_mem _ (List.mem_append_left _ hl'))
    obtain ⟨t, hheader, ht, htcheck⟩ := method_of_run hdeclared hbody hlines hstep hq' hreturn
    refine ⟨t, body ++ [l], rest, by simp, hheader, ht, htcheck, ?_⟩
    obtain ⟨r, hbodySteps, hrest⟩ := GlobalPass.steps_append_eq_ok.1 hafter
    cases hbodySteps.symm.trans (GlobalPass.steps_of_within (p := MethodPass.entered g.scopes m) hbody rfl)
    obtain ⟨r, hlast, hrest⟩ := GlobalPass.steps_cons_eq_ok.1 hrest
    rw [GlobalPass.step_of_step hinside hstep, hq'] at hlast
    cases hlast
    exact hrest
  · rw [hrun] at hrun'
    cases hrun'

/-- The lines of a method that passes its check lead the pass over the global scope to the end of the method, and the
check of the method succeeds. -/
theorem steps_of_method {t : MethodTree} (hs : List Nat) (hline : '\n' ∉ line.chars)
    (hlines : ∀ l ∈ lines, '\n' ∉ l.chars) (htake : c.takeLine [.methodDeclaration] line.chars = some c')
    (ht : (line :: lines).map NumberedLine.chars = t.lines) (hcheck : t.check globals = true) :
    GlobalPass.steps ⟨c, ⟨.countOnly, 0⟩, hs⟩ (line :: lines) = .ok ⟨c', ⟨.countOnly, 0⟩, hs ++ [line.number]⟩ ∧
      ∀ m, declaredMethod? line.chars = some m → ∀ source after, ∃ closing q,
        ((MethodPass.entered globals m).run source (lines ++ after)).outcome = .ok (some (closing, q)) ∧
          q.endsWithReturn = true := by
  rw [List.map_cons, MethodTree.lines] at ht
  obtain ⟨hheader, ht⟩ := List.cons.inj ht
  obtain ⟨m, before, l, p, q, hdeclared, rfl, hwithin, hstep, hq, hreturn⟩ := run_of_method hcheck ht hlines
  constructor
  · have hfirst : (⟨c, ⟨.countOnly, 0⟩, hs⟩ : GlobalPass).step line =
        .ok ⟨c', ⟨.countOnly, 1⟩, hs ++ [line.number]⟩ :=
      GlobalPass.step_of_header hline htake
    have hbody : GlobalPass.steps ⟨c', ⟨.countOnly, 1⟩, hs ++ [line.number]⟩ before =
        .ok ⟨c', ⟨.countOnly, p.tracker.depth⟩, hs ++ [line.number]⟩ := GlobalPass.steps_of_within hwithin rfl
    have hlast : (⟨c', ⟨.countOnly, p.tracker.depth⟩, hs ++ [line.number]⟩ : GlobalPass).step l =
        .ok ⟨c', ⟨.countOnly, 0⟩, hs ++ [line.number]⟩ := by
      rw [← hq]
      exact GlobalPass.step_of_step (hwithin.inside rfl) hstep
    refine GlobalPass.steps_cons_eq_ok.2 ⟨_, hfirst, GlobalPass.steps_append_eq_ok.2 ⟨_, hbody, ?_⟩⟩
    exact GlobalPass.steps_cons_eq_ok.2 ⟨_, hlast, rfl⟩
  · intro m' hm' source after
    rw [← hheader, hm'] at hdeclared
    cases hdeclared
    rw [List.append_assoc]
    exact ⟨l.number, q, outcome_run_of_leaving after hwithin hstep hq, hreturn⟩

/-! ## All lines -/

/-- The header found last is still there. -/
theorem GlobalPass.Extends.header_eq {t : Tracker} {n : Nat} (h : g.Extends ⟨c, t, hs ++ [n]⟩) :
    g.headers[hs.length]? = some n := by
  obtain ⟨more, hmore⟩ := h.headers
  rw [← hmore]
  simp

theorem globalsOf_cons {item : Item} {items : List Item} :
    globalsOf c (item :: items) = some globals ↔
      ∃ c', item.declare c = some c' ∧ globalsOf c' items = some globals := by
  rw [globalsOf, List.foldlM_cons]
  exact Option.bind_eq_some_iff

/-- The lines are those of items that pass their checks and lead from the scopes `c` to `globals`. -/
def Itemized (globals c : ScopeChain) (lines : List (List Char)) : Prop :=
  ∃ items : List Item, items.flatMap Item.lines = lines ∧ globalsOf c items = some globals ∧
    ∀ item ∈ items, item.check globals = true

theorem Itemized.cons {item : Item} {rest : List (List Char)} (h : Itemized globals c' rest)
    (hdeclare : item.declare c = some c') (hcheck : item.check globals = true) :
    Itemized globals c (item.lines ++ rest) := by
  obtain ⟨items, rfl, hglobals, hitems⟩ := h
  exact ⟨item :: items, List.flatMap_cons, globalsOf_cons.2 ⟨c', hdeclare, hglobals⟩,
    List.forall_mem_cons.2 ⟨hcheck, hitems⟩⟩

/-- **Lines that both passes accept are those of items that pass their checks.** -/
theorem items_of_steps {p : GlobalPass} (hg : g.Coherent) (hdepth : g.tracker.depth = 0)
    (hmethods : ∀ i n, g.headers[i]? = some n → (checkMethod source g.scopes i n).outcome = .ok ())
    (hsource : source.numberedLines = before ++ lines) (hp : p.Coherent) (hpdepth : p.tracker.depth = 0)
    (hsteps : p.steps lines = .ok g) : Itemized g.scopes p.scopes (lines.map NumberedLine.chars) := by
  -- A method takes many lines at once, so the induction is on their number.
  induction hlength : lines.length using Nat.strong_induction_on generalizing before lines p with
  | _ length ih =>
    subst hlength
    have hlines : ∀ l ∈ lines, '\n' ∉ l.chars := fun l hl =>
      Source.newline_not_mem (s := source) (by rw [hsource]; exact List.mem_append_right _ hl)
    cases lines with
    | nil =>
      cases hsteps
      exact ⟨[], rfl, rfl, fun _ h => (nomatch h)⟩
    | cons line after =>
      obtain ⟨p', hstep, hafter⟩ := GlobalPass.steps_cons_eq_ok.1 hsteps
      obtain ⟨hline, hlines⟩ := List.forall_mem_cons.1 hlines
      obtain ⟨hp', -⟩ := hp.step hline hstep
      obtain ⟨-, hkept⟩ := hp'.steps hlines hafter
      have hsource' : source.numberedLines = (before ++ [line]) ++ after := by rw [hsource]; simp
      obtain ⟨c, ⟨mode, d⟩, hs⟩ := p
      cases hp.mode
      cases hpdepth
      rcases (GlobalPass.step_outside hline).1 hstep with ⟨hblank, rfl⟩ | ⟨c', htake, rfl⟩ | ⟨c', htake, rfl⟩
      · have hrest := ih _ (Nat.lt_succ_self _) hsource' hp' rfl hafter rfl
        have hdeclare : Item.declare c (.blank line.chars) = some c := if_pos hblank
        exact hrest.cons hdeclare rfl
      · have hrest := ih _ (Nat.lt_succ_self _) hsource' hp' rfl hafter rfl
        have hdeclare : Item.declare c (.global line.chars) = some c' := htake
        exact hrest.cons hdeclare rfl
      · obtain ⟨t, inside, rest, rfl, hheader, ht, hcheck, hsteps'⟩ :=
          method_of_header hp hg hsource htake hafter hkept hdepth (hmethods _ _ hkept.header_eq)
        have hsource'' : source.numberedLines = (before ++ line :: inside) ++ rest := by rw [hsource]; simp
        have hlt : rest.length < (line :: (inside ++ rest)).length := by
          simp only [List.length_cons, List.length_append]
          omega
        have hpast : GlobalPass.Coherent ⟨c', ⟨.countOnly, 0⟩, hs ++ [line.number]⟩ :=
          ⟨hp'.global, rfl, hp'.length, hp'.distinct⟩
        have hrest := ih _ hlt hsource'' hpast rfl hsteps' rfl
        have hdeclare : Item.declare c (.method t) = some c' := by
          rw [Item.declare, hheader]
          exact htake
        have hlines : (Item.method t).lines ++ rest.map NumberedLine.chars =
            (line :: (inside ++ rest)).map NumberedLine.chars := by
          rw [Item.lines, ht]
          simp
        rw [← hlines]
        exact hrest.cons hdeclare hcheck

/-- The lines of an item lead the pass over the global scope past it, and if the item is a method, its check succeeds
in the scopes at the end of the pass. -/
theorem steps_of_item {item : Item} (hsource : source.numberedLines = before ++ (lines ++ after))
    (hitem : lines.map NumberedLine.chars = item.lines) (hdeclare : item.declare c = some c')
    (hcheck : item.check globals = true) (hp : GlobalPass.Coherent ⟨c, ⟨.countOnly, 0⟩, hs⟩) :
    ∃ hs', GlobalPass.steps ⟨c, ⟨.countOnly, 0⟩, hs⟩ lines = .ok ⟨c', ⟨.countOnly, 0⟩, hs'⟩ ∧
      ∀ g : GlobalPass, g.Coherent → g.scopes = globals → g.Extends ⟨c', ⟨.countOnly, 0⟩, hs'⟩ →
        ∀ i n, hs.length ≤ i → i < hs'.length → g.headers[i]? = some n →
          (checkMethod source globals i n).outcome = .ok () := by
  have hlines : ∀ l ∈ lines, '\n' ∉ l.chars := fun l hl =>
    Source.newline_not_mem (s := source) (by rw [hsource]; simp [hl])
  cases item with
  | blank chars =>
    obtain ⟨line, nothing, rfl, rfl, hnothing⟩ := List.map_eq_cons_iff.1 hitem
    cases List.map_eq_nil_iff.1 hnothing
    obtain ⟨hblank, hc⟩ := Option.ite_none_right_eq_some.1 hdeclare
    cases hc
    have hstep : (⟨c, ⟨.countOnly, 0⟩, hs⟩ : GlobalPass).step line = .ok ⟨c, ⟨.countOnly, 0⟩, hs⟩ :=
      GlobalPass.step_of_blank hblank _
    exact ⟨hs, GlobalPass.steps_cons_eq_ok.2 ⟨_, hstep, rfl⟩, fun _ _ _ _ _ _ hi hi' => absurd hi (Nat.not_le.2 hi')⟩
  | global chars =>
    obtain ⟨line, nothing, rfl, rfl, hnothing⟩ := List.map_eq_cons_iff.1 hitem
    cases List.map_eq_nil_iff.1 hnothing
    have hstep : (⟨c, ⟨.countOnly, 0⟩, hs⟩ : GlobalPass).step line = .ok ⟨c', ⟨.countOnly, 0⟩, hs⟩ :=
      GlobalPass.step_of_variables (hlines line List.mem_cons_self) hdeclare
    exact ⟨hs, GlobalPass.steps_cons_eq_ok.2 ⟨_, hstep, rfl⟩, fun _ _ _ _ _ _ hi hi' => absurd hi (Nat.not_le.2 hi')⟩
  | method t =>
    obtain ⟨line, inside, rfl, hheader, hinside⟩ := List.map_eq_cons_iff.1 hitem
    obtain ⟨hline, hlines⟩ := List.forall_mem_cons.1 hlines
    have htake : c.takeLine [.methodDeclaration] line.chars = some c' := by rw [hheader]; exact hdeclare
    obtain ⟨hsteps, hrun⟩ := steps_of_method hs hline hlines htake hitem hcheck
    refine ⟨hs ++ [line.number], hsteps, fun g hg hglobals hkept i n hi hi' hn => ?_⟩
    have hi : i = hs.length := by
      rw [List.length_append, List.length_singleton] at hi'
      omega
    subst hi hglobals
    cases hn.symm.trans hkept.header_eq
    have hsource' : source.numberedLines = before ++ line :: (inside ++ after) := hsource
    obtain ⟨m, hm, hiff⟩ := checkMethod_of_header hp hg hsource' htake ⟨hkept.headers, hkept.methods⟩
    exact hiff.2 (hrun m hm source after)

/-- The lines of items lead the pass over the global scope past them, and the checks of their methods succeed in the
scopes at the end of the pass. -/
theorem steps_past_items {items : List Item} (hsource : source.numberedLines = before ++ (lines ++ after))
    (hitems : items.flatMap Item.lines = lines.map NumberedLine.chars) (hdeclare : globalsOf c items = some c')
    (hcheck : ∀ item ∈ items, item.check globals = true) (hp : GlobalPass.Coherent ⟨c, ⟨.countOnly, 0⟩, hs⟩) :
    ∃ hs', GlobalPass.steps ⟨c, ⟨.countOnly, 0⟩, hs⟩ lines = .ok ⟨c', ⟨.countOnly, 0⟩, hs'⟩ ∧
      ∀ g : GlobalPass, g.Coherent → g.scopes = globals → g.Extends ⟨c', ⟨.countOnly, 0⟩, hs'⟩ →
        ∀ i n, hs.length ≤ i → i < hs'.length → g.headers[i]? = some n →
          (checkMethod source globals i n).outcome = .ok () := by
  induction items generalizing before lines c hs with
  | nil =>
    cases List.map_eq_nil_iff.1 hitems.symm
    cases hdeclare
    exact ⟨hs, rfl, fun _ _ _ _ _ _ hi hi' => absurd hi (Nat.not_le.2 hi')⟩
  | cons item items ih =>
    obtain ⟨c₁, hfirst, hdeclare⟩ := globalsOf_cons.1 hdeclare
    obtain ⟨hitem, hcheck⟩ := List.forall_mem_cons.1 hcheck
    rw [List.flatMap_cons] at hitems
    obtain ⟨inside, rest, rfl, hinside, hrest⟩ := List.map_eq_append_iff.1 hitems.symm
    have hlines : ∀ l ∈ inside ++ rest, '\n' ∉ l.chars := fun l hl =>
      Source.newline_not_mem (s := source) (by
        rw [hsource]
        exact List.mem_append_right _ (List.mem_append_left _ hl))
    obtain ⟨hlinesInside, hlinesRest⟩ := List.forall_mem_append.1 hlines
    rw [List.append_assoc inside] at hsource
    obtain ⟨hs₁, hsteps, hchecked⟩ := steps_of_item hsource hinside hfirst hitem hp
    obtain ⟨hp₁, -⟩ := hp.steps hlinesInside hsteps
    rw [← List.append_assoc] at hsource
    obtain ⟨hs', hsteps', hlater⟩ := ih hsource hrest.symm hdeclare hcheck hp₁
    obtain ⟨-, hkept⟩ := hp₁.steps hlinesRest hsteps'
    refine ⟨hs', GlobalPass.steps_append_eq_ok.2 ⟨_, hsteps, hsteps'⟩, fun g hg hglobals hextends i n hi hi' hn => ?_⟩
    by_cases hnew : i < hs₁.length
    · exact hchecked g hg hglobals (hextends.trans hkept) i n hi hnew hn
    · exact hlater g hg hglobals hextends i n (Nat.not_lt.1 hnew) hi' hn

/-- **Both passes accept the lines of items that pass their checks.** -/
theorem steps_of_items {p : GlobalPass} {items : List Item} (hsource : source.numberedLines = before ++ lines)
    (hitems : items.flatMap Item.lines = lines.map NumberedLine.chars)
    (hglobals : globalsOf p.scopes items = some globals)
    (hcheck : ∀ item ∈ items, item.check globals = true) (hp : p.Coherent) (hpdepth : p.tracker.depth = 0) :
    ∃ g, p.steps lines = .ok g ∧ g.scopes = globals ∧ g.tracker.depth = 0 ∧
      ∀ i n, p.headers.length ≤ i → g.headers[i]? = some n → (checkMethod source globals i n).outcome = .ok () := by
  obtain ⟨c, ⟨mode, d⟩, hs⟩ := p
  cases hp.mode
  cases hpdepth
  have hlines : ∀ l ∈ lines, '\n' ∉ l.chars := fun l hl =>
    Source.newline_not_mem (s := source) (by rw [hsource]; exact List.mem_append_right _ hl)
  have hsource' : source.numberedLines = before ++ (lines ++ []) := by rw [hsource, List.append_nil]
  obtain ⟨hs', hsteps, hchecked⟩ := steps_past_items hsource' hitems hglobals hcheck hp
  obtain ⟨hg, -⟩ := hp.steps hlines hsteps
  refine ⟨_, hsteps, rfl, rfl, fun i n hi hn => ?_⟩
  obtain ⟨hi', -⟩ := List.getElem?_eq_some_iff.1 hn
  exact hchecked _ hg rfl (.refl _) i n hi hi' hn

end Methods

/-! ## The verdict -/

/-- **The checker accepts exactly the programs that are trees of blocks.** -/
theorem check_ok_iff_accepted (source : Source) : (∃ report, check source = .ok report) ↔
    ∃ items : List Item, items.flatMap Item.lines = source.lines.map Line.chars ∧ Accepted items := by
  have hchars : source.numberedLines.map NumberedLine.chars = source.lines.map Line.chars := by
    rw [Source.numberedLines, List.map_map, ← List.zipIdx_map_fst 0 source.lines, List.map_map, List.zipIdx_map_fst]
    rfl
  have hall : source.numberedLines = [] ++ source.numberedLines := rfl
  rw [← hchars]
  constructor
  · rintro ⟨report, h⟩
    obtain ⟨g, hread, hmethods, -⟩ := check_eq_ok.1 h
    obtain ⟨hsteps, hdepth⟩ := GlobalPass.outcome_readGlobals_eq_ok.1 hread
    obtain ⟨hg, -⟩ := GlobalPass.coherent_start.steps (fun _ => Source.newline_not_mem) hsteps
    obtain ⟨items, hitems, hglobals, hcheck⟩ :=
      items_of_steps hg hdepth hmethods hall GlobalPass.coherent_start rfl hsteps
    exact ⟨items, hitems, g.scopes, hglobals, hcheck⟩
  · rintro ⟨items, hitems, globals, hglobals, hcheck⟩
    obtain ⟨g, hsteps, rfl, hdepth, hmethods⟩ :=
      steps_of_items hall hitems hglobals hcheck GlobalPass.coherent_start rfl
    have hread := GlobalPass.outcome_readGlobals_eq_ok.2 ⟨hsteps, hdepth⟩
    exact ⟨_, check_eq_ok.2 ⟨g, hread, fun i n hn => hmethods i n (Nat.zero_le _) hn, rfl⟩⟩

end BlockCheck
