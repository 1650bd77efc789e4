import BlockCheck.Proofs.Program.Coverage
import BlockCheck.Proofs.Program.MethodOrder

/-!
# The body of a method is its own affair

What stands in the body of a method has no effect on the lines outside of it. The first pass sees a body only through
its braces: lines that are balanced on their own lead from any place inside of a method back to the same depth
(`GlobalPass.steps_of_balanced`), whatever else they hold. Every other method is checked from the same declarations, at
a place that has merely moved. So in an accepted program the body of a method may be replaced by any balanced lines,
and the one thing that can go wrong is in the new body or at its closing line (`check_of_body_change`).
-/

namespace BlockCheck

/-! ## Balanced lines inside of a method -/

/-- Lines that can be counted from some depth can be counted from one block further in. -/
theorem nextDepth_add_one {line : List Char} {d d' : Nat} (h : nextDepth line d = some d') :
    nextDepth line (d + 1) = some (d' + 1) := by
  unfold nextDepth at h ⊢
  split at h
  · cases h
    rw [if_pos ‹_›]
  · rw [if_neg ‹_›]
    split at h
    · rw [if_pos ‹_›, if_neg (Nat.succ_ne_zero d)]
      split at h
      · cases h
      · simp only [Option.some.injEq] at h ⊢
        omega
    · cases h
      rw [if_neg ‹_›]

/-- The closing line of a block is a closing brace. -/
theorem closes_of_whole {header close : List Char} {body : List (List Char)}
    (h : Whole (header :: (body ++ [close]))) : closesBlock close = true := by
  have hbalanced := h.balanced
  rw [Balanced, ← List.cons_append, depthAfter_append] at hbalanced
  obtain ⟨d, hd, hclose⟩ := Option.bind_eq_some_iff.1 hbalanced
  rw [depthAfter_singleton, nextDepth] at hclose
  -- Without the closing line the block is still open.
  have hopen : d ≠ 0 := by
    rintro rfl
    refine h.first (body.length + 1) (by simp) (Nat.succ_pos _) ?_
    rwa [List.take_succ_cons, List.take_left]
  by_contra hcloses
  rw [if_neg hcloses] at hclose
  split at hclose
  · cases hclose
  · exact hopen (Option.some.inj hclose)

namespace GlobalPass

variable {c : ScopeChain} {hs : List Nat} {d d' : Nat} {lines : List NumberedLine}

/-- Inside of a method lines are only counted. -/
theorem steps_of_depthAfter (h : depthAfter d (lines.map NumberedLine.chars) = some d') :
    steps ⟨c, ⟨.countOnly, d + 1⟩, hs⟩ lines = .ok ⟨c, ⟨.countOnly, d' + 1⟩, hs⟩ := by
  induction lines generalizing d with
  | nil =>
    cases h
    rfl
  | cons line lines ih =>
    rw [List.map_cons, depthAfter_cons] at h
    obtain ⟨d₁, hline, hrest⟩ := Option.bind_eq_some_iff.1 h
    exact steps_cons_eq_ok.2 ⟨_, step_inside.2 ⟨_, nextDepth_add_one hline, rfl⟩, ih hrest⟩

/-- **The first pass sees a body only through its braces**: whatever else stands between the header of a method and its
closing line, the method leads the pass past it. -/
theorem steps_of_block {c' : ScopeChain} {first last : NumberedLine} (hfirst : '\n' ∉ first.chars)
    (hheader : c.takeLine [.methodDeclaration] first.chars = some c')
    (hbody : Balanced (lines.map NumberedLine.chars)) (hclose : closesBlock last.chars = true) :
    steps ⟨c, ⟨.countOnly, 0⟩, hs⟩ (first :: (lines ++ [last])) =
      .ok ⟨c', ⟨.countOnly, 0⟩, hs ++ [first.number]⟩ := by
  have hinside : steps ⟨c', ⟨.countOnly, 1⟩, hs ++ [first.number]⟩ lines =
      .ok ⟨c', ⟨.countOnly, 1⟩, hs ++ [first.number]⟩ := steps_of_depthAfter hbody
  have hlast : (⟨c', ⟨.countOnly, 1⟩, hs ++ [first.number]⟩ : GlobalPass).step last =
      .ok ⟨c', ⟨.countOnly, 0⟩, hs ++ [first.number]⟩ :=
    step_inside.2 ⟨0, nextDepth_of_closes hclose 0, rfl⟩
  refine steps_cons_eq_ok.2 ⟨_, step_of_header hfirst hheader, steps_append_eq_ok.2 ⟨_, hinside, ?_⟩⟩
  exact steps_cons_eq_ok.2 ⟨_, hlast, rfl⟩

end GlobalPass

/-! ## One method among items -/

/-- The numbered lines of a source fall into parts as its lines do. -/
theorem Source.exists_parts {source : Source} {A body C : List (List Char)} {header close : List Char}
    (h : source.lines.map Line.chars = A ++ header :: (body ++ close :: C)) :
    ∃ before first inside last after, source.numberedLines = before ++ first :: (inside ++ last :: after) ∧
      before.map NumberedLine.chars = A ∧ first.chars = header ∧ inside.map NumberedLine.chars = body ∧
      last.chars = close ∧ after.map NumberedLine.chars = C := by
  rw [← map_chars_numberedLines] at h
  obtain ⟨before, rest₁, hsplit, rfl, h₁⟩ := List.map_eq_append_iff.1 h
  obtain ⟨first, rest₂, rfl, rfl, h₂⟩ := List.map_eq_cons_iff.1 h₁
  obtain ⟨inside, rest₃, rfl, rfl, h₃⟩ := List.map_eq_append_iff.1 h₂
  obtain ⟨last, after, rfl, rfl, rfl⟩ := List.map_eq_cons_iff.1 h₃
  exact ⟨before, first, inside, last, after, hsplit, rfl, rfl, rfl, rfl, rfl⟩

/-- What the first pass finds in a source with a method among other items: the declarations of the items and of the
header, and methods that are right, that of the header apart. No block is open after the closing line. -/
structure Surrounds (source : Source) (globals : ScopeChain) (header closing : Nat) (g : GlobalPass) : Prop where
  read : (readGlobals source).outcome = .ok g
  scopes : g.scopes = globals
  closed : source.depth closing = some 0
  others : ∀ i n, g.headers[i]? = some n → n ≠ header → (checkMethod source g.scopes i n).outcome = .ok ()

/-- Items that pass their checks are right around a method with any balanced body. -/
theorem surrounds_of_items {source : Source} {items items' : List Item} {header close : List Char}
    {body : List (List Char)} {c c' globals : ScopeChain}
    (hsource : source.lines.map Line.chars =
      items.flatMap Item.lines ++ header :: (body ++ close :: items'.flatMap Item.lines))
    (hbefore : globalsOf .empty items = some c) (hheader : c.takeLine [.methodDeclaration] header = some c')
    (hafter : globalsOf c' items' = some globals) (hcheck : ∀ item ∈ items, item.check globals = true)
    (hcheck' : ∀ item ∈ items', item.check globals = true) (hbody : Balanced body)
    (hclose : closesBlock close = true) :
    ∃ g, Surrounds source globals ((items.flatMap Item.lines).length + 1)
      ((items.flatMap Item.lines).length + body.length + 2) g := by
  obtain ⟨front, first, inside, last, back, hsplit, hfront, rfl, rfl, rfl, hback⟩ := Source.exists_parts hsource
  obtain ⟨hnumber, -, -⟩ := Source.line_of_split hsplit
  have hnewline : ∀ l ∈ front ++ (first :: (inside ++ [last]) ++ back), '\n' ∉ l.chars := by
    intro l hl
    apply Source.newline_not_mem (s := source)
    rw [hsplit]
    simpa using hl
  obtain ⟨hfrontLines, hlines⟩ := List.forall_mem_append.1 hnewline
  obtain ⟨hblockLines, hbackLines⟩ := List.forall_mem_append.1 hlines
  -- The pass comes to the method, through it, and to the end.
  have hsplitFront : source.numberedLines = [] ++ (front ++ first :: (inside ++ last :: back)) := hsplit
  obtain ⟨hs, hfrontSteps, hfrontMethods⟩ :=
    steps_past_items hsplitFront hfront.symm hbefore hcheck GlobalPass.coherent_start
  obtain ⟨hfrontPass, -⟩ := GlobalPass.coherent_start.steps hfrontLines hfrontSteps
  have hblockSteps : GlobalPass.steps ⟨c, ⟨.countOnly, 0⟩, hs⟩ (first :: (inside ++ [last])) =
      .ok ⟨c', ⟨.countOnly, 0⟩, hs ++ [first.number]⟩ :=
    GlobalPass.steps_of_block (hblockLines first List.mem_cons_self) hheader hbody hclose
  obtain ⟨hblockPass, hblockKept⟩ := hfrontPass.steps hblockLines hblockSteps
  have hsplitBack : source.numberedLines = (front ++ first :: (inside ++ [last])) ++ (back ++ []) := by
    rw [hsplit]
    simp
  obtain ⟨hs', hbackSteps, hbackMethods⟩ := steps_past_items hsplitBack hback.symm hafter hcheck' hblockPass
  obtain ⟨hg, hbackKept⟩ := hblockPass.steps hbackLines hbackSteps
  have hupTo := GlobalPass.steps_append_eq_ok.2 ⟨_, hfrontSteps, hblockSteps⟩
  have hsteps : GlobalPass.steps {} source.numberedLines = .ok ⟨globals, ⟨.countOnly, 0⟩, hs'⟩ := by
    rw [hsplitBack, List.append_nil]
    exact GlobalPass.steps_append_eq_ok.2 ⟨_, hupTo, hbackSteps⟩
  refine ⟨_, GlobalPass.outcome_readGlobals_eq_ok.2 ⟨hsteps, rfl⟩, rfl, ?_, ?_⟩
  · have hdepth := GlobalPass.depth_of_steps hsplitBack hupTo
    have hlength : (front ++ first :: (inside ++ [last])).length =
        (items.flatMap Item.lines).length + (inside.map NumberedLine.chars).length + 2 := by
      rw [← hfront]
      simp only [List.length_append, List.length_cons, List.length_map, List.length_nil]
      omega
    rwa [hlength] at hdepth
  · intro i n hn hne
    obtain ⟨hi', -⟩ := List.getElem?_eq_some_iff.1 hn
    -- The method is one of the items in front of the header, or that of the header, or one behind it.
    rcases Nat.lt_trichotomy i hs.length with hi | rfl | hi
    · exact hfrontMethods _ hg rfl (hbackKept.trans hblockKept) i n (Nat.zero_le i) hi hn
    · have hheaderNumber := hbackKept.header_eq.symm.trans hn
      rw [Option.some.injEq, hnumber, ← List.length_map NumberedLine.chars, hfront] at hheaderNumber
      exact absurd hheaderNumber.symm hne
    · refine hbackMethods _ hg rfl (.refl _) i n ?_ hi' hn
      simp only [List.length_append, List.length_singleton]
      omega

/-- If a method is wrong while all others are right, the line at fault is in its body. -/
theorem Surrounds.cases {source : Source} {globals : ScopeChain} {header closing : Nat} {g : GlobalPass}
    (h : Surrounds source globals header closing g) (hlt : header < closing) :
    check source = .ok (Report.of source globals.root) ∨
      ∃ r, check source = .error r ∧ header < r.line ∧ r.line ≤ closing := by
  cases hcheck : check source with
  | ok report =>
    obtain ⟨g', hg', -, rfl⟩ := check_eq_ok.1 hcheck
    cases h.read.symm.trans hg'
    rw [h.scopes]
    exact .inl rfl
  | error r =>
    rcases check_eq_error hcheck with hread | ⟨g', i, n, hg', hn, hmethod⟩
    · cases h.read.symm.trans hread
    · cases h.read.symm.trans hg'
      have hheader : n = header := by
        by_contra hne
        cases (h.others i n hn hne).symm.trans hmethod
      subst hheader
      obtain ⟨hbody, -⟩ := methodVisits_of_error h.read hn hmethod
      obtain ⟨hafter, hle⟩ := Source.mem_body.1 hbody
      have hcloses := closes_of_header h.read (List.mem_of_getElem? hn)
      have hclosing : source.closing n ≤ closing := by
        by_contra hlater
        exact hcloses.first closing hlt (Nat.not_le.1 hlater) h.closed
      exact .inr ⟨r, rfl, hafter, Nat.le_trans hle hclosing⟩

/-! ## Changing a body -/

theorem writable_append {front back : List (List Char)} :
    Writable (front ++ back) ↔ Writable front ∧ Writable back := List.forall_mem_append

section Change

variable {name : String} {A body body' C : List (List Char)} {header close : List Char} {report : Report}

/-- The items of a source that pass their checks are what the first pass finds. -/
theorem readGlobals_of_items {source : Source} {items : List Item} {globals : ScopeChain}
    (hitems : items.flatMap Item.lines = source.lines.map Line.chars) (hglobals : globalsOf .empty items = some globals)
    (hcheck : ∀ item ∈ items, item.check globals = true) :
    ∃ g, (readGlobals source).outcome = .ok g ∧ g.scopes = globals := by
  rw [← source.map_chars_numberedLines] at hitems
  obtain ⟨g, hsteps, hscopes, hdepth, -⟩ :=
    steps_of_items (List.nil_append _).symm hitems hglobals hcheck GlobalPass.coherent_start rfl
  exact ⟨g, GlobalPass.outcome_readGlobals_eq_ok.2 ⟨hsteps, hdepth⟩, hscopes⟩

/-- An accepted program has a method among items that pass their checks, and they stay right around any other body. -/
theorem surrounds_of_accepted (hlines : Writable (A ++ [header] ++ body ++ [close] ++ C)) (hlines' : Writable body')
    (hA : Balanced A) (hM : BlockOf ([header] ++ body ++ [close])) (hbody' : Balanced body')
    (haccepted : check (.ofLines name (A ++ [header] ++ body ++ [close] ++ C)) = .ok report) :
    ∃ g g', (readGlobals (.ofLines name (A ++ [header] ++ body ++ [close] ++ C))).outcome = .ok g ∧
      Surrounds (.ofLines name (A ++ [header] ++ body' ++ [close] ++ C)) g.scopes (A.length + 1)
        (A.length + body'.length + 2) g' := by
  have hblock : A ++ [header] ++ body ++ [close] ++ C = A ++ (([header] ++ body ++ [close]) ++ C) := by simp
  have hwritable : Writable (A ++ [header] ++ body' ++ [close] ++ C) := by
    simp only [writable_append] at hlines ⊢
    obtain ⟨⟨⟨hbefore, -⟩, hclose⟩, hafter⟩ := hlines
    exact ⟨⟨⟨hbefore, hlines'⟩, hclose⟩, hafter⟩
  have hclose : closesBlock close = true := closes_of_whole hM.whole
  rw [hblock] at hlines haccepted ⊢
  obtain ⟨items, t, items', globals, rfl, ht, rfl, hglobals, hitems, -⟩ :=
    items_around_block hlines hA hM haccepted
  have hheader : t.header = header := (List.cons.inj ht).1
  have hparts : (items ++ .method t :: items').flatMap Item.lines =
      items.flatMap Item.lines ++ (([header] ++ body ++ [close]) ++ items'.flatMap Item.lines) := by
    rw [List.flatMap_append, List.flatMap_cons, ← ht]
    rfl
  obtain ⟨g, hread, rfl⟩ := readGlobals_of_items (hparts.trans (Source.chars_ofLines hlines).symm) hglobals
    fun item hitem => (hitems item hitem).2
  rw [globalsOf, List.foldlM_append] at hglobals
  obtain ⟨c, hbefore, hrest⟩ := Option.bind_eq_some_iff.1 hglobals
  obtain ⟨c', hdeclare, hafter⟩ := globalsOf_cons.1 hrest
  have htake : c.takeLine [.methodDeclaration] header = some c' := by
    rw [← hheader]
    exact hdeclare
  have hsource : (Source.ofLines name (items.flatMap Item.lines ++ [header] ++ body' ++ [close] ++
      items'.flatMap Item.lines)).lines.map Line.chars =
      items.flatMap Item.lines ++ header :: (body' ++ close :: items'.flatMap Item.lines) := by
    rw [Source.chars_ofLines hwritable]
    simp
  obtain ⟨g', hg'⟩ := surrounds_of_items hsource hbefore htake hafter
    (fun item hitem => (hitems item (by simp [hitem])).2) (fun item hitem => (hitems item (by simp [hitem])).2)
    hbody' hclose
  exact ⟨g, g', hread, hg'⟩

/-- Outside of one method the second source is as right as the first one: the first pass finds the same declarations,
and all other methods are right. -/
def SameOutside (source source' : Source) (header : Nat) : Prop :=
  ∃ g g', (readGlobals source).outcome = .ok g ∧ (readGlobals source').outcome = .ok g' ∧ g'.scopes = g.scopes ∧
    ∀ i n, g'.headers[i]? = some n → n ≠ header → (checkMethod source' g'.scopes i n).outcome = .ok ()

/-- **The body of a method may be changed**, as long as it stays balanced. The program is accepted with the same
declarations, or the line at fault is one of the new body or the closing line; nothing in the body has an effect on a
line outside of it. -/
theorem check_of_body_change (name : String) (A body body' C : List (List Char)) (header close : List Char)
    (report : Report) (hlines : Writable (A ++ [header] ++ body ++ [close] ++ C)) (hlines' : Writable body')
    (hA : Balanced A) (hM : BlockOf ([header] ++ body ++ [close])) (hbody' : Balanced body')
    (haccepted : check (.ofLines name (A ++ [header] ++ body ++ [close] ++ C)) = .ok report) :
    ((∃ report', check (.ofLines name (A ++ [header] ++ body' ++ [close] ++ C)) = .ok report' ∧
          report'.globals = report.globals ∧ report'.methods = report.methods) ∨
        ∃ r, check (.ofLines name (A ++ [header] ++ body' ++ [close] ++ C)) = .error r ∧
          A.length + 1 < r.line ∧ r.line ≤ A.length + body'.length + 2) ∧
      SameOutside (.ofLines name (A ++ [header] ++ body ++ [close] ++ C))
        (.ofLines name (A ++ [header] ++ body' ++ [close] ++ C)) (A.length + 1) := by
  obtain ⟨g, g', hread, hsurrounds⟩ := surrounds_of_accepted hlines hlines' hA hM hbody' haccepted
  refine ⟨?_, g, g', hread, hsurrounds.read, hsurrounds.scopes, hsurrounds.others⟩
  rcases hsurrounds.cases (by omega) with haccepted' | hrejected
  · obtain ⟨g₁, hread₁, -, rfl⟩ := check_eq_ok.1 haccepted
    cases hread.symm.trans hread₁
    exact .inl ⟨_, haccepted', rfl, rfl⟩
  · exact .inr hrejected

/-- A body that uses a variable of its own and one that is not declared: the fault is on the line of the use, and the
method below is right in both programs. -/
theorem check_of_undeclared_in_body : ∃ (A body body' C : List (List Char)) (header close : List Char) (r : Report)
    (r' : Rejection),
    check (.ofLines "body.sjava" (A ++ [header] ++ body ++ [close] ++ C)) = .ok r ∧
      check (.ofLines "body.sjava" (A ++ [header] ++ body' ++ [close] ++ C)) = .error r' ∧
      SameOutside (.ofLines "body.sjava" (A ++ [header] ++ body ++ [close] ++ C))
        (.ofLines "body.sjava" (A ++ [header] ++ body' ++ [close] ++ C)) 2 := by
  let A := ["int a;".toList]
  let body := [" a = 1;".toList, " return;".toList]
  let body' := [" if (true) \x7b".toList, "  a = b;".toList, " \x7d".toList, " return;".toList]
  let C := ["void g(int b) \x7b".toList, " return;".toList, "\x7d".toList]
  let header := "void f() \x7b".toList
  let close := "\x7d".toList
  have hlines : Writable (A ++ [header] ++ body ++ [close] ++ C) := by
    unfold Writable
    decide +kernel
  have hlines' : Writable body' := by
    unfold Writable
    decide +kernel
  have hM : BlockOf ([header] ++ body ++ [close]) :=
    ⟨⟨_, _, rfl, by decide +kernel⟩, ⟨by decide +kernel, by decide +kernel, by decide +kernel⟩⟩
  have hcheck : check (.ofLines "body.sjava" (A ++ [header] ++ body ++ [close] ++ C)) =
      .ok ⟨8, ["a"], ["f", "g"]⟩ := by decide +kernel
  have hcheck' : check (.ofLines "body.sjava" (A ++ [header] ++ body' ++ [close] ++ C)) =
      .error ⟨4, ⟨37, 1⟩, .ofRule (.undeclaredVariable "b" ⟨6, 1⟩)⟩ := by decide +kernel
  exact ⟨A, body, body', C, header, close, _, _, hcheck, hcheck', (check_of_body_change "body.sjava" A body body' C
    header close _ hlines hlines' (by decide +kernel) hM (by decide +kernel) hcheck).2⟩

end Change

end BlockCheck
