import BlockCheck.Proofs.Program.Balance
import BlockCheck.Proofs.Program.MethodIndex
import BlockCheck.Proofs.Program.MethodLookup
import BlockCheck.Proofs.Program.WrittenSource

/-!
# The order of methods

The declarations of a program are two folds that do not meet: the variables depend on the lines outside of methods
only (`Item.declareVars`), and the methods are those that the headers declare, which must have different names
(`globalsOf_empty_eq_some`). A method body needs the variables and finds methods by name. So a program whose items
stand in another order, with the same lines outside of methods in the same order, is accepted as well
(`accepted_of_perm`), and a method may be moved past any balanced lines (`check_move_method`).
-/

namespace BlockCheck

/-! ## Two folds -/

namespace Item

/-- The global variables after an item. -/
def declareVars (vars : SymbolTable Variable) : Item → Option (SymbolTable Variable)
  | global line =>
    ((ScopeChain.global { vars }).takeLine [.variableDeclaration, .assignment] line).map fun c => c.root.vars
  | blank _ | method _ => some vars

/-- The method that an item declares. -/
def method? : Item → Option (String × Method)
  | method t => namedMethod? t.header
  | blank _ | global _ => none

/-- What an item must be wherever it stands: its blank line is blank, its header declares a method. -/
def isLegible : Item → Bool
  | blank line => isBlankLine line
  | global _ => true
  | method t => (namedMethod? t.header).isSome

end Item

section Folds

variable {s : Scope} {c c' : ScopeChain} {line : List Char} {item : Item} {items items' : List Item}

/-- Declarations of variables and assignments do not look at the methods. -/
theorem checkLine_of_vars {kind : StatementKind} (methods : SymbolTable Method)
    (hkind : kind ∈ [StatementKind.variableDeclaration, .assignment])
    (h : (ScopeChain.global s).checkLine line = (.ok (some kind), c)) :
    ∃ vars, c = .global { s with vars } ∧
      (ScopeChain.global { s with methods }).checkLine line = (.ok (some kind), .global { vars, methods }) := by
  obtain ⟨st, rfl, hfailure, hw, hlegal, rfl⟩ := ScopeChain.checkLine_eq_ok_some_iff.1 h
  cases st with
  | variableDeclaration isFinal type ds =>
    refine ⟨_, rfl, ?_⟩
    obtain ⟨hfits, hdistinct, hfresh⟩ : (ScopeChain.global s).Declarable isFinal type ds := hlegal
    exact ScopeChain.checkLine_of_legal hfailure hw ⟨hfits, hdistinct, hfresh⟩
  | assignment target value =>
    refine ⟨_, rfl, ?_⟩
    exact ScopeChain.checkLine_of_legal hfailure hw hlegal
  | _ => simp [StatementTree.kind] at hkind

theorem takeLine_variables_eq_some :
    (ScopeChain.global s).takeLine [.variableDeclaration, .assignment] line = some c ↔
      ∃ vars, Item.declareVars s.vars (.global line) = some vars ∧ c = .global { s with vars } := by
  constructor
  · intro h
    obtain ⟨kind, hkind, hline⟩ := ScopeChain.takeLine_eq_some.1 h
    obtain ⟨vars, rfl, hline'⟩ := checkLine_of_vars {} hkind hline
    exact ⟨vars, Option.map_eq_some_iff.2 ⟨_, ScopeChain.takeLine_eq_some.2 ⟨kind, hkind, hline'⟩, rfl⟩, rfl⟩
  · rintro ⟨vars, hvars, rfl⟩
    obtain ⟨c', htake, rfl⟩ := Option.map_eq_some_iff.1 hvars
    obtain ⟨kind, hkind, hline⟩ := ScopeChain.takeLine_eq_some.1 htake
    obtain ⟨vars, rfl, hline'⟩ := checkLine_of_vars s.methods hkind hline
    exact ScopeChain.takeLine_eq_some.2 ⟨kind, hkind, hline'⟩

theorem takeLine_header_eq_some :
    (ScopeChain.global s).takeLine [.methodDeclaration] line = some c ↔
      ∃ e, namedMethod? line = some e ∧ s.methods.contains e.1 = false ∧
        c = .global { s with methods := ⟨s.methods.entries ++ [e]⟩ } := by
  rw [ScopeChain.takeLine_singleton_eq_some]
  constructor
  · intro h
    obtain ⟨st, hkind, -, hw, hlegal, rfl⟩ := ScopeChain.checkLine_eq_ok_some_iff.1 h
    have hst : statementOn? line = some st := hw.ofTokens?
    cases st with
    | methodDeclaration name ps =>
      refine ⟨(name.name, ⟨⟨ps.map Parameter.entry⟩⟩), ?_, hlegal.2.2, rfl⟩
      rw [ScopeChain.namedMethod?_of_checkLine h, hst]
      rfl
    | _ => cases hkind
  · rintro ⟨⟨name, m⟩, hentry, hfresh, rfl⟩
    obtain ⟨st, hkind, hfailure, hw, hlegal, heffect⟩ :=
      ScopeChain.checkLine_eq_ok_some_iff.1 (ScopeChain.namedMethod?_eq_some.1 hentry)
    cases st with
    | methodDeclaration name' ps =>
      cases heffect
      exact ScopeChain.checkLine_of_legal hfailure hw ⟨hlegal.1, hlegal.2.1, hfresh⟩
    | _ => cases hkind

/-- What an item declares, variables and methods apart. -/
theorem declare_global_eq_some : item.declare (.global s) = some c ↔
    item.isLegible = true ∧ (∀ e, item.method? = some e → s.methods.contains e.1 = false) ∧
      ∃ vars, item.declareVars s.vars = some vars ∧
        c = .global ⟨vars, ⟨s.methods.entries ++ item.method?.toList⟩⟩ := by
  have hsame : ∀ vars, (⟨vars, ⟨s.methods.entries ++ []⟩⟩ : Scope) = { s with vars } := fun vars => by
    rw [List.append_nil]
  cases item with
  | blank line =>
    constructor
    · intro h
      obtain ⟨hblank, hc⟩ := Option.ite_none_right_eq_some.1 h
      cases hc
      exact ⟨hblank, nofun, s.vars, rfl, congrArg _ (hsame s.vars).symm⟩
    · rintro ⟨hblank, -, vars, hvars, rfl⟩
      cases hvars
      exact (if_pos hblank).trans (congrArg _ (congrArg _ (hsame s.vars).symm))
  | global line =>
    show (ScopeChain.global s).takeLine _ line = some c ↔ _
    rw [takeLine_variables_eq_some]
    constructor
    · rintro ⟨vars, hvars, rfl⟩
      exact ⟨rfl, nofun, vars, hvars, congrArg _ (hsame vars).symm⟩
    · rintro ⟨-, -, vars, hvars, rfl⟩
      exact ⟨vars, hvars, congrArg _ (hsame vars)⟩
  | method t =>
    show (ScopeChain.global s).takeLine _ t.header = some c ↔ _
    rw [takeLine_header_eq_some]
    constructor
    · rintro ⟨e, he, hfresh, rfl⟩
      have hmethod : (Item.method t).method? = some e := he
      refine ⟨Option.isSome_iff_exists.2 ⟨e, he⟩, fun e' he' => ?_, s.vars, rfl, ?_⟩
      · cases hmethod.symm.trans he'
        exact hfresh
      · rw [hmethod]
        rfl
    · rintro ⟨hlegible, hfresh, vars, hvars, rfl⟩
      obtain ⟨e, he⟩ := Option.isSome_iff_exists.1 hlegible
      have hmethod : (Item.method t).method? = some e := he
      cases hvars
      refine ⟨e, he, hfresh e he, ?_⟩
      rw [hmethod]
      rfl

/-- A name that is new to a table keeps its names different. -/
theorem nodup_names_append_iff {names : List String} {e? : Option (String × Method)} (hnames : names.Nodup) :
    (names ++ e?.toList.map Prod.fst).Nodup ↔ ∀ e, e? = some e → names.contains e.1 = false := by
  cases e? with
  | none => simpa using hnames
  | some e =>
    simp only [Option.toList_some, List.map_singleton, List.nodup_append', hnames, List.nodup_singleton,
      List.disjoint_singleton, true_and, Option.some.injEq, forall_eq', List.contains_eq_mem, decide_eq_false_iff_not]

/-- **The two folds**: the variables, and the methods, which have different names. -/
theorem globalsOf_global_eq_some (hnames : s.methods.names.Nodup) : globalsOf (.global s) items = some c ↔
    (∀ item ∈ items, item.isLegible = true) ∧
      (s.methods.names ++ (items.filterMap Item.method?).map Prod.fst).Nodup ∧
      ∃ vars, items.foldlM Item.declareVars s.vars = some vars ∧
        c = .global ⟨vars, ⟨s.methods.entries ++ items.filterMap Item.method?⟩⟩ := by
  induction items generalizing s with
  | nil =>
    simp only [List.filterMap_nil, List.map_nil, List.append_nil, List.foldlM_nil]
    constructor
    · intro h
      cases h
      exact ⟨nofun, hnames, s.vars, rfl, rfl⟩
    · rintro ⟨-, -, vars, hvars, rfl⟩
      cases hvars
      rfl
  | cons item items ih =>
    have hsplit : (item :: items).filterMap Item.method? = item.method?.toList ++ items.filterMap Item.method? := by
      rw [List.filterMap_cons]
      cases item.method? <;> rfl
    -- The names of the methods before the rest of the items.
    have hnamesAfter : (SymbolTable.mk (s.methods.entries ++ item.method?.toList)).names =
        s.methods.names ++ item.method?.toList.map Prod.fst := List.map_append
    rw [globalsOf_cons, hsplit, List.map_append, ← List.append_assoc, ← List.append_assoc, List.foldlM_cons,
      List.forall_mem_cons, ← hnamesAfter]
    constructor
    · rintro ⟨c₁, hdeclare, hrest⟩
      obtain ⟨hlegible, hfresh, vars₁, hvars₁, rfl⟩ := declare_global_eq_some.1 hdeclare
      have hnames₁ := hnamesAfter ▸ (nodup_names_append_iff hnames).2 hfresh
      obtain ⟨hlegibles, hnodup, vars, hvars, rfl⟩ := (ih (s := ⟨vars₁, _⟩) hnames₁).1 hrest
      exact ⟨⟨hlegible, hlegibles⟩, hnodup, vars, Option.bind_eq_some_iff.2 ⟨vars₁, hvars₁, hvars⟩, rfl⟩
    · rintro ⟨⟨hlegible, hlegibles⟩, hnodup, vars, hvars, rfl⟩
      obtain ⟨vars₁, hvars₁, hvars⟩ := Option.bind_eq_some_iff.1 hvars
      have hnames₁ := (List.nodup_append'.1 hnodup).1
      have hfresh := (nodup_names_append_iff hnames).1 (hnamesAfter ▸ hnames₁)
      exact ⟨_, declare_global_eq_some.2 ⟨hlegible, hfresh, vars₁, hvars₁, rfl⟩,
        (ih (s := ⟨vars₁, _⟩) hnames₁).2 ⟨hlegibles, hnodup, vars, hvars, rfl⟩⟩

theorem globalsOf_empty_eq_some : globalsOf .empty items = some c ↔
    (∀ item ∈ items, item.isLegible = true) ∧ ((items.filterMap Item.method?).map Prod.fst).Nodup ∧
      ∃ vars, items.foldlM Item.declareVars {} = some vars ∧
        c = .global ⟨vars, ⟨items.filterMap Item.method?⟩⟩ :=
  globalsOf_global_eq_some (s := {}) .nil

/-- Every item is declared at some place in the order. -/
theorem exists_declare_of_globalsOf (h : globalsOf c items = some c') (hitem : item ∈ items) :
    ∃ c₁ c₂, item.declare c₁ = some c₂ := by
  induction items generalizing c with
  | nil => cases hitem
  | cons first items ih =>
    obtain ⟨c₁, hfirst, hrest⟩ := globalsOf_cons.1 h
    rcases List.mem_cons.1 hitem with rfl | hitem
    · exact ⟨c, c₁, hfirst⟩
    · exact ih hrest hitem

/-- **The order of the methods does not matter**: items that are accepted are accepted in another order, if the
variables are declared as before. -/
theorem accepted_of_perm {globals : ScopeChain} (hperm : items.Perm items')
    (hvars : items.foldlM Item.declareVars {} = items'.foldlM Item.declareVars {})
    (hglobals : globalsOf .empty items = some globals) (hcheck : ∀ item ∈ items, item.check globals = true) :
    ∃ globals', globalsOf .empty items' = some globals' ∧ (∀ item ∈ items', item.check globals' = true) ∧
      globals'.root.vars = globals.root.vars ∧
      globals.root.methods.entries = items.filterMap Item.method? ∧
      globals'.root.methods.entries = items'.filterMap Item.method? := by
  obtain ⟨hlegible, hnames, vars, hfold, rfl⟩ := globalsOf_empty_eq_some.1 hglobals
  have hmethods := hperm.filterMap Item.method?
  have hglobals' : globalsOf .empty items' = some (.global ⟨vars, ⟨items'.filterMap Item.method?⟩⟩) :=
    globalsOf_empty_eq_some.2 ⟨fun item hitem => hlegible item (hperm.mem_iff.2 hitem),
      (hmethods.map Prod.fst).nodup hnames, vars, hvars ▸ hfold, rfl⟩
  have halike : ScopeChain.Alike (.global ⟨vars, ⟨items.filterMap Item.method?⟩⟩)
      (.global ⟨vars, ⟨items'.filterMap Item.method?⟩⟩) :=
    .global rfl fun name => SymbolTable.get?_of_perm hmethods hnames name
  refine ⟨_, hglobals', fun item hitem => ?_, rfl, rfl, rfl⟩
  have hitemCheck := hcheck item (hperm.mem_iff.2 hitem)
  cases item with
  | method t => exact halike.check_method hitemCheck
  | _ => rfl

end Folds

/-! ## The verdict by items -/

section Verdict

variable {source : Source} {report : Report}

/-- A program is accepted with the report on the declarations of its items. -/
theorem check_eq_ok_iff_items : check source = .ok report ↔ ∃ items globals,
    items.flatMap Item.lines = source.lines.map Line.chars ∧ globalsOf .empty items = some globals ∧
      (∀ item ∈ items, item.check globals = true) ∧ Report.of source globals.root = report := by
  have hall : source.numberedLines = [] ++ source.numberedLines := rfl
  rw [← source.map_chars_numberedLines]
  constructor
  · intro h
    obtain ⟨g, hread, hmethods, hreport⟩ := check_eq_ok.1 h
    obtain ⟨hsteps, hdepth⟩ := GlobalPass.outcome_readGlobals_eq_ok.1 hread
    obtain ⟨hg, -⟩ := GlobalPass.coherent_start.steps (fun _ => Source.newline_not_mem) hsteps
    obtain ⟨items, hitems, hglobals, hcheck⟩ :=
      items_of_steps hg hdepth hmethods hall GlobalPass.coherent_start rfl hsteps
    exact ⟨items, g.scopes, hitems, hglobals, hcheck, hreport⟩
  · rintro ⟨items, globals, hitems, hglobals, hcheck, hreport⟩
    obtain ⟨g, hsteps, rfl, hdepth, hmethods⟩ :=
      steps_of_items hall hitems hglobals hcheck GlobalPass.coherent_start rfl
    have hread := GlobalPass.outcome_readGlobals_eq_ok.2 ⟨hsteps, hdepth⟩
    exact check_eq_ok.2 ⟨g, hread, fun i n hn => hmethods i n (Nat.zero_le _) hn, hreport⟩

end Verdict

/-! ## Moving a method -/

/-- The lines of one block: the first line opens it, and the last one is the first to close it. -/
structure BlockOf (lines : List (List Char)) : Prop where
  opens : ∃ header rest, lines = header :: rest ∧ opensBlock header = true
  whole : Whole lines

/-- Two reports that differ by the place of one method. -/
structure Report.Moved (method : String) (r r' : Report) : Prop where
  lines : r.lines = r'.lines
  globals : r.globals = r'.globals
  methods : ∃ before between after, r.methods = before ++ method :: (between ++ after) ∧
    r'.methods = before ++ between ++ method :: after

section Move

variable {name : String} {A M B C : List (List Char)} {report : Report}

/-- The items of an accepted program with a block in it: the block is a method between the items around it. -/
theorem items_around_block (hlines : Writable (A ++ (M ++ B))) (hA : Balanced A) (hM : BlockOf M)
    (h : check (.ofLines name (A ++ (M ++ B))) = .ok report) : ∃ before t after globals,
      before.flatMap Item.lines = A ∧ t.lines = M ∧ after.flatMap Item.lines = B ∧
        globalsOf .empty (before ++ .method t :: after) = some globals ∧
        (∀ item ∈ before ++ .method t :: after, Whole item.lines ∧ item.check globals = true) ∧
        Report.of (.ofLines name (A ++ (M ++ B))) globals.root = report := by
  obtain ⟨items, globals, hitems, hglobals, hcheck, hreport⟩ := check_eq_ok_iff_items.1 h
  rw [Source.chars_ofLines hlines] at hitems
  have hnewline : ∀ item ∈ items, ∀ line ∈ item.lines, '\n' ∉ line := fun item hitem line hline =>
    (hlines line (hitems ▸ List.mem_flatMap.2 ⟨item, hitem, hline⟩)).1
  have hwhole : ∀ item ∈ items, Whole item.lines := fun item hitem => by
    obtain ⟨c, c', hdeclare⟩ := exists_declare_of_globalsOf hglobals hitem
    exact Item.whole hdeclare (hcheck item hitem) (hnewline item hitem)
  obtain ⟨before, rest, rfl, hbefore, hrest⟩ := split_of_balanced hwhole hitems hA
  obtain ⟨-, hwholeRest⟩ := List.forall_mem_append.1 hwhole
  obtain ⟨block, after, rfl, hblock, hafter⟩ := split_of_balanced hwholeRest hrest hM.whole.balanced
  obtain ⟨hwholeBlock, -⟩ := List.forall_mem_append.1 hwholeRest
  obtain ⟨item, rfl, rfl⟩ := eq_singleton_of_whole hwholeBlock hblock hM.whole
  -- The one item of the block is no single line, since its first line opens a block.
  have hitem : item ∈ before ++ ([item] ++ after) := by simp
  obtain ⟨c, c', hdeclare⟩ := exists_declare_of_globalsOf hglobals hitem
  rcases Item.line_or_method hdeclare (hnewline item hitem) with ⟨line, hline, hopens, -⟩ | ⟨t, rfl, -⟩
  · obtain ⟨header, more, hsplit, hheader⟩ := hM.opens
    cases hline.symm.trans hsplit
    rw [hopens] at hheader
    cases hheader
  · exact ⟨before, t, after, globals, hbefore, rfl, hafter, hglobals,
      fun item hitem => ⟨hwhole item hitem, hcheck item hitem⟩, hreport⟩

/-- A method declares no variables. -/
theorem foldlM_declareVars_method (before after : List Item) (t : MethodTree) (vars : SymbolTable Variable) :
    (before ++ .method t :: after).foldlM Item.declareVars vars =
      (before ++ after).foldlM Item.declareVars vars := by
  rw [List.foldlM_append, List.foldlM_append]
  rfl

/-- Items with a method in front of others, and behind them. -/
theorem perm_of_move (a b c : List Item) (t : MethodTree) :
    (a ++ .method t :: (b ++ c)).Perm ((a ++ b) ++ .method t :: c) := by
  rw [List.append_assoc]
  exact List.perm_middle.symm.append_left a

theorem foldlM_of_move (a b c : List Item) (t : MethodTree) (vars : SymbolTable Variable) :
    (a ++ .method t :: (b ++ c)).foldlM Item.declareVars vars =
      ((a ++ b) ++ .method t :: c).foldlM Item.declareVars vars := by
  rw [foldlM_declareVars_method, foldlM_declareVars_method, List.append_assoc]

/-- The report on a program with a method, and on the one in which the method is moved behind other items. -/
theorem moved_of_items {source source' : Source} {a b c : List Item} {t : MethodTree} {s s' : Scope}
    (hlines : source.lineCount = source'.lineCount) (hvars : s'.vars = s.vars)
    (hs : s.methods.entries = (a ++ .method t :: (b ++ c)).filterMap Item.method?)
    (hs' : s'.methods.entries = ((a ++ b) ++ .method t :: c).filterMap Item.method?) {e : String × Method}
    (ht : namedMethod? t.header = some e) : (Report.of source s).Moved e.1 (Report.of source' s') := by
  have hmethod : (Item.method t).method? = some e := ht
  refine ⟨hlines, congrArg SymbolTable.names hvars.symm, (a.filterMap Item.method?).map Prod.fst,
    (b.filterMap Item.method?).map Prod.fst, (c.filterMap Item.method?).map Prod.fst, ?_, ?_⟩
  · show s.methods.entries.map Prod.fst = _
    rw [hs, List.filterMap_append, List.filterMap_cons_some hmethod, List.filterMap_append, List.map_append,
      List.map_cons, List.map_append]
  · show s'.methods.entries.map Prod.fst = _
    rw [hs', List.filterMap_append, List.filterMap_append, List.filterMap_cons_some hmethod, List.map_append,
      List.map_append, List.map_cons]

/-- A program with a method in front of balanced lines is accepted with the method behind them. -/
theorem check_of_move_back (hlines : Writable (A ++ (M ++ (B ++ C)))) (hlines' : Writable ((A ++ B) ++ (M ++ C)))
    (hA : Balanced A) (hB : Balanced B) (hM : BlockOf M)
    (h : check (.ofLines name (A ++ (M ++ (B ++ C)))) = .ok report) :
    ∃ report' header e, check (.ofLines name ((A ++ B) ++ (M ++ C))) = .ok report' ∧ M.head? = some header ∧
      namedMethod? header = some e ∧ report.Moved e.1 report' := by
  obtain ⟨a, t, rest, globals, rfl, rfl, hrest, hglobals, hitems, rfl⟩ := items_around_block hlines hA hM h
  have hwhole : ∀ item ∈ rest, Whole item.lines := fun item hitem => (hitems item (by simp [hitem])).1
  obtain ⟨b, c, rfl, rfl, rfl⟩ := split_of_balanced hwhole hrest hB
  obtain ⟨globals', hglobals', hcheck', hvars, hmethods, hmethods'⟩ := accepted_of_perm (perm_of_move a b c t)
    (foldlM_of_move a b c t {}) hglobals fun item hitem => (hitems item hitem).2
  have hlegible := (globalsOf_empty_eq_some.1 hglobals).1 (.method t) (by simp)
  obtain ⟨e, he⟩ := Option.isSome_iff_exists.1 hlegible
  refine ⟨_, t.header, e, check_eq_ok_iff_items.2 ⟨_, globals', ?_, hglobals', hcheck', rfl⟩, rfl, he, ?_⟩
  · rw [Source.chars_ofLines hlines']
    simp [Item.lines]
  · refine moved_of_items ?_ hvars hmethods hmethods' he
    rw [Source.lineCount_ofLines hlines, Source.lineCount_ofLines hlines']
    simp only [List.length_append]
    omega

/-- A program with a method behind balanced lines is accepted with the method in front of them. -/
theorem check_of_move_front (hlines : Writable (A ++ (M ++ (B ++ C)))) (hlines' : Writable ((A ++ B) ++ (M ++ C)))
    (hA : Balanced A) (hB : Balanced B) (hM : BlockOf M)
    (h : check (.ofLines name ((A ++ B) ++ (M ++ C))) = .ok report) :
    ∃ report', check (.ofLines name (A ++ (M ++ (B ++ C)))) = .ok report' := by
  obtain ⟨front, t, c, globals, hfront, rfl, rfl, hglobals, hitems, rfl⟩ :=
    items_around_block hlines' (hA.append hB) hM h
  have hwhole : ∀ item ∈ front, Whole item.lines := fun item hitem =>
    (hitems item (List.mem_append_left _ hitem)).1
  obtain ⟨a, b, rfl, rfl, rfl⟩ := split_of_balanced hwhole hfront hA
  obtain ⟨globals', hglobals', hcheck', -⟩ := accepted_of_perm (perm_of_move a b c t).symm
    (foldlM_of_move a b c t {}).symm hglobals fun item hitem => (hitems item hitem).2
  refine ⟨_, check_eq_ok_iff_items.2 ⟨_, globals', ?_, hglobals', hcheck', rfl⟩⟩
  rw [Source.chars_ofLines hlines]
  simp [Item.lines]

/-- **A method may be moved past balanced lines.** The verdict on the program is the same, and the reports on it differ
by the place of the method. -/
theorem check_move_method (name : String) (A M B C : List (List Char)) (hlines : Writable (A ++ M ++ B ++ C))
    (hA : Balanced A) (hB : Balanced B) (hM : BlockOf M) :
    ((∃ r, check (.ofLines name (A ++ M ++ B ++ C)) = .ok r) ↔
      ∃ r, check (.ofLines name (A ++ B ++ M ++ C)) = .ok r) ∧
    ∀ r r', check (.ofLines name (A ++ M ++ B ++ C)) = .ok r → check (.ofLines name (A ++ B ++ M ++ C)) = .ok r' →
      ∃ header e, M.head? = some header ∧ namedMethod? header = some e ∧ r.Moved e.1 r' := by
  have hlines' : Writable (A ++ B ++ M ++ C) := fun line hline => hlines line (by
    simp only [List.mem_append] at hline ⊢
    tauto)
  simp only [List.append_assoc] at hlines hlines' ⊢
  rw [← List.append_assoc A B] at hlines' ⊢
  refine ⟨⟨fun ⟨r, h⟩ => ?_, fun ⟨r, h⟩ => check_of_move_front hlines hlines' hA hB hM h⟩, fun r r' h h' => ?_⟩
  · obtain ⟨r', _, _, h', -⟩ := check_of_move_back hlines hlines' hA hB hM h
    exact ⟨r', h'⟩
  · obtain ⟨r'', header, e, h'', hhead, he, hmoved⟩ := check_of_move_back hlines hlines' hA hB hM h
    cases h'.symm.trans h''
    exact ⟨header, e, hhead, he, hmoved⟩

/-- A method that calls one below it is moved behind it, past an assignment. -/
theorem check_move_caller : ∃ (A M B C : List (List Char)) (r : Report), Writable (A ++ M ++ B ++ C) ∧ Balanced A ∧
    Balanced B ∧ BlockOf M ∧ check (.ofLines "moved.sjava" (A ++ M ++ B ++ C)) = .ok r ∧
      ∃ r', check (.ofLines "moved.sjava" (A ++ B ++ M ++ C)) = .ok r' := by
  let A := ["int a;".toList]
  let M := ["void f() \x7b".toList, " g(a);".toList, " return;".toList, "\x7d".toList]
  let B := ["a = 1;".toList, "void g(int b) \x7b".toList, " return;".toList, "\x7d".toList]
  let C := ["// end".toList]
  have hlines : Writable (A ++ M ++ B ++ C) := by
    unfold Writable
    decide +kernel
  have hA : Balanced A := by decide +kernel
  have hB : Balanced B := by decide +kernel
  have hM : BlockOf M := ⟨⟨_, _, rfl, by decide +kernel⟩, ⟨by decide +kernel, by decide +kernel, by decide +kernel⟩⟩
  have hcheck : check (.ofLines "moved.sjava" (A ++ M ++ B ++ C)) = .ok ⟨10, ["a"], ["f", "g"]⟩ := by decide +kernel
  obtain ⟨hverdict, -⟩ := check_move_method "moved.sjava" A M B C hlines hA hB hM
  exact ⟨A, M, B, C, _, hlines, hA, hB, hM, hcheck, hverdict.1 ⟨_, hcheck⟩⟩

end Move

end BlockCheck
