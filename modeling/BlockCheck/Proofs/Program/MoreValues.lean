import BlockCheck.Proofs.Line.GivenLiterals
import BlockCheck.Proofs.Program.MethodOrder
import BlockCheck.Proofs.Program.Tracked

/-!
# Programs with more values

Lines that are accepted one after the other are accepted as well where more variables have a value, and the scopes after
them differ in that only (`TrackedM.acceptThenCheck_run_of_atMost`). A program keeps its verdict if values are added to
its declarations (`check_of_sameOrAdds`). The second statement is about other lines, so it goes along the blocks of the
program: there are blocks with the new lines, and they pass their check wherever there are more values
(`ScopeChain.exists_block_of_sameOrAdds`). Together with the literals that may be written behind a name these are
`more_values_stay_accepted`.
-/

namespace BlockCheck

open Step

/-! ## Runs -/

namespace ScopeChain.AtMost

variable {c c' : ScopeChain}

/-- A tracker switches both chains alike. -/
theorem openScope (h : c.AtMost c') (t : Tracker) : (t.openScope c).AtMost (t.openScope c') := by
  obtain ⟨mode, depth⟩ := t
  cases mode with
  | switching => exact h.push
  | countOnly => exact h

theorem closeScope (h : c.AtMost c') (t : Tracker) : (t.closeScope c).AtMost (t.closeScope c') := by
  obtain ⟨mode, depth⟩ := t
  cases mode with
  | switching => exact h.pop?
  | countOnly => exact h

end ScopeChain.AtMost

namespace TrackedM

variable {line : List Char} {s s' s₁ : Tracked} {change : DepthChange} {kind? : Option StatementKind}

theorem accept_of_atMost (htracker : s'.tracker = s.tracker) (h : s.scopes.AtMost s'.scopes)
    (haccept : accept line s = .ok change s₁) :
    ∃ s₁', accept line s' = .ok change s₁' ∧ s₁'.tracker = s₁.tracker ∧ s₁.scopes.AtMost s₁'.scopes := by
  obtain ⟨t, c⟩ := s
  obtain ⟨t', c'⟩ := s'
  cases htracker
  rcases accept_cases haccept with
    ⟨hopens, rfl, rfl⟩ | ⟨hcloses, rfl, depth, hdepth, rfl⟩ | ⟨hopens, hcloses, rfl, rfl⟩
  · exact ⟨_, accept_of_opens hopens _, rfl, h.openScope t⟩
  · exact ⟨_, accept_of_closes hcloses hdepth, rfl, h.closeScope t⟩
  · exact ⟨_, accept_of_plain hopens hcloses _, rfl, h⟩

/-- **A step succeeds with more values** if it does with fewer. -/
theorem acceptThenCheck_of_atMost (htracker : s'.tracker = s.tracker) (h : s.scopes.AtMost s'.scopes)
    (hstep : acceptThenCheck line s = .ok (change, kind?) s₁) :
    ∃ s₁', acceptThenCheck line s' = .ok (change, kind?) s₁' ∧ s₁'.tracker = s₁.tracker ∧
      s₁.scopes.AtMost s₁'.scopes := by
  obtain ⟨s₂, haccept, hcheck⟩ := acceptThenCheck_eq_ok.1 hstep
  obtain ⟨s₂', haccept', htracker₂, h₂⟩ := accept_of_atMost htracker h haccept
  obtain ⟨hline, htracker₁⟩ := checkLine_eq_ok.1 hcheck
  obtain ⟨c₁', hline', h₁⟩ := h₂.checkLine (.inl rfl) hline
  refine ⟨⟨s₂'.tracker, c₁'⟩, acceptThenCheck_eq_ok.2 ⟨s₂', haccept', ?_⟩, ?_, h₁⟩
  · exact checkLine_eq_ok.2 ⟨hline', rfl⟩
  · exact htracker₂.trans htracker₁.symm

/-- **A run succeeds with more values** if it does with fewer, and with the same answers. -/
theorem acceptThenCheck_run_of_atMost {lines : List (List Char)}
    {answers : List (DepthChange × Option StatementKind)} (htracker : s'.tracker = s.tracker)
    (h : s.scopes.AtMost s'.scopes) (hrun : lines.mapM acceptThenCheck s = .ok answers s₁) :
    ∃ s₁', lines.mapM acceptThenCheck s' = .ok answers s₁' ∧ s₁'.tracker = s₁.tracker ∧
      s₁.scopes.AtMost s₁'.scopes := by
  induction lines generalizing s s' answers with
  | nil =>
    obtain ⟨rfl, rfl⟩ := mapM_nil_eq_ok.1 hrun
    exact ⟨s', mapM_nil_eq_ok.2 ⟨rfl, rfl⟩, htracker, h⟩
  | cons line lines ih =>
    obtain ⟨⟨change, kind?⟩, s₂, answers₂, hstep, hrest, rfl⟩ := mapM_cons_eq_ok.1 hrun
    obtain ⟨s₂', hstep', htracker₂, h₂⟩ := acceptThenCheck_of_atMost htracker h hstep
    obtain ⟨s₁', hrest', hlast⟩ := ih htracker₂ h₂ hrest
    exact ⟨s₁', mapM_cons_eq_ok.2 ⟨_, s₂', answers₂, hstep', hrest', rfl⟩, hlast⟩

end TrackedM

/-! ## Lines to which values are added -/

namespace SameOrAdds

variable {line line' : List Char}

theorem eq_of_isBlankLine (h : SameOrAdds line line') (hblank : isBlankLine line = true) : line' = line := by
  have hcheck : ScopeChain.empty.checkLine line = (.ok none, .empty) :=
    ScopeChain.checkLine_eq_ok_none.2 ⟨hblank, rfl⟩
  exact h.eq_of_checkLine hcheck nofun

theorem eq_of_isClosingLine (h : SameOrAdds line line') (hclosing : isClosingLine line = true) : line' = line := by
  have hcheck : ScopeChain.empty.checkLine line = (.ok (some .closeBlock), .empty) :=
    ScopeChain.checkLine_closeBlock_iff.2 ⟨hclosing, rfl⟩
  exact h.eq_of_checkLine hcheck (by decide)

theorem eq_of_declaredMethod? {m : Method} (h : SameOrAdds line line') (hmethod : declaredMethod? line = some m) :
    line' = line := by
  obtain ⟨c, htake, -⟩ := Option.bind_eq_some_iff.1 hmethod
  exact h.eq_of_checkLine (ScopeChain.takeLine_singleton_eq_some.1 htake) (by decide)

theorem eq_of_all_isBlankLine {lines lines' : List (List Char)} (h : List.Forall₂ SameOrAdds lines lines')
    (hblank : lines.all isBlankLine = true) : lines' = lines := by
  induction h with
  | nil => rfl
  | cons hline _ ih =>
    rw [List.all_cons, Bool.and_eq_true] at hblank
    rw [hline.eq_of_isBlankLine hblank.1, ih hblank.2]

end SameOrAdds

namespace ScopeChain

variable {c c' c₁ : ScopeChain} {lines' : List (List Char)}

theorem AtMost.takeLine {kinds : List StatementKind} {line line' : List Char} (h : c.AtMost c')
    (hline : SameOrAdds line line') (htake : c.takeLine kinds line = some c₁) :
    ∃ c₁', c'.takeLine kinds line' = some c₁' ∧ c₁.AtMost c₁' := by
  obtain ⟨kind, hkind, hcheck⟩ := takeLine_eq_some.1 htake
  obtain ⟨c₁', hcheck', h₁⟩ := h.checkLine hline hcheck
  exact ⟨c₁', takeLine_eq_some.2 ⟨kind, hkind, hcheck'⟩, h₁⟩

/-! ## Blocks and methods -/

/-- **Values are added to the lines of a block** that passes its check: there is a block with the new lines, and it
passes its check wherever there are more values. -/
theorem exists_block_of_sameOrAdds {b : Block} (hlines : List.Forall₂ SameOrAdds b.lines lines')
    (hb : b.check c = some c₁) :
    ∃ b' : Block, b'.lines = lines' ∧ ∀ c', c.AtMost c' → ∃ c₁', b'.check c' = some c₁' ∧ c₁.AtMost c₁' := by
  induction b generalizing c c₁ lines' with
  | nil =>
    cases hlines
    cases hb
    exact ⟨.nil, rfl, fun c' h => ⟨c', rfl, h⟩⟩
  | blank line rest ih =>
    obtain ⟨hblank, hrest⟩ := Block.check_blank.1 hb
    cases hlines with
    | cons hline hlines =>
      cases hline.eq_of_isBlankLine hblank
      obtain ⟨rest', rfl, hrest'⟩ := ih hlines hrest
      refine ⟨.blank line rest', rfl, fun c' h => ?_⟩
      obtain ⟨c₁', hcheck, h₁⟩ := hrest' c' h
      exact ⟨c₁', Block.check_blank.2 ⟨hblank, hcheck⟩, h₁⟩
  | statement kind line rest ih =>
    obtain ⟨hkind, c₂, hstatement, hrest⟩ := Block.check_statement.1 hb
    cases hlines with
    | @cons _ line' _ _ hline hlines =>
      obtain ⟨rest', rfl, hrest'⟩ := ih hlines hrest
      refine ⟨.statement kind line' rest', rfl, fun c' h => ?_⟩
      obtain ⟨c₂', hstatement', h₂⟩ := h.checkLine hline hstatement
      obtain ⟨c₁', hcheck, h₁⟩ := hrest' c₂' h₂
      exact ⟨c₁', Block.check_statement.2 ⟨hkind, c₂', hstatement', hcheck⟩, h₁⟩
  | conditional head body close rest ihbody ihrest =>
    obtain ⟨hhead, inner, hbody, outer, hpop, hclosing, hrest⟩ := Block.check_conditional.1 hb
    cases hlines with
    | cons hheadLine hlines =>
      obtain ⟨bodyLines, more, rfl, hbodyLines, hmore⟩ := forall₂_append_parts hlines
      cases hmore with
      | cons hcloseLine hrestLines =>
        cases hheadLine.eq_of_checkLine hhead (by decide)
        cases hcloseLine.eq_of_isClosingLine hclosing
        obtain ⟨body', rfl, hbody'⟩ := ihbody hbodyLines hbody
        obtain ⟨rest', rfl, hrest'⟩ := ihrest hrestLines hrest
        refine ⟨.conditional head body' close rest', rfl, fun c' h => ?_⟩
        -- The scopes after the head are those before it.
        obtain ⟨c₂', hhead', -⟩ := h.checkLine (.inl rfl) hhead
        cases scopes_of_conditional hhead'
        obtain ⟨inner', hinner, hinnerMost⟩ := hbody' c'.push h.push
        obtain ⟨outer', hpop', houter⟩ := hinnerMost.pop?_eq_some hpop
        obtain ⟨c₁', hcheck, h₁⟩ := hrest' outer' houter
        exact ⟨c₁', Block.check_conditional.2 ⟨hhead', inner', hinner, outer', hpop', hclosing, hcheck⟩, h₁⟩

theorem AtMost.entered (h : c.AtMost c') (m : Method) :
    (MethodPass.entered c m).scopes.AtMost (MethodPass.entered c' m).scopes :=
  h.push.withVariables (List.forall₂_same.2 fun _ _ => ⟨rfl, .refl _⟩)

theorem exists_method_of_sameOrAdds {t : MethodTree} (hlines : List.Forall₂ SameOrAdds t.lines lines')
    (ht : t.check c = true) :
    ∃ t' : MethodTree, t'.lines = lines' ∧ t'.header = t.header ∧ ∀ c', c.AtMost c' → t'.check c' = true := by
  obtain ⟨m, c₁, hdeclared, hbody, hfinish, hblanks, hclosing⟩ := MethodTree.check_eq_true.1 ht
  obtain ⟨c₂, hreturn⟩ := Option.isSome_iff_exists.1 hfinish
  obtain ⟨header, body, finish, blanks, close⟩ := t
  cases hlines with
  | cons hheaderLine hlines =>
    obtain ⟨bodyLines, more, rfl, hbodyLines, hmore⟩ := forall₂_append_parts hlines
    cases hmore with
    | cons hfinishLine hmore =>
      obtain ⟨blanks', last, rfl, hblankLines, hlast⟩ := forall₂_append_parts hmore
      cases hlast with
      | cons hcloseLine hnothing =>
        cases hnothing
        cases hheaderLine.eq_of_declaredMethod? hdeclared
        cases hfinishLine.eq_of_checkLine (takeLine_singleton_eq_some.1 hreturn) (by decide)
        cases SameOrAdds.eq_of_all_isBlankLine hblankLines hblanks
        cases hcloseLine.eq_of_isClosingLine hclosing
        obtain ⟨body', rfl, hbody'⟩ := exists_block_of_sameOrAdds hbodyLines hbody
        refine ⟨⟨header, body', finish, blanks, close⟩, rfl, rfl, fun c' h => ?_⟩
        obtain ⟨c₁', hcheck, h₁⟩ := hbody' _ (h.entered m)
        obtain ⟨c₂', hreturn', -⟩ := h₁.takeLine (.inl rfl) hreturn
        have hfinish' : (c₁'.takeLine [.returnStatement] finish).isSome = true :=
          Option.isSome_iff_exists.2 ⟨c₂', hreturn'⟩
        exact MethodTree.check_eq_true.2 ⟨m, c₁', hdeclared, hcheck, hfinish', hblanks, hclosing⟩

/-! ## Programs -/

theorem exists_item_of_sameOrAdds {item : Item} {globals : ScopeChain}
    (hlines : List.Forall₂ SameOrAdds item.lines lines') (hdeclare : item.declare c = some c₁)
    (hcheck : item.check globals = true) : ∃ item' : Item, item'.lines = lines' ∧
      (∀ c', c.AtMost c' → ∃ c₁', item'.declare c' = some c₁' ∧ c₁.AtMost c₁') ∧
      ∀ globals', globals.AtMost globals' → item'.check globals' = true := by
  cases item with
  | blank line =>
    obtain ⟨hblank, hc⟩ := Option.ite_none_right_eq_some.1 hdeclare
    cases hc
    cases hlines with
    | cons hline hnothing =>
      cases hnothing
      cases hline.eq_of_isBlankLine hblank
      exact ⟨.blank line, rfl, fun c' h => ⟨c', if_pos hblank, h⟩, fun _ _ => rfl⟩
  | global line =>
    cases hlines with
    | @cons _ line' _ _ hline hnothing =>
      cases hnothing
      exact ⟨.global line', rfl, fun c' h => h.takeLine hline hdeclare, fun _ _ => rfl⟩
  | method t =>
    obtain ⟨t', ht', hheader, hmethod⟩ := exists_method_of_sameOrAdds hlines hcheck
    refine ⟨.method t', ht', fun c' h => ?_, hmethod⟩
    show ∃ c₁', c'.takeLine _ t'.header = some c₁' ∧ _
    rw [hheader]
    exact h.takeLine (.inl rfl) hdeclare

/-- **Values are added to the lines of items** that are declared and pass their checks. -/
theorem exists_items_of_sameOrAdds {items : List Item} {globals last : ScopeChain}
    (hlines : List.Forall₂ SameOrAdds (items.flatMap Item.lines) lines') (hlast : globalsOf c items = some last)
    (hcheck : ∀ item ∈ items, item.check globals = true) : ∃ items' : List Item, items'.flatMap Item.lines = lines' ∧
      (∀ c', c.AtMost c' → ∃ last', globalsOf c' items' = some last' ∧ last.AtMost last') ∧
      ∀ globals', globals.AtMost globals' → ∀ item ∈ items', item.check globals' = true := by
  induction items generalizing c lines' with
  | nil =>
    cases hlines
    cases hlast
    exact ⟨[], rfl, fun c' h => ⟨c', rfl, h⟩, fun _ _ => nofun⟩
  | cons item items ih =>
    obtain ⟨c₁, hdeclare, hrest⟩ := globalsOf_cons.1 hlast
    obtain ⟨hitem, hitems⟩ := List.forall_mem_cons.1 hcheck
    rw [List.flatMap_cons] at hlines
    obtain ⟨itemLines, restLines, rfl, hitemLines, hrestLines⟩ := forall₂_append_parts hlines
    obtain ⟨item', rfl, hdeclare', hitem'⟩ := exists_item_of_sameOrAdds hitemLines hdeclare hitem
    obtain ⟨items', rfl, hrest', hitems'⟩ := ih hrestLines hrest hitems
    refine ⟨item' :: items', List.flatMap_cons, fun c' h => ?_, fun globals' h => ?_⟩
    · obtain ⟨c₁', hdeclared, h₁⟩ := hdeclare' c' h
      obtain ⟨last', hlast', hmost⟩ := hrest' c₁' h₁
      exact ⟨last', globalsOf_cons.2 ⟨c₁', hdeclared, hlast'⟩, hmost⟩
    · exact List.forall_mem_cons.2 ⟨hitem' globals' h, hitems' globals' h⟩

end ScopeChain

/-- The report does not tell which variables have a value. -/
theorem Report.of_atMost {source source' : Source} {c c' : ScopeChain} (hlines : source'.lineCount = source.lineCount)
    (h : c.AtMost c') : Report.of source' c'.root = Report.of source c.root := by
  simp only [Report.of, hlines, h.root.vars.names, h.root.methods]

/-- **A program to which values are added is accepted**, with the same report. -/
theorem check_of_sameOrAdds {source source' : Source} {report : Report}
    (hlines : List.Forall₂ SameOrAdds (source.lines.map Line.chars) (source'.lines.map Line.chars))
    (h : check source = .ok report) : check source' = .ok report := by
  obtain ⟨items, globals, hitems, hglobals, hcheck, rfl⟩ := check_eq_ok_iff_items.1 h
  have hcount : source'.lineCount = source.lineCount := by
    have hlength := hlines.length_eq
    rw [List.length_map, List.length_map] at hlength
    exact hlength.symm
  rw [← hitems] at hlines
  obtain ⟨items', hitems', hdeclared, hchecked⟩ := ScopeChain.exists_items_of_sameOrAdds hlines hglobals hcheck
  obtain ⟨globals', hglobals', hmost⟩ := hdeclared .empty (.refl .empty)
  exact check_eq_ok_iff_items.2 ⟨items', globals', hitems', hglobals', hchecked globals' hmost,
    Report.of_atMost hcount hmost⟩

/-- **More values do no harm.** Lines that are taken into account and checked one after the other, with success, give
the same answers in scopes that differ only in that more variables have a value, and the scopes after them differ in that
only. So a program that is accepted stays so, with the same report, if its declarations are given more values, global ones
and local ones: in particular if a literal of the type is written behind a name that is declared without a value. -/
theorem more_values_stay_accepted :
    (∀ {lines : List (List Char)} {answers : List (DepthChange × Option StatementKind)} {s s' s₁ : Tracked},
      s'.tracker = s.tracker → s.scopes.AtMost s'.scopes →
      lines.mapM TrackedM.acceptThenCheck s = .ok answers s₁ →
      ∃ s₁', lines.mapM TrackedM.acceptThenCheck s' = .ok answers s₁' ∧ s₁'.tracker = s₁.tracker ∧
        s₁.scopes.AtMost s₁'.scopes) ∧
    (∀ {source source' : Source} {report : Report},
      List.Forall₂ SameOrAdds (source.lines.map Line.chars) (source'.lines.map Line.chars) →
      check source = .ok report → check source' = .ok report) ∧
    ∀ {source source' : Source} {A B : List (List Char)} {line line' : List Char} {report : Report},
      source.lines.map Line.chars = A ++ line :: B → source'.lines.map Line.chars = A ++ line' :: B →
      GivesLiteral line line' → check source = .ok report → check source' = .ok report := by
  refine ⟨TrackedM.acceptThenCheck_run_of_atMost, check_of_sameOrAdds, ?_⟩
  intro source source' A B line line' report hlines hlines' hgives haccepted
  have hsame : ∀ lines : List (List Char), List.Forall₂ SameOrAdds lines lines := fun lines =>
    List.forall₂_same.2 fun _ _ => .inl rfl
  refine check_of_sameOrAdds ?_ haccepted
  rw [hlines, hlines']
  exact List.rel_append (hsame A) (.cons (.inr hgives.addsValues) (hsame B))

/-- A variable has its first value before a block that assigns it. A global variable is given a literal, and then a local
one. -/
theorem more_values_stay_accepted_with_literals :
    let few : Tracked := ⟨⟨.switching, 1⟩, .block { vars := ⟨[("x", ⟨.int, false, false⟩)]⟩ } .empty⟩
    let more : Tracked := ⟨⟨.switching, 1⟩, .block { vars := ⟨[("x", ⟨.int, false, true⟩)]⟩ } .empty⟩
    let lines := ["while (true) \x7b".toList, "x = 3;".toList, "\x7d".toList]
    let answers : List (DepthChange × Option StatementKind) :=
      [(.opened, some .conditional), (.unchanged, some .assignment), (.closed, some .closeBlock)]
    let declaring := fun (declared given : String) => [declared.toList, "void f() \x7b".toList, given.toList,
      "a = 1;".toList, "return;".toList, "\x7d".toList]
    (∃ s₁, lines.mapM TrackedM.acceptThenCheck few = .ok answers s₁) ∧
    (∃ s₁', lines.mapM TrackedM.acceptThenCheck more = .ok answers s₁' ∧ s₁'.tracker = more.tracker) ∧
    check (.ofLines "values.sjava" (declaring "int a, b;" "double c ;")) = .ok ⟨6, ["a", "b"], ["f"]⟩ ∧
    check (.ofLines "values.sjava" (declaring "int a = -2, b;" "double c ;")) = .ok ⟨6, ["a", "b"], ["f"]⟩ ∧
    check (.ofLines "values.sjava" (declaring "int a = -2, b;" "double c = 1.5 ;")) = .ok ⟨6, ["a", "b"], ["f"]⟩ := by
  intro few more lines answers declaring
  obtain ⟨hrun, hadds, hgives⟩ := more_values_stay_accepted
  have hatMost : few.scopes.AtMost more.scopes :=
    .block ⟨.cons ⟨rfl, rfl, rfl, fun _ => rfl⟩ .nil, rfl⟩ (ScopeChain.AtMost.refl .empty)
  have hfew : lines.mapM TrackedM.acceptThenCheck few = .ok answers more :=
    Step.eq_ok_iff.2 ⟨by decide +kernel, by decide +kernel⟩
  have htrackers : more.tracker = few.tracker := rfl
  obtain ⟨s₁', hmore, htracker, -⟩ := hrun htrackers hatMost hfew
  have hglobal : GivesLiteral "int a, b;".toList "int a = -2, b;".toList := by
    let a : Token := ⟨.identifier, some "a", ⟨4, 1⟩⟩
    let b : Token := ⟨.identifier, some "b", ⟨7, 1⟩⟩
    let ts : List Token :=
      ⟨.kwInt, none, ⟨0, 3⟩⟩ :: (([a] ++ ⟨.comma, none, ⟨5, 1⟩⟩ :: [b]) ++ [⟨.semicolon, none, ⟨8, 1⟩⟩])
    have hread : readLine "int a, b;".toList = ⟨ts, none⟩ := by decide +kernel
    have hw : (StatementTree.variableDeclaration false .int ([] ++ ⟨a, none⟩ :: [⟨b, none⟩])).Written ts :=
      .variableDeclaration rfl (.more (.bare rfl) (List.mem_singleton.2 rfl) (.one (.bare rfl))) rfl
    have hliteral : ReadsAs "-2".toList .intLiteral := ⟨⟨.intLiteral, some "-2", ⟨0, 2⟩⟩, by decide +kernel, rfl⟩
    have hline : "int a, b;".toList = "int a".toList ++ ", b;".toList := by decide
    exact .intro hread hw hline (by decide) hliteral (by decide) (by decide) (by decide)
  have hlocal : SameOrAdds "double c ;".toList "double c = 1.5 ;".toList := by
    let c : Token := ⟨.identifier, some "c", ⟨7, 1⟩⟩
    let value : Token := ⟨.doubleLiteral, some "1.5", ⟨11, 3⟩⟩
    let ts : List Token := ⟨.kwDouble, none, ⟨0, 6⟩⟩ :: ([c] ++ [⟨.semicolon, none, ⟨9, 1⟩⟩])
    let ts' : List Token :=
      ⟨.kwDouble, none, ⟨0, 6⟩⟩ :: ([c, ⟨.assign, none, ⟨9, 1⟩⟩, value] ++ [⟨.semicolon, none, ⟨15, 1⟩⟩])
    have hread : readLine "double c ;".toList = ⟨ts, none⟩ := by decide +kernel
    have hread' : readLine "double c = 1.5 ;".toList = ⟨ts', none⟩ := by decide +kernel
    have hw : (StatementTree.variableDeclaration false .double [⟨c, none⟩]).Written ts :=
      .variableDeclaration rfl (.one (.bare rfl)) rfl
    have hw' : (StatementTree.variableDeclaration false .double [⟨c, some value⟩]).Written ts' :=
      .variableDeclaration rfl (.one (.valued rfl rfl)) rfl
    refine .inr (.intro (by rw [hread]; exact hw) (by rw [hread']) (by rw [hread']; exact hw') ?_)
    exact .cons (.given (.refl c) (by decide) (by decide)) .nil
  have hlines : ∀ declared given : String, Writable (declaring declared given) →
      (Source.ofLines "values.sjava" (declaring declared given)).lines.map Line.chars = declaring declared given :=
    fun _ _ => Source.chars_ofLines
  have hnone := hlines "int a, b;" "double c ;" (by unfold Writable; decide +kernel)
  have hone := hlines "int a = -2, b;" "double c ;" (by unfold Writable; decide +kernel)
  have htwo := hlines "int a = -2, b;" "double c = 1.5 ;" (by unfold Writable; decide +kernel)
  have haccepted : check (.ofLines "values.sjava" (declaring "int a, b;" "double c ;")) =
      .ok ⟨6, ["a", "b"], ["f"]⟩ := by decide +kernel
  have haccepted₁ := hgives (A := []) hnone hone hglobal haccepted
  refine ⟨⟨more, hfew⟩, ⟨s₁', hmore, htracker⟩, haccepted, haccepted₁, hadds ?_ haccepted₁⟩
  rw [hone, htwo]
  exact .cons (.inl rfl) (.cons (.inl rfl) (.cons hlocal (List.forall₂_same.2 fun _ _ => .inl rfl)))

end BlockCheck
