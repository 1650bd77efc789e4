import BlockCheck.Proofs.Program.NestingAgreement

/-!
# Runs through blocks

The pass over a method has a counter where the check of a block has a recursion. They are the same: the lines of a
block that passes its check lead through the method and back to the same number of open blocks
(`Block.within_of_check`), and lines that close as many blocks as are open belong to as many blocks that pass their
checks (`closes_of_within`). The two statements that a method must end with are told from the last statement of its
block (`Block.split_at_return`).
-/

namespace BlockCheck

/-! ## Scopes that stay open -/

namespace ScopeChain

theorem last_setInnermost (c : ScopeChain) (s : Scope) : (c.setInnermost s).last = c.last := by cases c <;> rfl

theorem last_initializing (name : String) (c : ScopeChain) : (c.initializing name).last = c.last := by
  induction c with
  | global s => rfl
  | block s outer ih =>
    unfold initializing
    split
    · rfl
    · exact congrArg (· + 1) ih

/-- No statement opens or closes a scope. -/
theorem last_of_checkLine {c c' : ScopeChain} {line : List Char} {kind : StatementKind}
    (h : c.checkLine line = (.ok (some kind), c')) : c'.last = c.last := by
  obtain ⟨st, -, -, -, -, rfl⟩ := checkLine_eq_ok_some_iff.1 h
  cases st with
  | variableDeclaration isFinal type ds => exact last_setInnermost c _
  | methodDeclaration name ps => exact last_setInnermost c _
  | assignment target value => exact last_initializing target.name c
  | _ => rfl

theorem pop?_of_last {c : ScopeChain} {n : Nat} (h : c.last = n + 1) : ∃ outer, c.pop? = some outer := by
  cases c with
  | global s => cases h
  | block s outer => exact ⟨outer, rfl⟩

theorem scopes_of_conditional {c c' : ScopeChain} {line : List Char}
    (h : c.checkLine line = (.ok (some .conditional), c')) : c' = c := by
  obtain ⟨st, hst, -, -, -, rfl⟩ := checkLine_eq_ok_some_iff.1 h
  cases st with
  | conditional operands => rfl
  | _ => cases hst

theorem takeLine_singleton_eq_some {c c' : ScopeChain} {line : List Char} {kind : StatementKind} :
    c.takeLine [kind] line = some c' ↔ c.checkLine line = (.ok (some kind), c') := by
  rw [takeLine_eq_some]
  constructor
  · rintro ⟨k, hk, h⟩
    cases List.mem_singleton.1 hk
    exact h
  · exact fun h => ⟨kind, List.mem_singleton.2 rfl, h⟩

end ScopeChain

namespace Block

variable {c c' : ScopeChain} {line : List Char} {kind : StatementKind} {rest : Block}

theorem check_blank : (blank line rest).check c = some c' ↔ isBlankLine line = true ∧ rest.check c = some c' :=
  Option.ite_none_right_eq_some

theorem check_statement : (statement kind line rest).check c = some c' ↔
    kind ∈ kinds ∧ ∃ c₁, c.checkLine line = (.ok (some kind), c₁) ∧ rest.check c₁ = some c' := by
  rw [check, Option.ite_none_right_eq_some, Option.bind_eq_some_iff]
  simp only [ScopeChain.takeLine_singleton_eq_some]

theorem check_conditional {head close : List Char} {body : Block} :
    (conditional head body close rest).check c = some c' ↔
      c.checkLine head = (.ok (some .conditional), c) ∧ ∃ inner, body.check c.push = some inner ∧
        ∃ outer, inner.pop? = some outer ∧ isClosingLine close = true ∧ rest.check outer = some c' := by
  rw [check, Option.bind_eq_some_iff]
  simp only [ScopeChain.takeLine_singleton_eq_some, Option.bind_eq_some_iff, Option.ite_none_right_eq_some]
  constructor
  · rintro ⟨c₁, hhead, hbody⟩
    cases ScopeChain.scopes_of_conditional hhead
    exact ⟨hhead, hbody⟩
  · rintro ⟨hhead, hbody⟩
    exact ⟨c, hhead, hbody⟩

/-- A block leaves as many scopes open as were open before. -/
theorem last_of_check {b : Block} (h : b.check c = some c') : c'.last = c.last := by
  induction b generalizing c c' with
  | nil => cases h; rfl
  | blank line rest ih => exact ih (check_blank.1 h).2
  | statement kind line rest ih =>
    obtain ⟨-, c₁, hline, hrest⟩ := check_statement.1 h
    exact (ih hrest).trans (ScopeChain.last_of_checkLine hline)
  | conditional head body close rest ihbody ihrest =>
    obtain ⟨-, inner, hbody, outer, hpop, -, hrest⟩ := check_conditional.1 h
    have hinner := ihbody hbody
    cases inner with
    | global s => cases hpop
    | block s outer' =>
      cases hpop
      exact (ihrest hrest).trans (Nat.succ.inj hinner)

/-- The scope of a block can be closed after it. -/
theorem pop?_of_check {b : Block} (h : b.check c.push = some c') : ∃ outer, c'.pop? = some outer :=
  ScopeChain.pop?_of_last (last_of_check h)

/-! ## From blocks to runs -/

/-- The kind of the last statement of a block; `last` is the one before the block. -/
def lastKind : Block → Option StatementKind → Option StatementKind
  | nil, last => last
  | blank _ rest, last => rest.lastKind last
  | statement kind _ rest, _ => rest.lastKind (some kind)
  | conditional _ _ _ rest, _ => rest.lastKind (some .closeBlock)

/-- **The lines of a block lead through it.** -/
theorem within_of_check {b : Block} {d : Nat} {previous last : Option StatementKind} {lines : List NumberedLine}
    (h : b.check c = some c') (hb : lines.map NumberedLine.chars = b.lines) (hlines : ∀ l ∈ lines, '\n' ∉ l.chars) :
    ∃ previous', MethodPass.Within ⟨c, ⟨.switching, d + 1⟩, previous, last⟩ lines
      ⟨c', ⟨.switching, d + 1⟩, previous', b.lastKind last⟩ := by
  induction b generalizing c c' d previous last lines with
  | nil =>
    cases List.map_eq_nil_iff.1 hb
    cases h
    exact ⟨previous, .nil⟩
  | blank line rest ih =>
    obtain ⟨l, ls, rfl, rfl, hrest⟩ := List.map_eq_cons_iff.1 hb
    obtain ⟨hblank, hcheck⟩ := check_blank.1 h
    obtain ⟨-, hlines⟩ := List.forall_mem_cons.1 hlines
    obtain ⟨previous', hwithin⟩ := ih hcheck hrest hlines
    exact ⟨previous', .cons (MethodPass.step_of_blank hblank _) rfl hwithin⟩
  | statement kind line rest ih =>
    obtain ⟨l, ls, rfl, rfl, hrest⟩ := List.map_eq_cons_iff.1 hb
    obtain ⟨hkind, c₁, hcheckLine, hcheck⟩ := check_statement.1 h
    obtain ⟨hline, hlines⟩ := List.forall_mem_cons.1 hlines
    obtain ⟨previous', hwithin⟩ := ih hcheck hrest hlines
    exact ⟨previous', .cons (MethodPass.step_of_statement hline hkind hcheckLine) rfl hwithin⟩
  | conditional head body close rest ihbody ihrest =>
    obtain ⟨l, ls, rfl, rfl, hinner⟩ := List.map_eq_cons_iff.1 hb
    obtain ⟨bodyLines, more, rfl, hbodyLines, hmore⟩ := List.map_eq_append_iff.1 hinner
    obtain ⟨closing, restLines, rfl, rfl, hrestLines⟩ := List.map_eq_cons_iff.1 hmore
    obtain ⟨hcondition, inner, hbody, outer, hpop, hclosing, hrest⟩ := check_conditional.1 h
    obtain ⟨hline, hlines⟩ := List.forall_mem_cons.1 hlines
    obtain ⟨hlinesBody, hlinesMore⟩ := List.forall_mem_append.1 hlines
    obtain ⟨-, hlinesRest⟩ := List.forall_mem_cons.1 hlinesMore
    obtain ⟨previous₁, hwithinBody⟩ := ihbody hbody hbodyLines hlinesBody
    obtain ⟨previous₂, hwithinRest⟩ := ihrest hrest hrestLines hlinesRest
    refine ⟨previous₂, .cons (MethodPass.step_of_conditional hline hcondition) rfl (hwithinBody.append ?_)⟩
    exact .cons (MethodPass.step_of_closing_pop hclosing hpop) rfl hwithinRest

/-! ## The last statement -/

/-- A block whose last statement is a return ends with it and blank lines. -/
theorem split_at_return {b : Block} {last : Option StatementKind} (h : b.check c = some c')
    (hb : b.lastKind last = some .returnStatement) :
    last = some .returnStatement ∧ b.lines.all isBlankLine = true ∨
      ∃ (b' : Block) (finish : List Char) (blanks : List (List Char)) (c₁ : ScopeChain),
        b.lines = b'.lines ++ finish :: blanks ∧ b'.check c = some c₁ ∧
          (c₁.takeLine [.returnStatement] finish).isSome = true ∧ blanks.all isBlankLine = true := by
  induction b generalizing c c' last with
  | nil => exact .inl ⟨hb, rfl⟩
  | blank line rest ih =>
    obtain ⟨hblank, hrest⟩ := check_blank.1 h
    rcases ih hrest hb with ⟨hlast, hblanks⟩ | ⟨b', finish, blanks, c₁, hsplit, hcheck, hfinish⟩
    · exact .inl ⟨hlast, by rw [lines, List.all_cons, hblank, hblanks]; rfl⟩
    · refine .inr ⟨blank line b', finish, blanks, c₁, ?_, check_blank.2 ⟨hblank, hcheck⟩, hfinish⟩
      rw [lines, hsplit]
      rfl
  | statement kind line rest ih =>
    obtain ⟨hkind, c₂, hline, hrest⟩ := check_statement.1 h
    rcases ih hrest hb with ⟨hlast, hblanks⟩ | ⟨b', finish, blanks, c₁, hsplit, hcheck, hfinish⟩
    · cases hlast
      refine .inr ⟨nil, line, rest.lines, c, rfl, rfl, ?_, hblanks⟩
      rw [ScopeChain.takeLine_singleton_eq_some.2 hline]
      rfl
    · refine .inr ⟨statement kind line b', finish, blanks, c₁, ?_, ?_, hfinish⟩
      · rw [lines, hsplit]
        rfl
      · exact check_statement.2 ⟨hkind, c₂, hline, hcheck⟩
  | conditional head body close rest _ ih =>
    obtain ⟨hhead, inner, hbody, outer, hpop, hclosing, hrest⟩ := check_conditional.1 h
    rcases ih hrest hb with ⟨hlast, -⟩ | ⟨b', finish, blanks, c₁, hsplit, hcheck, hfinish⟩
    · cases hlast
    · refine .inr ⟨conditional head body close b', finish, blanks, c₁, ?_, ?_, hfinish⟩
      · rw [lines, hsplit, lines]
        simp only [List.cons_append, List.append_assoc]
      · exact check_conditional.2 ⟨hhead, inner, hbody, outer, hpop, hclosing, hcheck⟩

end Block

/-! ## From runs to blocks -/

/-- The lines close `d` blocks: before each closing line stands what is left of its block. -/
def Closes : Nat → ScopeChain → List (List Char) → Prop
  | 0, _, lines => lines = []
  | d + 1, c, lines => ∃ (b : Block) (close : List Char) (rest : List (List Char)) (c' : ScopeChain),
      lines = b.lines ++ close :: rest ∧ b.check c = some c' ∧ isClosingLine close = true ∧
        Closes d (c'.pop?.getD c') rest

/-- What stands in front of the lines of a block belongs to the block. -/
theorem Closes.extend {d : Nat} {c c₁ : ScopeChain} {front lines : List (List Char)} {f : Block → Block}
    (h : Closes (d + 1) c₁ lines) (hf : ∀ b, (f b).lines = front ++ b.lines)
    (hcheck : ∀ b c', b.check c₁ = some c' → (f b).check c = some c') : Closes (d + 1) c (front ++ lines) := by
  obtain ⟨b, close, rest, c', rfl, hb, hclosing, hrest⟩ := h
  exact ⟨f b, close, rest, c', by rw [hf, List.append_assoc], hcheck b c' hb, hclosing, hrest⟩

/-- **Lines that lead out of a method close all blocks that are open**, and each block passes its check. -/
theorem closes_of_within {p p' q : MethodPass} {before : List NumberedLine} {line : NumberedLine}
    (h : p.Within before p') (hmode : p.tracker.mode = .switching) (hinside : p.tracker.isGlobal = false)
    (hlines : ∀ l ∈ before ++ [line], '\n' ∉ l.chars) (hstep : p'.step line.chars = .ok q)
    (hq : q.tracker.depth = 0) : Closes p.tracker.depth p.scopes ((before ++ [line]).map NumberedLine.chars) := by
  induction h with
  | @nil p =>
    obtain ⟨c, ⟨mode, d⟩, previous, last⟩ := p
    cases hmode
    have hline := hlines line List.mem_cons_self
    rcases (MethodPass.step_eq_ok hline).1 hstep with
      ⟨-, rfl⟩ | ⟨kind, -, c', -, rfl⟩ | ⟨-, rfl⟩ | ⟨d', rfl, hclosing, rfl⟩
    · cases hq; cases hinside
    · cases hq; cases hinside
    · cases hq
    · cases hq
      exact ⟨.nil, line.chars, [], c, rfl, rfl, hclosing, rfl⟩
  | @cons p p₁ p' first rest hfirst hinside₁ hrest ih =>
    obtain ⟨c, ⟨mode, d⟩, previous, last⟩ := p
    cases hmode
    obtain ⟨hfirstLine, hlines⟩ := List.forall_mem_cons.1 hlines
    rw [List.cons_append, List.map_cons]
    cases d with
    | zero => cases hinside
    | succ d =>
      rcases (MethodPass.step_eq_ok hfirstLine).1 hfirst with
        ⟨hblank, rfl⟩ | ⟨kind, hkind, c', hcheck, rfl⟩ | ⟨hcheck, rfl⟩ | ⟨d', hd, hclosing, rfl⟩
      · show Closes (d + 1) c ([first.chars] ++ (rest ++ [line]).map NumberedLine.chars)
        exact (ih rfl hinside₁ hlines hstep).extend (f := .blank first.chars) (fun _ => rfl)
          fun b c' hb => Block.check_blank.2 ⟨hblank, hb⟩
      · show Closes (d + 1) c ([first.chars] ++ (rest ++ [line]).map NumberedLine.chars)
        exact (ih rfl hinside₁ hlines hstep).extend (f := .statement kind first.chars) (fun _ => rfl)
          fun b c'' hb => Block.check_statement.2 ⟨hkind, c', hcheck, hb⟩
      · -- The block that starts here is the first one to be closed, and what follows it belongs to the one around it.
        obtain ⟨b, close, more, inner, hsplit, hb, hclosing, hmore⟩ := ih rfl hinside₁ hlines hstep
        obtain ⟨outer, hpop⟩ := Block.pop?_of_check hb
        rw [hpop] at hmore
        have houter : Closes (d + 1) c ((first.chars :: (b.lines ++ [close])) ++ more) :=
          Closes.extend hmore (f := .conditional first.chars b close) (fun _ => by simp [Block.lines])
            fun b' c' hb' => Block.check_conditional.2 ⟨hcheck, inner, hb, outer, hpop, hclosing, hb'⟩
        have hlist : first.chars :: (rest ++ [line]).map NumberedLine.chars =
            (first.chars :: (b.lines ++ [close])) ++ more := by
          rw [hsplit]
          simp
        rw [hlist]
        exact houter
      · cases hd
        exact ⟨.nil, first.chars, _, c, rfl, rfl, hclosing, ih rfl hinside₁ hlines hstep⟩

end BlockCheck
