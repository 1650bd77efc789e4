import BlockCheck.Proofs.Program.Depth
import BlockCheck.Proofs.Program.Tracked
import BlockCheck.Proofs.Scope.ArenaRuns
import BlockCheck.Proofs.Scope.Related

/-!
# Blocks leave no trace but values

Inside of a block all declarations go into scopes that are dropped with the block, and an assignment may reach a
variable outside of it. So lines that lead into a block, and out of it for the first time with the last of them, leave
the scopes as they were, apart from variables that have been given a value (`block_leaves_values`).

What carries the induction on the lines is that the scopes from before the block are still there, with some variables
marked, and as many scopes are open inside of them as blocks have been entered (`Tracked.Entered`,
`ScopeChain.Inside`).
-/

namespace BlockCheck

open Step

/-- The variable is as it was, or it is not final and has been given its first value. -/
def Variable.KeptOrGiven (v v' : Variable) : Prop :=
  v' = v ∨ v.isFinal = false ∧ v.isInitialized = false ∧ v' = v.markInitialized

namespace Variable

theorem KeptOrGiven.refl (v : Variable) : v.KeptOrGiven v := .inl rfl

theorem KeptOrGiven.trans (u v w : Variable) (h : u.KeptOrGiven v) (h' : v.KeptOrGiven w) : u.KeptOrGiven w := by
  rcases h with rfl | ⟨hfinal, hinitialized, rfl⟩
  · exact h'
  · rcases h' with rfl | ⟨-, -, rfl⟩
    · exact .inr ⟨hfinal, hinitialized, rfl⟩
    · exact .inr ⟨hfinal, hinitialized, u.markInitialized_markInitialized⟩

/-- Marking a variable that is not final gives it its first value, if it has none. -/
theorem keptOrGiven_markInitialized {v : Variable} (hfinal : v.isFinal = false) : v.KeptOrGiven v.markInitialized := by
  cases hinitialized : v.isInitialized with
  | false => exact .inr ⟨hfinal, hinitialized, rfl⟩
  | true =>
    left
    rw [markInitialized, ← hinitialized]

end Variable

/-! ## Scopes that are reached -/

namespace ScopeChain

variable {c c' : ScopeChain} {n : Nat}

theorem distinct_extend (inner : ScopeChain) (rest : List Scope) :
    (inner.extend rest).Distinct ↔ inner.Distinct ∧ ∀ s ∈ rest, s.Distinct := by
  unfold Distinct
  rw [toList_extend, List.forall_mem_append]

theorem distinct_onChain (e : ScopeEdit) (hc : c.Distinct) (h : e.onChain c = .ok c') : c'.Distinct := by
  cases e with
  | addVariable name v => exact hc.addVariable h
  | addMethod name m => exact hc.addMethod h
  | mark name =>
    have hmark : c.markInitialized name = .ok c' := h
    rw [markInitialized_eq] at hmark
    split at hmark
    · cases hmark
      exact hc.initializing name
    · cases hmark

theorem Distinct.pop? (hc : c.Distinct) : (c.pop?.getD c).Distinct := by
  cases c with
  | global s => exact hc
  | block s outer => exact (distinct_block.1 hc).1

/-- A call keeps the tables without repetition. -/
theorem distinct_call (call : TreeCall) (hc : c.Distinct) (h : call.onChain c = some c') : c'.Distinct := by
  cases call with
  | push =>
    cases h
    exact distinct_block.2 ⟨hc, .nil, .nil⟩
  | pop =>
    cases h
    exact hc.pop?
  | duplicate =>
    cases h
    intro s hs
    rw [toList_restart] at hs
    exact hc s (List.mem_of_mem_take hs)
  | edit n e =>
    have hn : n ≤ c.last := by
      by_contra hlt
      rw [TreeCall.onChain, atScope_of_lt (Nat.lt_of_not_le hlt)] at h
      cases h
    obtain ⟨inner, rest, rfl, rfl⟩ := exists_extend hn
    rw [TreeCall.onChain, atScope_extend] at h
    cases hedit : e.onChain inner with
    | error f =>
      rw [hedit] at h
      cases h
      exact hc
    | ok inner' =>
      rw [hedit] at h
      cases h
      obtain ⟨hinner, hrest⟩ := (distinct_extend inner rest).1 hc
      exact (distinct_extend inner' rest).2 ⟨distinct_onChain e hinner hedit, hrest⟩
  | parse line =>
    cases h
    exact stable_distinct.checkLine hc line

/-- **In scopes that are reached no table lists a name twice.** -/
theorem distinct_of_calls {calls : List TreeCall} (hc : c.Distinct) (h : calls.foldlM TreeCall.onChain c = some c') :
    c'.Distinct := by
  induction calls generalizing c with
  | nil =>
    cases h
    exact hc
  | cons call calls ih =>
    rw [List.foldlM_cons] at h
    obtain ⟨c₁, hcall, hrest⟩ := Option.bind_eq_some_iff.1 h
    exact ih (distinct_call call hc hcall) hrest

/-! ## Scopes around blocks -/

/-- The second chain is the first one, apart from values that have been given, with `n` more scopes inside of it. -/
inductive Inside (c : ScopeChain) : Nat → ScopeChain → Prop
  | here {c' : ScopeChain} : c.Related Variable.KeptOrGiven c' → Inside c 0 c'
  | block {n : Nat} {c' : ScopeChain} (s : Scope) : Inside c n c' → Inside c (n + 1) (.block s c')

namespace Inside

theorem push (h : c.Inside n c') : c.Inside (n + 1) c'.push := .block {} h

theorem pop? (h : c.Inside (n + 1) c') : c.Inside n (c'.pop?.getD c') := by
  cases h with
  | block s houter => exact houter

/-- What is declared inside is not seen from outside. -/
theorem setInnermost (h : c.Inside (n + 1) c') (s : Scope) : c.Inside (n + 1) (c'.setInnermost s) := by
  cases h with
  | block _ houter => exact .block s houter

/-- An assignment reaches the scope of its target, and gives a value there. -/
theorem initializing {name : String} (h : c.Inside n c') (hdistinct : c'.Distinct)
    (hfinal : ∀ v, c'.visibleVariable? name = some v → v.isFinal = false) : c.Inside n (c'.initializing name) := by
  induction h with
  | @here c' hrelated =>
    have hmarked : c'.Related Variable.KeptOrGiven (c'.initializing name) :=
      related_initializing Variable.KeptOrGiven.refl hdistinct fun v hv =>
        Variable.keptOrGiven_markInitialized (hfinal v hv)
    exact .here (hrelated.trans Variable.KeptOrGiven.trans hmarked)
  | @block n c' s houter ih =>
    obtain ⟨hdistinct, -⟩ := distinct_block.1 hdistinct
    rw [ScopeChain.initializing]
    split
    · exact .block _ houter
    · next hcontains =>
      have hnone : s.vars.get? name = none :=
        Option.not_isSome_iff_eq_none.1 (by rw [SymbolTable.isSome_get?]; exact hcontains)
      rw [visibleVariable?, hnone] at hfinal
      exact .block s (ih hdistinct hfinal)

/-- **No statement inside of a block is seen from outside**, apart from the values that it gives. -/
theorem effect {st : StatementTree} (h : c.Inside (n + 1) c') (hdistinct : c'.Distinct) (hlegal : st.Legal c') :
    c.Inside (n + 1) (st.effect c') := by
  cases st with
  | variableDeclaration isFinal type ds => exact h.setInnermost _
  | methodDeclaration name ps => exact h.setInnermost _
  | assignment target value =>
    obtain ⟨v, hv, hfinal, -⟩ := hlegal
    refine h.initializing hdistinct fun v' hv' => ?_
    cases hv.symm.trans hv'
    exact hfinal
  | returnStatement | conditional _ | methodCall _ _ | closeBlock => exact h

end Inside

end ScopeChain

/-! ## Lines -/

/-- Lines that are taken into account and checked are counted by their braces. -/
theorem TrackedM.depthAfter_of_run {lines : List (List Char)} {answers : List (DepthChange × Option StatementKind)}
    {s s' : Tracked} (h : lines.mapM acceptThenCheck s = .ok answers s') :
    depthAfter s.tracker.depth lines = some s'.tracker.depth := by
  induction lines generalizing s answers with
  | nil =>
    obtain ⟨-, rfl⟩ := mapM_nil_eq_ok.1 h
    rfl
  | cons line lines ih =>
    obtain ⟨⟨change, kind?⟩, s₁, answers₁, hstep, hrest, -⟩ := mapM_cons_eq_ok.1 h
    obtain ⟨s₂, haccept, hcheck⟩ := acceptThenCheck_eq_ok.1 hstep
    obtain ⟨-, hdepth⟩ := Tracker.nextDepth_of_accept (accept_eq_ok.1 haccept)
    have htracker : s₁.tracker = s₂.tracker := (checkLine_eq_ok.1 hcheck).2
    rw [depthAfter_cons, hdepth, Option.bind_some, ← htracker]
    exact ih hrest

/-- As many blocks as `n` have been entered since `start`, and the scopes that were open then are still there. -/
structure Tracked.Entered (start : Tracked) (n : Nat) (s : Tracked) : Prop where
  mode : s.tracker.mode = .switching
  depth : s.tracker.depth = start.tracker.depth + n
  inside : start.scopes.Inside n s.scopes
  distinct : s.scopes.Distinct

namespace Tracked.Entered

open TrackedM

variable {start s s' : Tracked} {n : Nat} {line : List Char} {change : DepthChange} {kind? : Option StatementKind}

/-- A line that is taken into account leads one block further in, or out of one, or nowhere. -/
theorem accept (h : start.Entered n s) (hstep : TrackedM.accept line s = .ok change s')
    (hn : 0 < n ∨ opensBlock line = true) :
    ∃ n', start.Entered n' s' ∧ (0 < n' ∨ closesBlock line = true) := by
  obtain ⟨⟨mode, depth⟩, c⟩ := s
  obtain ⟨hmode, hdepth, hinside, hdistinct⟩ := h
  cases hmode
  rcases accept_cases hstep with ⟨-, -, rfl⟩ | ⟨hcloses, -, depth', hdepth', rfl⟩ | ⟨hopens, -, -, rfl⟩
  · refine ⟨n + 1, ⟨rfl, ?_, hinside.push, ?_⟩, .inl (Nat.succ_pos n)⟩
    · exact congrArg (· + 1) hdepth
    · exact ScopeChain.distinct_block.2 ⟨hdistinct, .nil, .nil⟩
  · have hpos : 0 < n := hn.resolve_right fun hopens => by
      rw [not_opensBlock_of_closesBlock hcloses] at hopens
      cases hopens
    obtain ⟨m, rfl⟩ := Nat.exists_eq_add_one.2 hpos
    refine ⟨m, ⟨rfl, ?_, hinside.pop?, hdistinct.pop?⟩, .inr hcloses⟩
    simp only at hdepth hdepth' ⊢
    omega
  · have hpos : 0 < n := hn.resolve_right fun h => by
      rw [hopens] at h
      cases h
    exact ⟨n, ⟨rfl, hdepth, hinside, hdistinct⟩, .inl hpos⟩

/-- A line that is checked changes nothing outside, if it is inside of a block or closes one. -/
theorem checkLine (h : start.Entered n s) (hstep : TrackedM.checkLine line s = .ok kind? s')
    (hn : 0 < n ∨ closesBlock line = true) : start.Entered n s' := by
  obtain ⟨tracker, c'⟩ := s'
  obtain ⟨hline, htracker⟩ := checkLine_eq_ok.1 hstep
  cases htracker
  have hdistinct : c'.Distinct := by
    have hstable := ScopeChain.stable_distinct.checkLine h.distinct line
    rwa [hline] at hstable
  refine ⟨h.mode, h.depth, ?_, hdistinct⟩
  rcases hn with hpos | hcloses
  · obtain ⟨m, rfl⟩ := Nat.exists_eq_add_one.2 hpos
    rcases ScopeChain.checkLine_ok hline with ⟨-, -, rfl⟩ | ⟨st, -, -, -, hlegal, rfl⟩
    · exact h.inside
    · exact h.inside.effect h.distinct hlegal
  · cases hline.symm.trans (ScopeChain.checkLine_of_closesBlock hcloses s.scopes)
    exact h.inside

theorem step (h : start.Entered n s) (hstep : acceptThenCheck line s = .ok (change, kind?) s')
    (hn : 0 < n ∨ opensBlock line = true) : ∃ n', start.Entered n' s' := by
  obtain ⟨s₁, haccept, hcheck⟩ := acceptThenCheck_eq_ok.1 hstep
  obtain ⟨n', hentered, hn'⟩ := h.accept haccept hn
  exact ⟨n', hentered.checkLine hcheck hn'⟩

/-- **Lines that lead out of the blocks that have been entered**, with the last of them for the first time, lead back to
the scopes from before. -/
theorem run {lines : List (List Char)} {answers : List (DepthChange × Option StatementKind)} (h : start.Entered n s)
    (hn : 0 < n ∨ ∃ first rest, lines = first :: rest ∧ opensBlock first = true)
    (hrun : lines.mapM acceptThenCheck s = .ok answers s') (hdepth : s'.tracker.depth = start.tracker.depth)
    (hfirst : ∀ k < lines.length, 0 < k → ∀ answers₁ s₁, (lines.take k).mapM acceptThenCheck s = .ok answers₁ s₁ →
      s₁.tracker.depth ≠ start.tracker.depth) :
    start.Entered 0 s' := by
  induction lines generalizing n s answers with
  | nil =>
    obtain ⟨-, rfl⟩ := mapM_nil_eq_ok.1 hrun
    have hpos : 0 < n := hn.resolve_right fun ⟨_, _, h, _⟩ => List.cons_ne_nil _ _ h.symm
    have hcount := h.depth
    omega
  | cons line lines ih =>
    have hline : 0 < n ∨ opensBlock line = true := by
      rcases hn with hpos | ⟨first, rest, heq, hopens⟩
      · exact .inl hpos
      · cases heq
        exact .inr hopens
    obtain ⟨⟨change, kind?⟩, s₁, answers₁, hstep, hrest, rfl⟩ := mapM_cons_eq_ok.1 hrun
    obtain ⟨n', hentered⟩ := h.step hstep hline
    cases n' with
    | zero =>
      -- The depth is that of the start, so this was the last line.
      have hnil : lines = [] := by
        by_contra hne
        have hone : [line].mapM acceptThenCheck s = .ok [(change, kind?)] s₁ :=
          mapM_cons_eq_ok.2 ⟨_, s₁, [], hstep, mapM_nil_eq_ok.2 ⟨rfl, rfl⟩, rfl⟩
        exact hfirst 1 (Nat.succ_lt_succ (List.length_pos_iff.2 hne)) Nat.one_pos _ s₁ hone hentered.depth
      subst hnil
      obtain ⟨-, rfl⟩ := mapM_nil_eq_ok.1 hrest
      exact hentered
    | succ n' =>
      refine ih hentered (.inl (Nat.succ_pos n')) hrest fun k hk _ answers₂ s₂ hrun₂ => ?_
      refine hfirst (k + 1) (Nat.succ_lt_succ hk) (Nat.succ_pos k) ((change, kind?) :: answers₂) s₂ ?_
      exact mapM_cons_eq_ok.2 ⟨_, s₁, answers₂, hstep, hrun₂, rfl⟩

end Tracked.Entered

/-- **A block leaves no trace but values.** Lines are taken into account and checked one after the other, in scopes that
have been reached by any calls, along with a tracker that switches scopes. All steps succeed, the first line opens a
block, and with the last line the tracker is back at the depth it started at, for the first time. Then the tracker is
as it was, and so are the scopes: the same ones are open, with the same names in the same order, the same types, the
same finals and the same methods. Variables that are not final may have been given a value. -/
theorem block_leaves_values {calls : List TreeCall} {start s : Tracked} {first : List Char} {rest : List (List Char)}
    {answers : List (DepthChange × Option StatementKind)}
    (hreached : calls.foldlM TreeCall.onChain .empty = some start.scopes) (hmode : start.tracker.mode = .switching)
    (hopens : opensBlock first = true)
    (hrun : (first :: rest).mapM TrackedM.acceptThenCheck start = .ok answers s)
    (hdepth : s.tracker.depth = start.tracker.depth)
    (hfirst : ∀ k < (first :: rest).length, 0 < k → ∀ answers₁ s₁,
      ((first :: rest).take k).mapM TrackedM.acceptThenCheck start = .ok answers₁ s₁ →
      s₁.tracker.depth ≠ start.tracker.depth) :
    s.tracker = start.tracker ∧ start.scopes.Related Variable.KeptOrGiven s.scopes := by
  have hentered : start.Entered 0 start := {
    mode := hmode
    depth := rfl
    inside := .here (.refl Variable.KeptOrGiven.refl _)
    distinct := ScopeChain.distinct_of_calls ScopeChain.distinct_empty hreached }
  obtain ⟨hmode', hdepth', hinside, -⟩ := hentered.run (.inr ⟨first, rest, rfl, hopens⟩) hrun hdepth hfirst
  constructor
  · obtain ⟨⟨mode, depth⟩, scopes⟩ := s
    obtain ⟨⟨mode₀, depth₀⟩, scopes₀⟩ := start
    cases hmode
    cases hmode'
    cases hdepth
    rfl
  · cases hinside with
    | here hrelated => exact hrelated

/-- A variable of the surrounding block is given a value, and then another variable of its name is declared. -/
theorem block_leaves_values_around_shadowing :
    let before : ScopeChain := .block { vars := ⟨[("x", ⟨.int, false, false⟩)]⟩ } .empty
    let behind : ScopeChain := .block { vars := ⟨[("x", ⟨.int, false, true⟩)]⟩ } .empty
    let lines := ["if (true) \x7b".toList, "x = 3;".toList, "double x = 1.5, y = x;".toList, "\x7d".toList]
    [TreeCall.push, .parse "int x;".toList].foldlM TreeCall.onChain .empty = some before ∧
    (∃ answers, lines.mapM TrackedM.acceptThenCheck ⟨⟨.switching, 1⟩, before⟩ =
      .ok answers ⟨⟨.switching, 1⟩, behind⟩) ∧
    before.Related Variable.KeptOrGiven behind := by
  intro before behind lines
  have hreached : [TreeCall.push, .parse "int x;".toList].foldlM TreeCall.onChain .empty = some before := by
    decide +kernel
  have hrun : lines.mapM TrackedM.acceptThenCheck ⟨⟨.switching, 1⟩, before⟩ =
      .ok [(.opened, some .conditional), (.unchanged, some .assignment), (.unchanged, some .variableDeclaration),
        (.closed, some .closeBlock)] ⟨⟨.switching, 1⟩, behind⟩ :=
    eq_ok_iff.2 ⟨by decide +kernel, by decide +kernel⟩
  have hinside : ∀ k < lines.length, 0 < k → depthAfter 1 (lines.take k) ≠ some 1 := by decide +kernel
  obtain ⟨-, hrelated⟩ := block_leaves_values hreached rfl (by decide +kernel) hrun rfl
    fun k hk hpos answers s h hdepth =>
      hinside k hk hpos ((TrackedM.depthAfter_of_run h).trans (congrArg some hdepth))
  exact ⟨hreached, ⟨_, hrun⟩, hrelated⟩

end BlockCheck
