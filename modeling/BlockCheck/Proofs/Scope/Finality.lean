import BlockCheck.Proofs.Line.FinalVariables

/-!
# Final variables over whole runs

Several trees of scopes are worked on in turn, starting with a single one that is empty: lines are checked in them,
right or wrong, blocks are opened and closed, parameters are declared, and a tree may be started from the global
declarations of another one (`TreeStep`). One step does little to one tree: as far as scopes stay open, their final
variables stay where they are (`TreeStep.variableIn?_edit`), and they are all initialized (`TreeStep.settled_edit`). So
this holds of every run (`TreeStep.settled_run`, `TreeStep.variableAt_run`), and no assignment to a final variable is
ever accepted (`finals_never_change`).
-/

namespace BlockCheck

/-! ## Scopes by number -/

namespace ScopeChain

variable {c c' outer : ScopeChain} {s : Scope} {n : Nat} {name : String} {v : Variable}

theorem le_last_of_variableIn? (h : c.variableIn? n name = some v) : n ≤ c.last := by
  obtain ⟨inner, hinner, -⟩ := Option.bind_eq_some_iff.1 h
  have hopen := c.isSome_outward? n
  rw [hinner] at hopen
  exact of_decide_eq_true hopen.symm

/-- What the scopes around a block declare does not depend on the block. -/
theorem variableIn?_block (hn : n ≤ outer.last) : (block s outer).variableIn? n name = outer.variableIn? n name := by
  rw [variableIn?, outward?, if_neg (by omega)]
  rfl

/-- What is done in one scope is done to the chain. -/
theorem safelyBecomes_atScope {f : ScopeChain → Except SymbolFault ScopeChain} (hc : c.Settled)
    (hf : ∀ {c c' : ScopeChain}, c.Settled → f c = .ok c' → c.SafelyBecomes c') (h : c.atScope n f = some (.ok c')) :
    c.SafelyBecomes c' := by
  induction c generalizing c' with
  | global s =>
    obtain ⟨-, hok⟩ := Option.ite_none_right_eq_some.1 h
    exact hf hc (Option.some.inj hok)
  | block s outer ih =>
    rw [atScope] at h
    by_cases hn : n = outer.last + 1
    · rw [if_pos hn] at h
      exact hf hc (Option.some.inj h)
    · rw [if_neg hn] at h
      obtain ⟨result, hresult, hmap⟩ := Option.map_eq_some_iff.1 h
      cases result with
      | error e => cases hmap
      | ok outer' =>
        cases hmap
        obtain ⟨hs, houter⟩ := settled_block.1 hc
        obtain ⟨hkeeps, hsettled⟩ := ih houter hresult
        exact ⟨.block (.refl _) hkeeps, settled_block.2 ⟨hs, hsettled⟩⟩

theorem settled_push (hc : c.Settled) : c.push.Settled := settled_block.2 ⟨by simp [SymbolTable.Settled], hc⟩

theorem settled_pop (hc : c.Settled) : (c.pop?.getD c).Settled := by
  cases c with
  | global s => exact hc
  | block s outer => exact (settled_block.1 hc).2

theorem settled_restart (hc : c.Settled) : c.restart.Settled := by
  induction c with
  | global s => exact hc
  | block s outer ih => exact ih (settled_block.1 hc).2

end ScopeChain

/-! ## Steps on trees -/

/-- What is done to one of several trees of scopes. Trees are told by their numbers, and so are scopes. -/
inductive TreeStep
  /-- A line is checked in the innermost scope. -/
  | parse (tree : Nat) (line : List Char)
  | push (tree : Nat)
  | pop (tree : Nat)
  /-- A tree of its own is started from the global declarations. -/
  | duplicate (tree : Nat)
  /-- A parameter is declared in an open scope. -/
  | seed (tree scope : Nat) (name : String) (type : ValueType) (isFinal : Bool)

namespace TreeStep

def tree : TreeStep → Nat
  | parse tree _ | push tree | pop tree | duplicate tree | seed tree _ _ _ _ => tree

/-- The tree after a step on it. What a line has changed before it fails stays changed; the global scope is never
closed, and a parameter that cannot be declared changes nothing. -/
def edit : TreeStep → ScopeChain → ScopeChain
  | parse _ line, c => (c.checkLine line).2
  | push _, c => c.push
  | pop _, c => c.pop?.getD c
  | duplicate _, c => c
  | seed _ scope name type isFinal, c =>
    match c.atScope scope (·.addVariable name (.parameter type isFinal)) with
    | some (.ok c') => c'
    | _ => c

/-- The tree that a step starts. -/
def started (trees : List ScopeChain) : TreeStep → List ScopeChain
  | duplicate tree => (trees[tree]?.map ScopeChain.restart).toList
  | _ => []

/-- All trees after a step on one of them. -/
def apply (trees : List ScopeChain) (step : TreeStep) : List ScopeChain :=
  trees.modify step.tree step.edit ++ step.started trees

/-- All trees after some steps. -/
def run (trees : List ScopeChain) (steps : List TreeStep) : List ScopeChain := steps.foldl apply trees

/-- Scope `n` of a tree is open. -/
def IsOpen (trees : List ScopeChain) (tree n : Nat) : Prop := ∃ c, trees[tree]? = some c ∧ n ≤ c.last

/-- The variable of the name that scope `n` of a tree declares. -/
def variableAt? (trees : List ScopeChain) (tree n : Nat) (name : String) : Option Variable :=
  trees[tree]?.bind fun c => c.variableIn? n name

/-! ### One step -/

section Edit

variable {c : ScopeChain} {step : TreeStep} {n : Nat} {name : String} {v : Variable}

theorem safelyBecomes_seed {c c' : ScopeChain} {type : ValueType} {isFinal : Bool} (hc : c.Settled)
    (h : c.atScope n (·.addVariable name (.parameter type isFinal)) = some (.ok c')) : c.SafelyBecomes c' :=
  ScopeChain.safelyBecomes_atScope hc (fun hc h => ScopeChain.safelyBecomes_addVariable hc (fun _ => rfl) h) h

theorem settled_edit (hc : c.Settled) : (step.edit c).Settled := by
  cases step with
  | parse _ line => exact (ScopeChain.safelyBecomes_checkLine hc line).2
  | push _ => exact ScopeChain.settled_push hc
  | pop _ => exact ScopeChain.settled_pop hc
  | duplicate _ => exact hc
  | seed _ scope name type isFinal =>
    rw [edit]
    split
    next c' h => exact (safelyBecomes_seed hc h).2
    next => exact hc

/-- **A step keeps the final variables of the scopes that stay open.** -/
theorem variableIn?_edit (hc : c.Settled) (hopen : n ≤ (step.edit c).last) (hv : c.variableIn? n name = some v)
    (hfinal : v.isFinal = true) : (step.edit c).variableIn? n name = some v := by
  cases step with
  | parse _ line => exact (ScopeChain.safelyBecomes_checkLine hc line).1.variableIn? hv hfinal
  | push _ =>
    rw [← hv]
    exact ScopeChain.variableIn?_block (ScopeChain.le_last_of_variableIn? hv)
  | pop _ =>
    cases c with
    | global s => exact hv
    | block s outer =>
      rw [← hv]
      exact (ScopeChain.variableIn?_block hopen).symm
  | duplicate _ => exact hv
  | seed _ scope other type isFinal =>
    rw [edit]
    split
    next c' h => exact (safelyBecomes_seed hc h).1.variableIn? hv hfinal
    next => exact hv

end Edit

section Trees

variable {trees : List ScopeChain} {step : TreeStep} {steps : List TreeStep} {c : ScopeChain} {tree n : Nat}
  {name : String} {v : Variable}

/-- A step changes no tree but its own. -/
theorem getElem?_apply (h : trees[tree]? = some c) :
    (apply trees step)[tree]? = some (if step.tree = tree then step.edit c else c) := by
  obtain ⟨hlt, -⟩ := List.getElem?_eq_some_iff.1 h
  rw [apply, List.getElem?_append_left (by rwa [List.length_modify]), List.getElem?_modify, h]
  split <;> rfl

theorem settled_apply (htrees : ∀ c ∈ trees, c.Settled) : ∀ c ∈ apply trees step, c.Settled := by
  intro c hc
  rcases List.mem_append.1 hc with hc | hc
  · obtain ⟨k, hk⟩ := List.getElem?_of_mem hc
    rw [List.getElem?_modify, Option.map_eq_map, Option.map_eq_some_iff] at hk
    obtain ⟨d, hd, rfl⟩ := hk
    have hsettled := htrees d (List.mem_of_getElem? hd)
    split
    · exact settled_edit hsettled
    · exact hsettled
  · cases step with
    | duplicate tree =>
      obtain ⟨d, hd, rfl⟩ := Option.map_eq_some_iff.1 (Option.mem_toList.1 hc)
      exact ScopeChain.settled_restart (htrees d (List.mem_of_getElem? hd))
    | _ => cases hc

/-! ### Whole runs -/

/-- **All final variables are initialized, always.** -/
theorem settled_run (htrees : ∀ c ∈ trees, c.Settled) (steps : List TreeStep) : ∀ c ∈ run trees steps, c.Settled := by
  induction steps generalizing trees with
  | nil => exact htrees
  | cons step steps ih => exact ih (settled_apply htrees)

/-- **A final variable stays as it is while its scope is open.** -/
theorem variableAt_run (htrees : ∀ c ∈ trees, c.Settled)
    (hopen : ∀ m ≤ steps.length, IsOpen (run trees (steps.take m)) tree n)
    (hv : variableAt? trees tree n name = some v) (hfinal : v.isFinal = true) :
    variableAt? (run trees steps) tree n name = some v := by
  induction steps generalizing trees with
  | nil => exact hv
  | cons step steps ih =>
    refine ih (settled_apply htrees) (fun m hm => hopen (m + 1) (Nat.succ_le_succ hm)) ?_
    obtain ⟨c, hc, hv⟩ := Option.bind_eq_some_iff.1 hv
    obtain ⟨c', hc', hlast⟩ := hopen 1 (by simp)
    have hc'' : (apply trees step)[tree]? = some c' := hc'
    rw [getElem?_apply hc, Option.some.injEq] at hc''
    rw [variableAt?, getElem?_apply hc, hc'', Option.bind_some]
    by_cases htree : step.tree = tree
    · rw [if_pos htree] at hc''
      subst hc''
      exact variableIn?_edit (htrees c (List.mem_of_getElem? hc)) hlast hv hfinal
    · rw [if_neg htree] at hc''
      subst hc''
      exact hv

end Trees

end TreeStep

/-! ## Finality -/

/-- **Final variables never change.** In all trees that any steps make of an empty one, every final variable is
initialized. No later steps change or remove its entry as long as its scope is open. And a line that starts with the
name of a visible final variable and the assignment sign, with something behind it that can be read or nothing, fails
for this reason and leaves the scopes as they are. -/
theorem finals_never_change (steps : List TreeStep) :
    (∀ c ∈ TreeStep.run [.empty] steps, ∀ scope ∈ c.toList, ∀ entry ∈ scope.vars.entries,
        entry.2.isFinal = true → entry.2.isInitialized = true) ∧
      (∀ tree n name v later,
        TreeStep.variableAt? (TreeStep.run [.empty] steps) tree n name = some v → v.isFinal = true →
        (∀ m ≤ later.length, TreeStep.IsOpen (TreeStep.run [.empty] (steps ++ later.take m)) tree n) →
          TreeStep.variableAt? (TreeStep.run [.empty] (steps ++ later)) tree n name = some v) ∧
      ∀ c ∈ TreeStep.run [.empty] steps, ∀ line target sign rest v, (readLine line).tokens = target :: sign :: rest →
        target.category = .identifier → sign.category = .assign → (rest = [] → (readLine line).failure = none) →
        c.visibleVariable? target.name = some v → v.isFinal = true →
          c.checkLine line = (.error (.ofRule (.cannotAssignFinal target.name target.span)), c) := by
  have hsettled : ∀ c ∈ TreeStep.run [.empty] steps, c.Settled :=
    TreeStep.settled_run (List.forall_mem_singleton.2 ScopeChain.settled_empty) steps
  have happend : ∀ later, TreeStep.run [.empty] (steps ++ later) = TreeStep.run (TreeStep.run [.empty] steps) later :=
    fun later => List.foldl_append
  refine ⟨hsettled, ?_, ?_⟩
  · intro tree n name v later hv hfinal hopen
    simp only [happend] at hopen ⊢
    exact TreeStep.variableAt_run hsettled hopen hv hfinal
  · intro c _ line target sign rest v htokens htarget hsign hrest hv hfinal
    have hread : readLine line = (Reading.cons sign ⟨rest, (readLine line).failure⟩).cons target := by
      rw [Reading.cons, Reading.cons, ← htokens]
    exact ScopeChain.checkLine_of_final hread htarget hsign hrest hv hfinal

/-- A final global variable stays as it is while a block is opened, lines are checked in it and it is closed, and in the
block it cannot be assigned to, not even wrongly. -/
theorem finals_never_change_around_block : ∃ (steps later : List TreeStep) (c : ScopeChain) (v : Variable),
    c ∈ TreeStep.run [.empty] steps ∧ v.isFinal = true ∧
      TreeStep.variableAt? (TreeStep.run [.empty] (steps ++ later)) 0 0 "a" = some v ∧
      c.checkLine " a = true b".toList = (.error (.ofRule (.cannotAssignFinal "a" ⟨1, 1⟩)), c) := by
  let steps : List TreeStep := [.parse 0 "final int a = 1;".toList, .push 0]
  let later : List TreeStep := [.parse 0 "a = 2;".toList, .parse 0 "int a = 3, b = c;".toList, .pop 0]
  let v : Variable := ⟨.int, true, true⟩
  let c : ScopeChain := .block {} (.global { vars := ⟨[("a", v)]⟩ })
  have hmem : c ∈ TreeStep.run [.empty] steps := by decide +kernel
  have hopen : ∀ m ≤ later.length, TreeStep.IsOpen (TreeStep.run [.empty] (steps ++ later.take m)) 0 0 := by
    intro m hm
    have hsome : (TreeStep.run [.empty] (steps ++ later.take m))[0]?.isSome = true := by
      revert m
      decide +kernel
    obtain ⟨d, hd⟩ := Option.isSome_iff_exists.1 hsome
    exact ⟨d, hd, Nat.zero_le _⟩
  obtain ⟨-, hkept, hfails⟩ := finals_never_change steps
  have htokens : (readLine " a = true b".toList).tokens =
      [⟨.identifier, some "a", ⟨1, 1⟩⟩, ⟨.assign, none, ⟨3, 1⟩⟩, ⟨.kwTrue, none, ⟨5, 4⟩⟩,
        ⟨.identifier, some "b", ⟨10, 1⟩⟩] := by
    decide +kernel
  exact ⟨steps, later, c, v, hmem, rfl, hkept 0 0 "a" v later (by decide +kernel) rfl hopen,
    hfails c hmem _ _ _ _ v htokens rfl rfl (nomatch ·) (by decide +kernel) rfl⟩

end BlockCheck
