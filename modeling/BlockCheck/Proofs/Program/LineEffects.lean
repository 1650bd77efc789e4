import BlockCheck.Proofs.Line.Braces
import BlockCheck.Proofs.Program.BlockTree

/-!
# What the lines of a program do

What a line of each kind does to the scopes it stands in: a condition and a closing brace leave them as they are, and
do not depend on whether the block has been opened yet (`checkLine_push_conditional`, `checkLine_closeBlock_iff`); in
the global scope a declaration of variables and an assignment leave the methods as they are
(`checkLine_global_of_variables`), and the first line of a method adds one (`checkLine_global_methodDeclaration`).
-/

namespace BlockCheck

/-! ## Blank and closing lines -/

theorem isBlankLine_iff {line : List Char} :
    isBlankLine line = true ↔ isComment line = true ∨ Text.allBlank line = true := by
  rw [isBlankLine, Bool.or_eq_true]

theorem no_braces_of_blank {line : List Char} (h : isBlankLine line = true) :
    opensBlock line = false ∧ closesBlock line = false :=
  no_braces_of_readLine_empty (readLine_eq_empty_iff.2 (isBlankLine_iff.1 h))

/-- A closing brace alone is no comment, so closing lines are those that close a block. -/
theorem closesBlock_eq (line : List Char) : closesBlock line = isClosingLine line := by
  cases hclosing : isClosingLine line with
  | false =>
    rw [closesBlock]
    exact (congrArg _ hclosing).trans (Bool.and_false _)
  | true =>
    obtain ⟨blanks, hskip, -⟩ := (Text.trim_eq_singleton_iff rfl).1 (beq_iff_eq.1 hclosing)
    have hcomment : isComment line = false := by
      by_contra h
      unfold isComment at h
      split at h
      · cases hskip
      · exact h rfl
    rw [closesBlock, hcomment]
    exact hclosing

namespace ScopeChain

variable {c c' : ScopeChain} {line : List Char}

theorem checkLine_eq_ok_none : c.checkLine line = (.ok none, c') ↔ isBlankLine line = true ∧ c' = c := by
  rw [checkLine_eq_ok_none_iff, isBlankLine_iff]

theorem takeLine_eq_some {kinds : List StatementKind} :
    c.takeLine kinds line = some c' ↔ ∃ kind ∈ kinds, c.checkLine line = (.ok (some kind), c') := by
  unfold takeLine
  constructor
  · intro h
    split at h
    · next kind c₁ hline =>
      split at h
      · next hkind =>
        cases h
        exact ⟨kind, hkind, hline⟩
      · cases h
    · cases h
  · rintro ⟨kind, hkind, hline⟩
    rw [hline]
    exact if_pos hkind

/-- What is accepted at a place is what is accepted and may stand there. -/
theorem checkLineAt_eq_ok {placement : Placement} {kind? : Option StatementKind} :
    c.checkLineAt placement line = .ok (kind?, c') ↔
      c.checkLine line = (.ok kind?, c') ∧ ∀ kind, kind? = some kind → kind ∈ placement.allowed := by
  constructor
  · intro h
    unfold checkLineAt at h
    split at h
    · cases h
    · next c₁ hline =>
      cases h
      exact ⟨hline, fun kind hkind => (nomatch hkind)⟩
    · next kind c₁ hline =>
      unfold StatementKind.requireAllowed at h
      by_cases hallowed : kind ∈ placement.allowed
      · rw [if_pos hallowed] at h
        cases h
        exact ⟨hline, fun kind' hkind => Option.some.inj hkind ▸ hallowed⟩
      · rw [if_neg hallowed] at h
        cases h
  · rintro ⟨hline, hallowed⟩
    unfold checkLineAt
    rw [hline]
    cases kind? with
    | none => rfl
    | some kind => simp only [StatementKind.requireAllowed, if_pos (hallowed kind rfl)]

theorem checkLineAt_of_blank (h : isBlankLine line = true) (c : ScopeChain) (placement : Placement) :
    c.checkLineAt placement line = .ok (none, c) :=
  checkLineAt_eq_ok.2 ⟨checkLine_eq_ok_none.2 ⟨h, rfl⟩, nofun⟩

/-! ## Blocks -/

/-- An empty block hides no name. -/
theorem fits_push {type : ValueType} {value : Token} : c.push.Fits type value ↔ c.Fits type value := Iff.rfl

/-- A condition is checked alike before and after its block is opened. -/
theorem checkLine_push_conditional : c.push.checkLine line = (.ok (some .conditional), c') ↔
    c' = c.push ∧ c.checkLine line = (.ok (some .conditional), c) := by
  rw [checkLine_eq_ok_some_iff, checkLine_eq_ok_some_iff]
  constructor
  · rintro ⟨st, hst, hfailure, hw, hlegal, rfl⟩
    cases st with
    | conditional operands => exact ⟨rfl, _, rfl, hfailure, hw, fun v hv => fits_push.1 (hlegal v hv), rfl⟩
    | _ => cases hst
  · rintro ⟨rfl, st, hst, hfailure, hw, hlegal, -⟩
    cases st with
    | conditional operands => exact ⟨_, rfl, hfailure, hw, fun v hv => fits_push.2 (hlegal v hv), rfl⟩
    | _ => cases hst

/-- A closing brace is accepted everywhere. -/
theorem checkLine_closeBlock_iff :
    c.checkLine line = (.ok (some .closeBlock), c') ↔ isClosingLine line = true ∧ c' = c := by
  rw [checkLine_eq_ok_some_iff, ← closesBlock_eq, closesBlock_iff]
  constructor
  · rintro ⟨st, hst, hfailure, hw, -, rfl⟩
    obtain ⟨t, htokens, hbrace⟩ := hw.alone.2 hst
    refine ⟨⟨t, ?_, hbrace⟩, ?_⟩
    · rw [← htokens, ← hfailure]
    · cases st with
      | closeBlock => rfl
      | _ => cases hst
  · rintro ⟨⟨t, hread, hbrace⟩, rfl⟩
    rw [hread]
    exact ⟨.closeBlock, rfl, rfl, .closeBlock hbrace, trivial, rfl⟩

/-- A line that closes a block changes nothing in the scopes, wherever it is checked. -/
theorem checkLine_of_closesBlock (h : closesBlock line = true) (c : ScopeChain) :
    c.checkLine line = (.ok (some .closeBlock), c) :=
  checkLine_closeBlock_iff.2 ⟨(closesBlock_eq line).symm.trans h, rfl⟩

/-! ## The global scope -/

/-- Declarations of variables and assignments change no more than the variables of the global scope. -/
theorem checkLine_global_of_variables {s : Scope} {kind : StatementKind}
    (hkind : kind ∈ [StatementKind.variableDeclaration, .assignment])
    (h : (ScopeChain.global s).checkLine line = (.ok (some kind), c')) : ∃ vars, c' = .global { s with vars } := by
  obtain ⟨st, rfl, -, -, -, rfl⟩ := checkLine_eq_ok_some_iff.1 h
  cases st with
  | variableDeclaration isFinal type ds => exact ⟨_, rfl⟩
  | assignment target value => exact ⟨_, rfl⟩
  | _ => simp [StatementTree.kind] at hkind

/-- The first line of a method adds the method, which the line alone determines. -/
theorem checkLine_global_methodDeclaration {s : Scope}
    (h : (ScopeChain.global s).checkLine line = (.ok (some .methodDeclaration), c')) :
    ∃ name m, declaredMethod? line = some m ∧ m.parameters.names.Nodup ∧
      c' = .global { s with methods := ⟨s.methods.entries ++ [(name, m)]⟩ } := by
  obtain ⟨st, hst, hfailure, hw, hlegal, rfl⟩ := checkLine_eq_ok_some_iff.1 h
  cases st with
  | methodDeclaration name ps =>
    obtain ⟨hunderscore, hnames, -⟩ := hlegal
    have halone : ScopeChain.empty.checkLine line =
        (.ok (some .methodDeclaration), ScopeChain.empty.withMethod name.name ⟨⟨ps.map Parameter.entry⟩⟩) :=
      checkLine_of_legal hfailure hw ⟨hunderscore, hnames, rfl⟩
    refine ⟨name.name, ⟨⟨ps.map Parameter.entry⟩⟩, ?_, ?_, rfl⟩
    · rw [declaredMethod?, takeLine_eq_some.2 ⟨_, List.mem_singleton.2 rfl, halone⟩]
      rfl
    · rw [SymbolTable.names, List.map_map]
      exact hnames
  | _ => cases hst

end ScopeChain

end BlockCheck
