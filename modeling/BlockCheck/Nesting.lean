import BlockCheck.Scope.Chain
import BlockCheck.Token.Scanner

/-!
# Block nesting

Blocks are told from the characters of a line alone: a line opens a block if its last character is an opening brace,
and closes one if a closing brace is all it holds, blanks at the ends apart (`opensBlock`, `closesBlock`). No line does
both (`not_opensBlock_of_closesBlock`). A `Tracker` counts the open blocks line by line and may open and close scopes
along with them.
-/

namespace BlockCheck

open Text (skipBlanks trim trimEnd isBlank)

/-- The line ends with an opening brace and is no comment. Before the brace it has no newline. -/
def opensBlock (line : List Char) : Bool :=
  !isComment line &&
    match skipBlanks line.reverse with
    | '\x7b' :: before => !before.contains '\n'
    | _ => false

/-- The line is a closing brace. -/
def closesBlock (line : List Char) : Bool := !isComment line && trim line == ['\x7d']

/-- A closing brace alone on a line is the last character of the line. -/
theorem skipBlanks_reverse_of_trim {line : List Char} {c : Char} (h : trim line = [c]) :
    ∃ blanks, skipBlanks line.reverse = c :: blanks := by
  have hc : skipBlanks (skipBlanks line).reverse = [c] := by
    simpa [trim, trimEnd] using congrArg List.reverse h
  refine ⟨(line.takeWhile isBlank).reverse, ?_⟩
  conv => lhs; rw [← List.takeWhile_append_dropWhile (p := isBlank) (l := line), List.reverse_append]
  simp only [skipBlanks] at hc ⊢
  rw [List.dropWhile_append, if_neg (by simp [hc]), hc]
  rfl

/-- No line both opens and closes a block. -/
theorem not_opensBlock_of_closesBlock {line : List Char} (h : closesBlock line = true) : opensBlock line = false := by
  simp only [closesBlock, Bool.and_eq_true, beq_iff_eq] at h
  obtain ⟨blanks, hb⟩ := skipBlanks_reverse_of_trim h.2
  simp [opensBlock, hb]

/-- Faults in the block structure of a whole program. -/
inductive BlockFault
  | mismatchedBraces
  /-- The parameters of the method cannot be declared in its body. -/
  | parametersNotInScope (method : String)
  /-- The last statement of the method is not `return;`. -/
  | missingReturn (method : String)
  deriving DecidableEq, Repr

def BlockFault.diagnostic : BlockFault → Diagnostic
  | .mismatchedBraces =>
    { message := "Mismatched braces"
      code := "sjava::structure::mismatched_braces"
      help := some "Every line opening a block needs exactly one matching closing brace line"
      labels := [] }
  | .parametersNotInScope method =>
    { message := "Could not bring the parameters of " ++ quoted method ++ " into scope"
      code := "sjava::structure::failed_method_scope_initialization"
      help := none
      labels := [] }
  | .missingReturn method =>
    { message := "Method " ++ quoted method ++ " must end with `return;` right before its closing brace"
      code := "sjava::structure::missing_return"
      help := none
      labels := [] }

/-! ## Tracking -/

/-- Whether scopes follow the blocks. -/
inductive TrackerMode
  | countOnly
  /-- A scope is opened and closed with each block. -/
  | switching
  deriving DecidableEq, Repr

/-- What a line does to the nesting. -/
inductive DepthChange
  | opened
  | closed
  | unchanged
  deriving DecidableEq, Repr

structure Tracker where
  mode : TrackerMode
  /-- The number of open blocks. -/
  depth : Nat := 0
  deriving DecidableEq, Repr

namespace Tracker

def isGlobal (t : Tracker) : Bool := t.depth == 0

/-- The scopes after a block has been opened. -/
def openScope (t : Tracker) (c : ScopeChain) : ScopeChain :=
  match t.mode with
  | .countOnly => c
  | .switching => c.push

/-- The scopes after a block has been closed. -/
def closeScope (t : Tracker) (c : ScopeChain) : ScopeChain :=
  match t.mode with
  | .countOnly => c
  | .switching => c.pop?.getD c

/-- Takes a line into account. A closing line needs an open block. -/
def accept (t : Tracker) (line : List Char) (c : ScopeChain) :
    Except BlockFault (DepthChange × Tracker × ScopeChain) :=
  if opensBlock line then .ok (.opened, { t with depth := t.depth + 1 }, t.openScope c)
  else if closesBlock line then
    match t.depth with
    | 0 => .error .mismatchedBraces
    | depth + 1 => .ok (.closed, { t with depth }, t.closeScope c)
  else .ok (.unchanged, t, c)

end Tracker

end BlockCheck
