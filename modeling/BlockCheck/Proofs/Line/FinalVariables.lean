import BlockCheck.Proofs.Line.Failures
import BlockCheck.Proofs.Line.ScopeChanges
import BlockCheck.Proofs.Scope.FinalEntries

/-!
# Lines keep final variables

Whether it is right or wrong, a line keeps the final variables of settled scopes and leaves the scopes settled
(`ScopeChain.safelyBecomes_checkLine`): all three changes that a line can make do so (`ScopeChain.stable_safelyBecomes`),
since a final variable is declared with a value only.

An assignment to a final variable fails as such before its value is read (`ScopeChain.checkLine_of_final`), so it does
not matter what follows the sign.
-/

namespace BlockCheck

/-! ## What a line leaves of final variables -/

namespace ScopeChain

/-- All three changes that a line can make are safe. -/
theorem stable_safelyBecomes (c : ScopeChain) : Stable (SafelyBecomes c) where
  addVariable _ _ _ _ hc hv h := hc.trans (safelyBecomes_addVariable hc.2 hv h)
  addMethod _ _ _ _ hc h := hc.trans (safelyBecomes_addMethod hc.2 h)
  initializing _ name hc := hc.trans (safelyBecomes_initializing hc.2 name)

/-- **No line changes a final variable**, whether it is right or wrong. -/
theorem safelyBecomes_checkLine {c : ScopeChain} (hc : c.Settled) (line : List Char) :
    c.SafelyBecomes (c.checkLine line).2 :=
  (stable_safelyBecomes c).checkLine ⟨.refl c, hc⟩ line

end ScopeChain

/-! ## Assignments to final variables -/

/-- The target is known to be final once the sign behind it has been taken. -/
theorem Grammar.assignment_fails {target sign : Token} {s : LineState} {r : Reading} {v : Variable}
    (hv : s.scopes.visibleVariable? target.name = some v) (hfinal : v.isFinal = true) (h : s.ahead = r.cons sign)
    (hsign : sign.category = .assign) (hr : r.Clear) :
    (assignment target).Fails s (.ofRule (.cannotAssignFinal target.name target.span)) s.scopes := by
  have hdeclared := LineM.ofRule_yields (s := s) (ScopeChain.requireDeclared_eq_ok.2 hv)
  have hnonfinal : v.requireNonFinal target = .error (.cannotAssignFinal target.name target.span) := if_pos hfinal
  show LineM.Fails ((liftM (s.scopes.requireDeclared target) : LineM Variable) >>= _) s _ _
  refine hdeclared.bind_fails fun s₁ hc₁ ha₁ => ?_
  refine (expect_yields (ha₁.trans h) hsign hr).discard.bind_fails fun s₂ hc₂ _ => LineM.Fails.bind ?_
  rw [← hc₁, ← hc₂]
  exact LineM.fails_ofRule hnonfinal

/-! ## Lines -/

namespace ScopeChain

variable {c : ScopeChain} {line : List Char}

/-- **No line assigns to a final variable**: such a line fails for this reason as soon as the sign has been taken, and
it has changed nothing. -/
theorem checkLine_of_final {target sign : Token} {r : Reading} {v : Variable}
    (hread : readLine line = (r.cons sign).cons target) (htarget : target.category = .identifier)
    (hsign : sign.category = .assign) (hr : r.Clear) (hv : c.visibleVariable? target.name = some v)
    (hfinal : v.isFinal = true) :
    c.checkLine line = (.error (.ofRule (.cannotAssignFinal target.name target.span)), c) := by
  have hkind : StatementKind.ofCategories? target.category ((some sign).map Token.category) = some .assignment := by
    rw [Option.map_some, htarget, hsign]
    rfl
  exact checkLine_of_fails hread (Reading.clear_cons sign r) hkind fun s hc ha =>
    hc ▸ Grammar.assignment_fails (hc ▸ hv) hfinal ha hsign hr

end ScopeChain

end BlockCheck
