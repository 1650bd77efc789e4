import BlockCheck.Line.Grammar
import BlockCheck.Proofs.Ensures

/-!
# What a step of checking a line ensures

One lemma for each kind of single step of which the rules are made: steps of the cursor, checks that change nothing,
changes of the scopes, and failures at the next token.
-/

namespace BlockCheck.LineM

open Step

variable {α : Type} {I : LineState → Prop} {E : LineFault → LineState → Prop} {R : α → Prop}

theorem ensures_when {condition : Bool} {m : LineM Unit}
    (hm : condition = true → Ensures I E m fun _ => True) : Ensures I E (LineM.when condition m) fun _ => True := by
  cases condition
  · exact ensures_pure trivial
  · exact hm rfl

theorem ensures_ofCursor {m : CursorM α}
    (hok : ∀ s a cursor, I s → m s.cursor = .ok a cursor → R a ∧ I { s with cursor })
    (herror : ∀ s f cursor, I s → m s.cursor = .error f cursor → E (.ofSyntax f) { s with cursor }) :
    Ensures I E (liftM m : LineM α) R := by
  intro s hs
  have hlift : (liftM m : LineM α) s = ofCursor m s := rfl
  rw [hlift, ofCursor]
  cases hstep : m s.cursor with
  | ok a cursor => exact hok s a cursor hs hstep
  | error f cursor => exact herror s f cursor hs hstep

theorem ensures_ofRule {e : Except RuleFault α} (hok : ∀ a, e = .ok a → R a)
    (herror : ∀ f s, e = .error f → I s → E (.ofRule f) s) : Ensures I E (liftM e : LineM α) R := by
  intro s hs
  cases e with
  | ok a => exact ⟨hok a rfl, hs⟩
  | error f => exact herror f s rfl hs

theorem ensures_ofSyntax {e : Except SyntaxFault α} (hok : ∀ a, e = .ok a → R a)
    (herror : ∀ f s, e = .error f → I s → E (.ofSyntax f) s) : Ensures I E (liftM e : LineM α) R := by
  intro s hs
  cases e with
  | ok a => exact ⟨hok a rfl, hs⟩
  | error f => exact herror f s rfl hs

theorem ensures_changeScopes {change : ScopeChain → Except SymbolFault ScopeChain} {fault : RuleFault}
    (hok : ∀ s scopes, I s → change s.scopes = .ok scopes → I { s with scopes })
    (herror : ∀ s, I s → E (.ofRule fault) s) : Ensures I E (changeScopes change fault) fun _ => True := by
  intro s hs
  unfold changeScopes
  cases hchange : change s.scopes with
  | ok scopes => exact ⟨trivial, hok s scopes hs hchange⟩
  | error e => exact herror s hs

theorem ensures_unexpected {expected : Expected}
    (h : ∀ s, I s → ∀ s', I s' → E (.ofSyntax (s.cursor.unexpected expected)) s') :
    Ensures I E (unexpected expected : LineM α) R :=
  ensures_get_bind fun s hs => ensures_throw (h s hs)

end BlockCheck.LineM
