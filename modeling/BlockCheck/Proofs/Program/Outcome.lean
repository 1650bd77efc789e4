import BlockCheck.Program.Log

/-!
# Outcomes of sequences

A computation in two steps succeeds if both do (`bind_eq_ok`), and otherwise fails as the first of them that fails
(`bind_eq_error`).
-/

namespace BlockCheck

section Outcomes

variable {ε ε' α β : Type} {x : Except ε α} {f : α → Except ε β}

theorem bind_eq_ok {b : β} : x.bind f = .ok b ↔ ∃ a, x = .ok a ∧ f a = .ok b := by
  cases x with
  | error e => simp [Except.bind]
  | ok a => simp [Except.bind]

theorem bind_eq_error {e : ε} : x.bind f = .error e ↔ x = .error e ∨ ∃ a, x = .ok a ∧ f a = .error e := by
  cases x with
  | error e => simp [Except.bind]
  | ok a => simp [Except.bind]

theorem mapError_eq_ok {g : ε → ε'} {a : α} : x.mapError g = .ok a ↔ x = .ok a := by
  cases x with
  | error e => exact ⟨nofun, nofun⟩
  | ok a => exact ⟨fun h => congrArg _ (Except.ok.inj h), fun h => congrArg _ (Except.ok.inj h)⟩

theorem mapError_eq_error {g : ε → ε'} {e' : ε'} : x.mapError g = .error e' ↔ ∃ e, x = .error e ∧ g e = e' := by
  cases x with
  | error e => exact ⟨fun h => ⟨e, rfl, Except.error.inj h⟩, fun ⟨_, h, hg⟩ => Except.error.inj h ▸ congrArg _ hg⟩
  | ok a => exact ⟨nofun, fun ⟨_, h, _⟩ => (nomatch h)⟩

end Outcomes

end BlockCheck
