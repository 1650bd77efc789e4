/-!
# What a step ensures

A step that changes a state and may fail is one of `EStateM`. It `Ensures` something if it keeps an invariant of the
state, gives values with a property, and fails only with faults, and in states, that are as they should be. This says
something of every run of the step: what has been changed before a failure stays changed. There is one lemma for each
way in which steps are put together.
-/

namespace BlockCheck.Step

variable {ε σ α β : Type} {I : σ → Prop} {E : ε → σ → Prop} {R R' : α → Prop} {Q : β → Prop} {m : EStateM ε σ α}

/-- From a state with `I` the step gives a value with `R` and a state with `I`, or a fault and a state with `E`. -/
def Ensures (I : σ → Prop) (E : ε → σ → Prop) (m : EStateM ε σ α) (R : α → Prop) : Prop :=
  ∀ s, I s →
    match m s with
    | .ok a s' => R a ∧ I s'
    | .error f s' => E f s'

theorem Ensures.of_ok (h : Ensures I E m R) {s s' : σ} {a : α} (hs : I s) (hm : m s = .ok a s') : R a ∧ I s' := by
  have h := h s hs
  rwa [hm] at h

theorem Ensures.of_error (h : Ensures I E m R) {s s' : σ} {f : ε} (hs : I s) (hm : m s = .error f s') : E f s' := by
  have h := h s hs
  rwa [hm] at h

theorem ensures_pure {a : α} (ha : R a) : Ensures I E (pure a : EStateM ε σ α) R := fun _ hs => ⟨ha, hs⟩

theorem ensures_throw {f : ε} (hf : ∀ s, I s → E f s) : Ensures I E (throw f : EStateM ε σ α) R := fun s hs => hf s hs

theorem Ensures.bind {f : α → EStateM ε σ β} (hm : Ensures I E m R) (hf : ∀ a, R a → Ensures I E (f a) Q) :
    Ensures I E (m >>= f) Q := by
  intro s hs
  show match EStateM.bind m f s with
    | .ok b s' => Q b ∧ I s'
    | .error e s' => E e s'
  unfold EStateM.bind
  cases hstep : m s with
  | ok a s' =>
    obtain ⟨ha, hs'⟩ := hm.of_ok hs hstep
    exact hf a ha s' hs'
  | error e s' => exact hm.of_error hs hstep

theorem ensures_get_bind {f : σ → EStateM ε σ β} (hf : ∀ s, I s → Ensures I E (f s) Q) :
    Ensures I E (get >>= f) Q := fun s hs => hf s hs s hs

theorem Ensures.weaken (hm : Ensures I E m R) (h : ∀ a, R a → R' a) : Ensures I E m R' := by
  intro s hs
  cases hstep : m s with
  | ok a s' =>
    obtain ⟨ha, hs'⟩ := hm.of_ok hs hstep
    exact ⟨h a ha, hs'⟩
  | error e s' => exact hm.of_error hs hstep

theorem Ensures.weaken_error {E' : ε → σ → Prop} (hm : Ensures I E m R) (h : ∀ f s, E f s → E' f s) :
    Ensures I E' m R := by
  intro s hs
  cases hstep : m s with
  | ok a s' => exact hm.of_ok hs hstep
  | error e s' => exact h e s' (hm.of_error hs hstep)

theorem Ensures.map {g : α → β} (hm : Ensures I E m R) (h : ∀ a, R a → Q (g a)) : Ensures I E (g <$> m) Q := by
  intro s hs
  show match EStateM.map g m s with
    | .ok b s' => Q b ∧ I s'
    | .error e s' => E e s'
  unfold EStateM.map
  cases hstep : m s with
  | ok a s' =>
    obtain ⟨ha, hs'⟩ := hm.of_ok hs hstep
    exact ⟨h a ha, hs'⟩
  | error e s' => exact hm.of_error hs hstep

theorem Ensures.discard (hm : Ensures I E m R) : Ensures I E (discard m) fun _ => True := hm.map fun _ _ => trivial

end BlockCheck.Step
