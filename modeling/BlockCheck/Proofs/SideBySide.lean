/-!
# Two computations side by side

Two computations that may fail match if both give values, and these are related, or both fail, and the faults are
related (`Matched`). For steps that change a state this is said of every pair of related states (`Step.Matched`). A
sequence matches another one if its parts match one by one, so two runs of the same rules can be compared rule by rule.
-/

namespace BlockCheck

variable {ε ε' ε₁ ε₁' σ σ' α α' β β' : Type}

/-! ## Outcomes -/

/-- Both computations give values related by `R`, or both fail with faults related by `E`. -/
def Matched (E : ε → ε' → Prop) (R : α → α' → Prop) : Except ε α → Except ε' α' → Prop
  | .ok a, .ok a' => R a a'
  | .error e, .error e' => E e e'
  | _, _ => False

namespace Matched

variable {E : ε → ε' → Prop} {R R' : α → α' → Prop} {Q : β → β' → Prop} {x : Except ε α} {x' : Except ε' α'}

theorem of_error {e : ε} (h : Matched E R x x') (hx : x = .error e) : ∃ e', x' = .error e' ∧ E e e' := by
  subst hx
  cases x'
  · exact ⟨_, rfl, h⟩
  · exact h.elim

theorem weaken {E' : ε → ε' → Prop} (h : Matched E R x x') (hE : ∀ e e', E e e' → E' e e')
    (hR : ∀ a a', R a a' → R' a a') : Matched E' R' x x' := by
  cases x <;> cases x'
  · exact hE _ _ h
  · exact h
  · exact h
  · exact hR _ _ h

theorem bind {f : α → Except ε β} {f' : α' → Except ε' β'} (h : Matched E R x x')
    (hf : ∀ a a', R a a' → Matched E Q (f a) (f' a')) : Matched E Q (x.bind f) (x'.bind f') := by
  cases x <;> cases x'
  · exact h
  · exact h.elim
  · exact h.elim
  · exact hf _ _ h

theorem mapError {E' : ε₁ → ε₁' → Prop} {g : ε → ε₁} {g' : ε' → ε₁'} (h : Matched E R x x')
    (hg : ∀ e e', E e e' → E' (g e) (g' e')) : Matched E' R (x.mapError g) (x'.mapError g') := by
  cases x <;> cases x'
  · exact hg _ _ h
  · exact h
  · exact h
  · exact h

/-- Where the relations are functions, the second outcome is computed from the first. -/
theorem eq_map {g : ε → ε'} {f : α → α'} (h : Matched (fun e e' => e' = g e) (fun a a' => a' = f a) x x') :
    x' = (x.map f).mapError g := by
  cases x <;> cases x'
  · exact congrArg Except.error h
  · exact h.elim
  · exact h.elim
  · exact congrArg Except.ok h

theorem eq_mapError {g : ε → ε'} {x : Except ε α} {x' : Except ε' α}
    (h : Matched (fun e e' => e' = g e) (· = ·) x x') : x' = x.mapError g := by
  cases x <;> cases x'
  · exact congrArg Except.error h
  · exact h.elim
  · exact h.elim
  · exact congrArg Except.ok (Eq.symm h)

/-- A computation matches itself with other values. -/
theorem map {E : ε → ε → Prop} (hE : ∀ e, E e e) (f : α → α') (x : Except ε α) :
    Matched E (fun a a' => a' = f a) x (x.map f) := by
  cases x
  · exact hE _
  · rfl

theorem refl {E : ε → ε → Prop} (hE : ∀ e, E e e) (x : Except ε α) : Matched E (· = ·) x x := by
  cases x
  · exact hE _
  · rfl

end Matched

/-! ## Steps -/

namespace Step

variable {P P' : σ → σ' → Prop} {E : ε → ε' → Prop} {Q Q' : α → α' → σ → σ' → Prop} {S : β → β' → σ → σ' → Prop}
  {m : EStateM ε σ α} {m' : EStateM ε' σ' α'}

/-- From states related by `P` both steps give values and states related by `Q`, or both fail with faults related by
`E`. -/
def Matched (P : σ → σ' → Prop) (E : ε → ε' → Prop) (m : EStateM ε σ α) (m' : EStateM ε' σ' α')
    (Q : α → α' → σ → σ' → Prop) : Prop :=
  ∀ s s', P s s' →
    match m s, m' s' with
    | .ok a t, .ok a' t' => Q a a' t t'
    | .error e _, .error e' _ => E e e'
    | _, _ => False

theorem matched_pure {a : α} {a' : α'} (h : ∀ s s', P s s' → Q a a' s s') :
    Matched P E (pure a : EStateM ε σ α) (pure a' : EStateM ε' σ' α') Q := fun s s' hs => h s s' hs

theorem matched_throw {e : ε} {e' : ε'} (h : E e e') :
    Matched P E (throw e : EStateM ε σ α) (throw e' : EStateM ε' σ' α') Q := fun _ _ _ => h

theorem matched_get_bind {f : σ → EStateM ε σ β} {f' : σ' → EStateM ε' σ' β'}
    (hf : ∀ s s', P s s' → Matched P E (f s) (f' s') S) : Matched P E (get >>= f) (get >>= f') S :=
  fun s s' hs => hf s s' hs s s' hs

namespace Matched

theorem weaken (h : Matched P E m m' Q) (hP : ∀ s s', P' s s' → P s s') (hQ : ∀ a a' s s', Q a a' s s' → Q' a a' s s') :
    Matched P' E m m' Q' := by
  intro s s' hs
  have h := h s s' (hP s s' hs)
  cases hm : m s <;> cases hm' : m' s' <;> rw [hm, hm'] at h
  · exact hQ _ _ _ _ h
  · exact h
  · exact h
  · exact h

theorem bind {f : α → EStateM ε σ β} {f' : α' → EStateM ε' σ' β'} (h : Matched P E m m' Q)
    (hf : ∀ a a', Matched (Q a a') E (f a) (f' a') S) : Matched P E (m >>= f) (m' >>= f') S := by
  intro s s' hs
  have h := h s s' hs
  show match EStateM.bind m f s, EStateM.bind m' f' s' with
    | .ok b t, .ok b' t' => S b b' t t'
    | .error e _, .error e' _ => E e e'
    | _, _ => False
  unfold EStateM.bind
  cases hm : m s <;> cases hm' : m' s' <;> rw [hm, hm'] at h
  · exact hf _ _ _ _ h
  · exact h.elim
  · exact h.elim
  · exact h

theorem map {g : α → β} {g' : α' → β'} (h : Matched P E m m' Q)
    (hg : ∀ a a' s s', Q a a' s s' → S (g a) (g' a') s s') : Matched P E (g <$> m) (g' <$> m') S := by
  intro s s' hs
  have h := h s s' hs
  show match EStateM.map g m s, EStateM.map g' m' s' with
    | .ok b t, .ok b' t' => S b b' t t'
    | .error e _, .error e' _ => E e e'
    | _, _ => False
  unfold EStateM.map
  cases hm : m s <;> cases hm' : m' s' <;> rw [hm, hm'] at h
  · exact hg _ _ _ _ h
  · exact h.elim
  · exact h.elim
  · exact h

end Matched

end Step

end BlockCheck
