import BlockCheck.Proofs.Line.Declaring
import BlockCheck.Proofs.Line.Step

/-!
# The rules take what the grammar writes

For each rule of `Grammar` there are two lemmas. If the rule succeeds, the tokens that it took are those of a part of
a statement, and this part obeys the rules of declaration and type (`declarators_ok`, `arguments_ok`, …). If such
tokens are ahead, and what follows them cannot be taken for more of the same part, the rule succeeds and takes them
(`declarators_yields`, `arguments_yields`, …).
-/

namespace BlockCheck

open Step

/-- The declarator obeys the rules in the scopes `c`, and what follows it can be read and does not give a value to a name
that has none. -/
structure ScopeChain.Accepts (c : ScopeChain) (isFinal : Bool) (type : ValueType) (d : Declarator) (rest : Reading) :
    Prop where
  fresh : c.innermost.vars.contains d.name.name = false
  valued : isFinal = true → d.value.isSome = true
  fits : ∀ v, d.value = some v → c.Fits type v
  bare : d.value = none → rest.Lacks [.assign]
  clear : rest.Clear

/-- A bound on the length of a list is not 0 if the list has a first item, and one less bounds the others. -/
theorem exists_succ_of_length_le {α : Type} {a : α} {as : List α} {n : Nat} (h : (a :: as).length ≤ n) :
    ∃ m, n = m + 1 ∧ as.length ≤ m := by
  obtain ⟨m, rfl⟩ := Nat.exists_eq_add_of_le' h
  exact ⟨m + as.length, rfl, Nat.le_add_left _ _⟩

namespace Grammar

open Cursor LineM

section Rules

variable {s s' : LineState} {c : ScopeChain} {t first : Token} {r : Reading} {u : Unit} {type : ValueType}
  {isFinal : Bool}

/-! ## Values -/

theorem requireAssignable_eq_ok : type.requireAssignable t = .ok () ↔ t.category ∈ type.assignable := by
  unfold ValueType.requireAssignable
  split <;> simp [*]

theorem mem_values_of_mem_assignable {k : Category} (h : k ∈ type.assignable) : k ∈ Category.values := by
  cases type <;> revert k <;> decide

theorem upcomingValue_ok (h : upcomingValue s = .ok t s') : s' = s ∧ s.cursor.next = some t := by
  have h' := get_bind_ok h
  cases hn : s.cursor.next with
  | none => rw [hn] at h'; cases h'
  | some u =>
    rw [hn] at h'
    by_cases hu : u.category ∈ Category.values
    · simp only [hu, ↓reduceIte] at h'
      obtain ⟨rfl, rfl⟩ := pure_ok h'
      exact ⟨rfl, rfl⟩
    · simp only [hu, ↓reduceIte] at h'
      cases h'

theorem upcomingValue_yields (h : s.ahead = r.cons t) (ht : t.category ∈ Category.values) :
    upcomingValue.Yields s t s.scopes s.ahead := by
  refine yields_get_bind ?_
  rw [(next_of_ahead h).1]
  simp only [ht, ↓reduceIte]
  exact yields_pure t rfl rfl

theorem requireUsable_ok {name : Token} (h : Grammar.requireUsable type name s = .ok u s') :
    s' = s ∧ s.scopes.Usable type name.name := by
  obtain ⟨hu, rfl⟩ := ofRule_ok (get_bind_ok h)
  exact ⟨rfl, ScopeChain.requireUsable_eq_ok.1 hu⟩

theorem requireUsable_yields {name : Token} (h : s.scopes.Usable type name.name) :
    (Grammar.requireUsable type name).Yields s () s.scopes s.ahead :=
  yields_get_bind (ofRule_yields (ScopeChain.requireUsable_eq_ok.2 h))

theorem value_ok (h : value type s = .ok u s') :
    ∃ t, s.scopes.Fits type t ∧ s.ahead = s'.ahead.cons t ∧ s'.scopes = s.scopes := by
  obtain ⟨t, s₁, h₁, k₁⟩ := bind_ok h
  obtain ⟨rfl, hn⟩ := upcomingValue_ok h₁
  obtain ⟨_, s₂, h₂, k₂⟩ := bind_ok k₁
  obtain ⟨ha, rfl⟩ := ofRule_ok h₂
  obtain ⟨_, s₃, h₃, k₃⟩ := bind_ok k₂
  obtain ⟨t', -, hahead, hc⟩ := discard_expect_ok h₃
  obtain rfl : t' = t := Option.some.inj ((next_of_ahead hahead).1.symm.trans hn)
  have hassignable := requireAssignable_eq_ok.1 ha
  by_cases hid : t'.category = .identifier
  · rw [decide_eq_true hid] at k₃
    obtain ⟨rfl, husable⟩ := requireUsable_ok k₃
    exact ⟨t', ⟨hassignable, fun _ => hc ▸ husable⟩, hahead, hc⟩
  · rw [decide_eq_false hid] at k₃
    obtain ⟨-, rfl⟩ := pure_ok k₃
    exact ⟨t', ⟨hassignable, fun h => absurd h hid⟩, hahead, hc⟩

theorem value_yields (hfit : s.scopes.Fits type t) (h : s.ahead = r.cons t) (hr : r.Clear) :
    (value type).Yields s () s.scopes r := by
  refine Yields.bind (upcomingValue_yields h (mem_values_of_mem_assignable hfit.1)) fun s₁ hc₁ ha₁ => ?_
  have hassign := ofRule_yields (s := s₁) (requireAssignable_eq_ok.2 hfit.1)
  rw [hc₁, ha₁] at hassign
  refine Yields.bind hassign fun s₂ hc₂ ha₂ => ?_
  have htake := (expect_yields (ha₂.trans h) rfl hr).discard
  rw [hc₂] at htake
  refine Yields.bind htake fun s₃ hc₃ ha₃ => ?_
  by_cases hid : t.category = .identifier
  · rw [decide_eq_true hid]
    have husable : (Grammar.requireUsable type t).Yields s₃ () s₃.scopes s₃.ahead :=
      requireUsable_yields (hc₃ ▸ hfit.2 hid)
    rwa [hc₃, ha₃] at husable
  · rw [decide_eq_false hid]
    exact yields_pure () hc₃ ha₃

/-! ## Declarators -/

theorem assignSign_ok {b : Bool} (h : assignSign isFinal s = .ok b s') :
    s'.scopes = s.scopes ∧ (b = false ∧ isFinal = false ∧ s'.ahead = s.ahead ∧ s.ahead.Lacks [.assign] ∨
      b = true ∧ ∃ sign, sign.category = .assign ∧ s.ahead = s'.ahead.cons sign) := by
  unfold assignSign at h
  cases isFinal with
  | true =>
    obtain ⟨sign, hm, rfl⟩ := map_ok h
    obtain ⟨hk, ha, hc⟩ := expect_ok hm
    exact ⟨hc, .inr ⟨rfl, sign, hk, ha⟩⟩
  | false =>
    cases b with
    | true =>
      obtain ⟨sign, hk, ha, hc⟩ := advanceIf_true h
      exact ⟨hc, .inr ⟨rfl, sign, hk, ha⟩⟩
    | false =>
      obtain ⟨ha, hc⟩ := advanceIf_false h
      exact ⟨hc, .inl ⟨rfl, rfl, ha, lacks_of_advanceIf h⟩⟩

theorem assignSign_yields {sign : Token} (h : s.ahead = r.cons sign) (hk : sign.category = .assign) (hr : r.Clear) :
    (assignSign isFinal).Yields s true s.scopes r := by
  cases isFinal with
  | true => exact (expect_yields h hk hr).map _
  | false => exact advanceIf_yields h hk hr

theorem declarator_ok (h : declarator type isFinal s = .ok u s') :
    ∃ d ts, d.Written ts ∧ s.ahead = ts ++ s'.ahead ∧ s.scopes.Accepts isFinal type d s'.ahead ∧
      s'.scopes = s.scopes.declaring isFinal type [d] := by
  obtain ⟨name, s₁, h₁, h⟩ := bind_ok h
  obtain ⟨hk₁, ha₁, hc₁⟩ := expect_ok h₁
  obtain ⟨b, s₂, h₂, h⟩ := bind_ok h
  obtain ⟨_, s₃, h₃, h⟩ := bind_ok h
  obtain ⟨hchange, ha₄⟩ := changeScopes_ok h
  have hclear := s'.cursor.clear_ahead
  obtain ⟨hc₂, ⟨rfl, rfl, ha₂, hlacks⟩ | ⟨rfl, sign, hk₂, ha₂⟩⟩ := assignSign_ok h₂
  · obtain ⟨-, rfl⟩ := pure_ok h₃
    obtain ⟨hnew, hs'⟩ := ScopeChain.addVariable_eq_ok.1 hchange
    rw [hc₂, hc₁] at hnew hs'
    rw [← ha₂, ← ha₄] at hlacks
    refine ⟨⟨name, none⟩, [name], .bare hk₁, ?_, ⟨hnew, nofun, nofun, fun _ => hlacks, hclear⟩, hs'⟩
    rw [ha₁, ← ha₂, ← ha₄]
    rfl
  · obtain ⟨v, hfit, ha₃, hc₃⟩ := value_ok h₃
    obtain ⟨hnew, hs'⟩ := ScopeChain.addVariable_eq_ok.1 hchange
    rw [hc₃, hc₂, hc₁] at hnew hs'
    rw [hc₂, hc₁] at hfit
    refine ⟨⟨name, some v⟩, [name, sign, v], .valued hk₁ hk₂, ?_,
      ⟨hnew, fun _ => rfl, fun w hw => Option.some.inj hw ▸ hfit, nofun, hclear⟩, hs'⟩
    rw [ha₁, ha₂, ha₃, ← ha₄]
    rfl

theorem declarator_yields {d : Declarator} {ts : List Token} (hw : d.Written ts) (h : s.ahead = ts ++ r)
    (hd : s.scopes.Accepts isFinal type d r) :
    (declarator type isFinal).Yields s () (s.scopes.declaring isFinal type [d]) r := by
  obtain ⟨hnew, hfinal, hfit, hfollow, hr⟩ := hd
  cases hw with
  | @bare name hk =>
    have hnot : isFinal = false := by
      cases isFinal with
      | true => cases hfinal rfl
      | false => rfl
    subst hnot
    refine Yields.bind (expect_yields h hk hr) fun s₁ hc₁ ha₁ => ?_
    have hsign : (assignSign false).Yields s₁ false s₁.scopes s₁.ahead := advanceIf_skip (ha₁ ▸ hfollow rfl)
    refine Yields.bind hsign fun s₂ hc₂ ha₂ => ?_
    refine Yields.bind (yields_pure () rfl rfl) fun s₃ hc₃ ha₃ => ?_
    rw [← ha₁, ← ha₂, ← ha₃]
    refine changeScopes_yields (ScopeChain.addVariable_eq_ok.2 ?_)
    rw [hc₃, hc₂, hc₁]
    exact ⟨hnew, rfl⟩
  | @valued name sign v hk hsign =>
    simp only [Reading.cons_append, Reading.nil_append] at h
    refine Yields.bind (expect_yields h hk (Reading.clear_cons _ _)) fun s₁ hc₁ ha₁ => ?_
    refine Yields.bind (assignSign_yields ha₁ hsign (Reading.clear_cons _ _)) fun s₂ hc₂ ha₂ => ?_
    have hvalue : s₂.scopes.Fits type v := by
      rw [hc₂, hc₁]
      exact hfit v rfl
    refine Yields.bind (value_yields hvalue ha₂ hr) fun s₃ hc₃ ha₃ => ?_
    rw [← ha₃]
    refine changeScopes_yields (ScopeChain.addVariable_eq_ok.2 ?_)
    rw [hc₃, hc₂, hc₁]
    exact ⟨hnew, rfl⟩

theorem declarators_ok : ∀ {n : Nat} {s : LineState}, declarators type isFinal n s = .ok u s' →
    s.ahead.tokens.length < n → ∃ ds ts, Separated [.comma] Declarator.Written ds ts ∧ s.ahead = ts ++ s'.ahead ∧
      (isFinal = true → ∀ d ∈ ds, d.value.isSome = true) ∧ s.scopes.Declarable isFinal type ds ∧
      s'.scopes = s.scopes.declaring isFinal type ds
  | 0, _, _, hn => absurd hn (Nat.not_lt_zero _)
  | n + 1, s, h, hn => by
    obtain ⟨_, s₁, h₁, h⟩ := bind_ok h
    obtain ⟨d, ts, hw, ha₁, ⟨hnew, hfinal, hfit, -, -⟩, hc₁⟩ := declarator_ok h₁
    obtain ⟨more, s₂, h₂, h⟩ := bind_ok h
    cases more with
    | false =>
      obtain ⟨-, rfl⟩ := pure_ok h
      obtain ⟨ha₂, hc₂⟩ := advanceIf_false h₂
      refine ⟨[d], ts, .one hw, by rw [ha₁, ha₂], fun hf e he => ?_, ?_, hc₂.trans hc₁⟩
      · rw [List.mem_singleton.1 he]
        exact hfinal hf
      · exact ScopeChain.declarable_cons.2 ⟨hfit, hnew, ScopeChain.declarable_nil _⟩
    | true =>
      obtain ⟨comma, hk, ha₂, hc₂⟩ := advanceIf_true h₂
      have hlength : s₂.ahead.tokens.length < n := by
        rw [ha₁, ha₂, Reading.tokens_append, List.length_append] at hn
        have hone : (s₂.ahead.cons comma).tokens.length = s₂.ahead.tokens.length + 1 := rfl
        omega
      obtain ⟨ds, us, hws, ha₃, hfinals, hlegal, hc₃⟩ := declarators_ok h hlength
      refine ⟨d :: ds, ts ++ comma :: us, .more hw (List.mem_singleton.2 hk) hws, ?_, fun hf e he => ?_, ?_, ?_⟩
      · rw [ha₁, ha₂, ha₃, Reading.append_assoc]
        rfl
      · rcases List.mem_cons.1 he with rfl | he
        · exact hfinal hf
        · exact hfinals hf e he
      · rw [hc₂, hc₁] at hlegal
        exact ScopeChain.declarable_cons.2 ⟨hfit, hnew, hlegal⟩
      · rw [hc₃, hc₂, hc₁, ScopeChain.declaring_cons _ d ds]

theorem declarators_yields {ds : List Declarator} {ts : List Token}
    (hw : Separated [.comma] Declarator.Written ds ts) : ∀ {n : Nat} {s : LineState}, s.ahead = ts ++ r →
    (isFinal = true → ∀ d ∈ ds, d.value.isSome = true) → s.scopes.Declarable isFinal type ds → ds.length ≤ n →
    r.Clear → r.Lacks [.assign] → r.Lacks [.comma] →
    (declarators type isFinal n).Yields s () (s.scopes.declaring isFinal type ds) r := by
  induction hw with
  | @one d ts hw =>
    intro n s h hfinal hlegal hn hr hassign hcomma
    obtain ⟨n, rfl, -⟩ := exists_succ_of_length_le hn
    obtain ⟨hfit, hnew, -⟩ := ScopeChain.declarable_cons.1 hlegal
    have hone := declarator_yields hw h ⟨hnew, fun hf => hfinal hf d List.mem_cons_self, hfit, fun _ => hassign, hr⟩
    refine Yields.bind hone fun s₁ hc₁ ha₁ => ?_
    refine Yields.bind (advanceIf_skip (ha₁ ▸ hcomma)) fun s₂ hc₂ ha₂ => ?_
    exact yields_pure () (hc₂.trans hc₁) (ha₂.trans ha₁)
  | @more d ds comma ts us hw hk _ ih =>
    intro n s h hfinal hlegal hn hr hassign hcomma
    obtain ⟨n, rfl, hlength⟩ := exists_succ_of_length_le hn
    obtain ⟨hfit, hnew, hlegal⟩ := ScopeChain.declarable_cons.1 hlegal
    rw [Reading.append_assoc, Reading.cons_append] at h
    have hk := List.mem_singleton.1 hk
    have hone := declarator_yields hw h ⟨hnew, fun hf => hfinal hf d List.mem_cons_self, hfit,
      fun _ => Reading.lacks_cons (by rw [hk]; decide) _, Reading.clear_cons _ _⟩
    refine Yields.bind hone fun s₁ hc₁ ha₁ => ?_
    refine Yields.bind (advanceIf_yields ha₁ hk (hr.append us)) fun s₂ hc₂ ha₂ => ?_
    have hc := hc₂.trans hc₁
    have hrest := ih ha₂ (fun hf e he => hfinal hf e (List.mem_cons_of_mem _ he)) (hc ▸ hlegal)
      hlength hr hassign hcomma
    rwa [hc, ← ScopeChain.declaring_cons] at hrest

/-! ## Operands of a condition -/

theorem operands_ok : ∀ {n : Nat} {s : LineState}, operands n s = .ok u s' → s.ahead.tokens.length < n →
    ∃ vs ts, Separated [.andAnd, .orOr] Token.Written vs ts ∧ s.ahead = ts ++ s'.ahead ∧
      (∀ v ∈ vs, s.scopes.Fits .boolean v) ∧ s'.scopes = s.scopes
  | 0, _, _, hn => absurd hn (Nat.not_lt_zero _)
  | n + 1, s, h, hn => by
    obtain ⟨_, s₁, h₁, k₁⟩ := bind_ok h
    obtain ⟨v, hfit, ha₁, hc₁⟩ := value_ok h₁
    obtain ⟨more, s₂, h₂, k₂⟩ := bind_ok k₁
    cases more with
    | none =>
      obtain ⟨-, rfl⟩ := pure_ok k₂
      obtain ⟨ha₂, hc₂⟩ := advanceIfAny_none h₂
      refine ⟨[v], [v], .one rfl, by rw [ha₁, ha₂]; rfl, fun w hw => ?_, hc₂.trans hc₁⟩
      exact List.mem_singleton.1 hw ▸ hfit
    | some sign =>
      obtain ⟨hk, ha₂, hc₂⟩ := advanceIfAny_some h₂
      have hlength : s₂.ahead.tokens.length < n := by
        rw [ha₁, ha₂] at hn
        have htwo : ((s₂.ahead.cons sign).cons v).tokens.length = s₂.ahead.tokens.length + 2 := rfl
        omega
      obtain ⟨vs, ts, hws, ha₃, hfits, hc₃⟩ := operands_ok k₂ hlength
      have hc := hc₂.trans hc₁
      refine ⟨v :: vs, [v] ++ sign :: ts, .more rfl hk hws, by rw [ha₁, ha₂, ha₃]; rfl, fun w hw => ?_, hc₃.trans hc⟩
      rcases List.mem_cons.1 hw with rfl | hw
      · exact hfit
      · exact hc ▸ hfits w hw

theorem operands_yields {vs : List Token} {ts : List Token} (hw : Separated [.andAnd, .orOr] Token.Written vs ts) :
    ∀ {n : Nat} {s : LineState}, s.ahead = ts ++ r → (∀ v ∈ vs, s.scopes.Fits .boolean v) → vs.length ≤ n →
      r.Clear → r.Lacks [.andAnd, .orOr] → (operands n).Yields s () s.scopes r := by
  induction hw with
  | @one v ts hw =>
    intro n s h hfits hn hr hfollow
    obtain ⟨n, rfl, -⟩ := exists_succ_of_length_le hn
    obtain rfl : ts = [v] := hw
    refine Yields.bind (value_yields (hfits v List.mem_cons_self) h hr) fun s₁ hc₁ ha₁ => ?_
    refine Yields.bind (advanceIfAny_skip (ha₁ ▸ hfollow)) fun s₂ hc₂ ha₂ => ?_
    exact yields_pure () (hc₂.trans hc₁) (ha₂.trans ha₁)
  | @more v vs sign ts us hw hk _ ih =>
    intro n s h hfits hn hr hfollow
    obtain ⟨n, rfl, hlength⟩ := exists_succ_of_length_le hn
    obtain rfl : ts = [v] := hw
    simp only [Reading.append_assoc, Reading.cons_append, Reading.nil_append] at h
    have hone := value_yields (hfits v List.mem_cons_self) h (Reading.clear_cons _ _)
    refine Yields.bind hone fun s₁ hc₁ ha₁ => ?_
    refine Yields.bind (advanceIfAny_yields ha₁ hk (hr.append us)) fun s₂ hc₂ ha₂ => ?_
    have hc := hc₂.trans hc₁
    have hrest := ih ha₂ (fun w hw => hc ▸ hfits w (List.mem_cons_of_mem _ hw)) hlength hr hfollow
    rwa [hc] at hrest

/-! ## Parameters of a method -/

theorem addParameter_eq_ok {m m' : Method} {name : String} {v : Variable} :
    m.addParameter name v = .ok m' ↔
      m.parameters.contains name = false ∧ m' = ⟨⟨m.parameters.entries ++ [(name, v)]⟩⟩ := by
  unfold Method.addParameter
  constructor
  · intro h
    cases hi : m.parameters.insert name v with
    | error f => rw [hi] at h; cases h
    | ok parameters =>
      obtain ⟨hn, rfl⟩ := SymbolTable.insert_eq_ok.1 hi
      rw [hi] at h
      cases h
      exact ⟨hn, rfl⟩
  · rintro ⟨hn, rfl⟩
    rw [SymbolTable.insert_eq_ok.2 ⟨hn, rfl⟩]
    rfl

theorem mem_keywords {k : Category} {type : ValueType} (h : k = type.keyword) : k ∈ ValueType.keywords := by
  subst h; cases type <;> decide

theorem parameter_ok {m m' : Method} (h : parameter m s = .ok m' s') :
    ∃ p ts, Parameter.Written p ts ∧ s.ahead = ts ++ s'.ahead ∧ m.parameters.contains p.name.name = false ∧
      m' = ⟨⟨m.parameters.entries ++ [p.entry]⟩⟩ ∧ s'.scopes = s.scopes := by
  obtain ⟨f, s₁, h₁, k₁⟩ := bind_ok h
  obtain ⟨o, s₂, h₂, k₂⟩ := bind_ok k₁
  cases o with
  | none => cases k₂
  | some keyword =>
    obtain ⟨-, ha₂, hc₂⟩ := advanceIfAny_some h₂
    cases htype : ValueType.ofKeyword? keyword.category with
    | none =>
      rw [Option.bind_some, htype] at k₂
      cases k₂
    | some type =>
      have hkeyword := ValueType.ofKeyword?_eq_some_iff.1 htype
      rw [Option.bind_some, htype] at k₂
      obtain ⟨name, s₃, h₃, k₃⟩ := bind_ok k₂
      obtain ⟨hname, ha₃, hc₃⟩ := expect_ok h₃
      cases hadd : m.addParameter name.name (.parameter type f) with
      | error fault => rw [hadd] at k₃; cases k₃
      | ok m₁ =>
        rw [hadd] at k₃
        obtain ⟨rfl, rfl⟩ := pure_ok k₃
        obtain ⟨hnew, hm⟩ := addParameter_eq_ok.1 hadd
        cases f with
        | false =>
          obtain ⟨ha₁, hc₁⟩ := advanceIf_false h₁
          refine ⟨⟨false, type, name⟩, [keyword, name], .plain hkeyword hname, ?_, hnew, hm, ?_⟩
          · rw [← ha₁, ha₂, ha₃]
            rfl
          · rw [hc₃, hc₂, hc₁]
        | true =>
          obtain ⟨first, hfirst, ha₁, hc₁⟩ := advanceIf_true h₁
          refine ⟨⟨true, type, name⟩, [first, keyword, name], .final hfirst hkeyword hname, ?_, hnew, hm, ?_⟩
          · rw [ha₁, ha₂, ha₃]
            rfl
          · rw [hc₃, hc₂, hc₁]

/-- The part of a parameter after the keyword that may stand in front. -/
theorem parameter_yields_of {m : Method} {f : Bool} {s₀ : LineState} {keyword name : Token}
    (hfinal : (liftM (advanceIf .kwFinal) : LineM Bool).Yields s₀ f c ([keyword, name] ++ r))
    (hkeyword : keyword.category = type.keyword) (hname : name.category = .identifier)
    (hnew : m.parameters.contains name.name = false) (hr : r.Clear) :
    (parameter m).Yields s₀ ⟨⟨m.parameters.entries ++ [(name.name, .parameter type f)]⟩⟩ c r := by
  refine Yields.bind hfinal fun s₁ hc₁ ha₁ => ?_
  simp only [Reading.cons_append, Reading.nil_append] at ha₁
  have htype := advanceIfAny_yields ha₁ (mem_keywords hkeyword) (Reading.clear_cons _ _)
  refine Yields.bind htype fun s₂ hc₂ ha₂ => ?_
  rw [Option.bind_some, ValueType.ofKeyword?_eq_some_iff.2 hkeyword]
  refine Yields.bind (expect_yields ha₂ hname hr) fun s₃ hc₃ ha₃ => ?_
  rw [addParameter_eq_ok.2 ⟨hnew, rfl⟩]
  exact yields_pure _ (hc₃.trans (hc₂.trans hc₁)) ha₃

theorem parameter_yields {m : Method} {p : Parameter} {ts : List Token} (hw : p.Written ts) (h : s.ahead = ts ++ r)
    (hnew : m.parameters.contains p.name.name = false) (hr : r.Clear) :
    (parameter m).Yields s ⟨⟨m.parameters.entries ++ [p.entry]⟩⟩ s.scopes r := by
  cases hw with
  | @plain type keyword name hkeyword hname =>
    have hskip : s.ahead.Lacks [.kwFinal] := by
      rw [h, Reading.cons_append]
      refine Reading.lacks_cons ?_ _
      rw [hkeyword]
      cases type <;> decide
    exact parameter_yields_of (h ▸ advanceIf_skip hskip) hkeyword hname hnew hr
  | @final type first keyword name hfirst hkeyword hname =>
    rw [Reading.cons_append] at h
    have htake := advanceIf_yields h hfirst (Reading.Clear.append hr [keyword, name])
    exact parameter_yields_of htake hkeyword hname hnew hr

/-- The names of the parameters are different from each other and from those of `m`. -/
def NewParameters (m : Method) (ps : List Parameter) : Prop :=
  (ps.map fun p => p.name.name).Nodup ∧ ∀ p ∈ ps, m.parameters.contains p.name.name = false

theorem newParameters_cons {m : Method} {p : Parameter} {ps : List Parameter} :
    NewParameters m (p :: ps) ↔ m.parameters.contains p.name.name = false ∧
      NewParameters ⟨⟨m.parameters.entries ++ [p.entry]⟩⟩ ps := by
  have hcontains : ∀ q : Parameter,
      (⟨m.parameters.entries ++ [p.entry]⟩ : SymbolTable Variable).contains q.name.name = false ↔
        m.parameters.contains q.name.name = false ∧ q.name.name ≠ p.name.name := fun _ =>
    SymbolTable.contains_append_entry
  unfold NewParameters
  rw [List.map_cons, List.nodup_cons]
  constructor
  · rintro ⟨⟨hp, hps⟩, hnew⟩
    refine ⟨hnew p List.mem_cons_self, hps, fun q hq => (hcontains q).2 ⟨hnew q (List.mem_cons_of_mem _ hq), ?_⟩⟩
    exact fun h => hp (List.mem_map.2 ⟨q, hq, h⟩)
  · rintro ⟨hp, hps, hnew⟩
    refine ⟨⟨fun h => ?_, hps⟩, fun q hq => ?_⟩
    · obtain ⟨q, hq, hname⟩ := List.mem_map.1 h
      exact ((hcontains q).1 (hnew q hq)).2 hname
    · rcases List.mem_cons.1 hq with rfl | hq
      · exact hp
      · exact ((hcontains q).1 (hnew q hq)).1

theorem parameters_ok : ∀ {n : Nat} {m m' : Method} {s : LineState}, parameters n m s = .ok m' s' →
    s.ahead.tokens.length < n → ∃ ps ts, Separated [.comma] Parameter.Written ps ts ∧ s.ahead = ts ++ s'.ahead ∧
      NewParameters m ps ∧ m' = ⟨⟨m.parameters.entries ++ ps.map Parameter.entry⟩⟩ ∧ s'.scopes = s.scopes
  | 0, _, _, _, _, hn => absurd hn (Nat.not_lt_zero _)
  | n + 1, m, m', s, h, hn => by
    obtain ⟨m₁, s₁, h₁, k₁⟩ := bind_ok h
    obtain ⟨p, ts, hw, ha₁, hnew, rfl, hc₁⟩ := parameter_ok h₁
    obtain ⟨more, s₂, h₂, k₂⟩ := bind_ok k₁
    cases more with
    | false =>
      obtain ⟨rfl, rfl⟩ := pure_ok k₂
      obtain ⟨ha₂, hc₂⟩ := advanceIf_false h₂
      refine ⟨[p], ts, .one hw, by rw [ha₁, ha₂], ?_, rfl, hc₂.trans hc₁⟩
      exact newParameters_cons.2 ⟨hnew, List.nodup_nil, fun _ h => (nomatch h)⟩
    | true =>
      obtain ⟨comma, hk, ha₂, hc₂⟩ := advanceIf_true h₂
      have hlength : s₂.ahead.tokens.length < n := by
        rw [ha₁, ha₂, Reading.tokens_append, List.length_append] at hn
        have hone : (s₂.ahead.cons comma).tokens.length = s₂.ahead.tokens.length + 1 := rfl
        omega
      obtain ⟨ps, us, hws, ha₃, hnews, hm, hc₃⟩ := parameters_ok k₂ hlength
      refine ⟨p :: ps, ts ++ comma :: us, .more hw (List.mem_singleton.2 hk) hws, ?_,
        newParameters_cons.2 ⟨hnew, hnews⟩, ?_, hc₃.trans (hc₂.trans hc₁)⟩
      · rw [ha₁, ha₂, ha₃, Reading.append_assoc]
        rfl
      · rw [hm, List.append_assoc]
        rfl

theorem parameters_yields {ps : List Parameter} {ts : List Token}
    (hw : Separated [.comma] Parameter.Written ps ts) : ∀ {n : Nat} {m : Method} {s : LineState},
    s.ahead = ts ++ r → NewParameters m ps → ps.length ≤ n → r.Clear → r.Lacks [.comma] →
    (parameters n m).Yields s ⟨⟨m.parameters.entries ++ ps.map Parameter.entry⟩⟩ s.scopes r := by
  induction hw with
  | @one p ts hw =>
    intro n m s h hnew hn hr hfollow
    obtain ⟨n, rfl, -⟩ := exists_succ_of_length_le hn
    have hone := parameter_yields hw h (newParameters_cons.1 hnew).1 hr
    refine Yields.bind hone fun s₁ hc₁ ha₁ => ?_
    refine Yields.bind (advanceIf_skip (ha₁ ▸ hfollow)) fun s₂ hc₂ ha₂ => ?_
    exact yields_pure _ (hc₂.trans hc₁) (ha₂.trans ha₁)
  | @more p ps comma ts us hw hk _ ih =>
    intro n m s h hnew hn hr hfollow
    obtain ⟨n, rfl, hlength⟩ := exists_succ_of_length_le hn
    rw [Reading.append_assoc, Reading.cons_append] at h
    obtain ⟨hnew, hnews⟩ := newParameters_cons.1 hnew
    refine Yields.bind (parameter_yields hw h hnew (Reading.clear_cons _ _)) fun s₁ hc₁ ha₁ => ?_
    have htake := advanceIf_yields ha₁ (List.mem_singleton.1 hk) (hr.append us)
    refine Yields.bind htake fun s₂ hc₂ ha₂ => ?_
    have hrest := ih ha₂ hnews hlength hr hfollow
    rwa [hc₂, hc₁, List.append_assoc] at hrest

/-! ## Arguments of a call -/

theorem moreArguments_ok : ∀ {types : List ValueType} {s : LineState}, moreArguments types s = .ok u s' →
    ∃ vs ts, (∀ v, Separated [.comma] Token.Written (v :: vs) (v :: ts)) ∧ s.ahead = ts ++ s'.ahead ∧
      List.Forall₂ s.scopes.Fits types vs ∧ s'.scopes = s.scopes
  | [], s, h => by
    obtain ⟨-, rfl⟩ := pure_ok h
    exact ⟨[], [], fun v => .one rfl, rfl, .nil, rfl⟩
  | type :: types, s, h => by
    obtain ⟨_, s₁, h₁, k₁⟩ := bind_ok h
    obtain ⟨comma, hk, ha₁, hc₁⟩ := discard_expect_ok h₁
    obtain ⟨_, s₂, h₂, k₂⟩ := bind_ok k₁
    obtain ⟨v, hfit, ha₂, hc₂⟩ := value_ok h₂
    obtain ⟨vs, ts, hw, ha₃, hfits, hc₃⟩ := moreArguments_ok k₂
    have hc := hc₂.trans hc₁
    have hmore : ∀ w, Separated [.comma] Token.Written (w :: v :: vs) ([w] ++ comma :: v :: ts) :=
      fun w => .more rfl (List.mem_singleton.2 hk) (hw v)
    refine ⟨v :: vs, comma :: v :: ts, hmore, ?_, .cons (hc₁ ▸ hfit) (hc ▸ hfits), hc₃.trans hc⟩
    rw [ha₁, ha₂, ha₃]
    rfl

theorem arguments_ok {types : List ValueType} (h : arguments types s = .ok u s') :
    ∃ vs ts, Listed Token.Written vs ts ∧ s.ahead = ts ++ s'.ahead ∧ List.Forall₂ s.scopes.Fits types vs ∧
      s'.scopes = s.scopes := by
  cases types with
  | nil =>
    obtain ⟨-, rfl⟩ := pure_ok h
    exact ⟨[], [], .inl ⟨rfl, rfl⟩, rfl, .nil, rfl⟩
  | cons type types =>
    obtain ⟨_, s₁, h₁, k₁⟩ := bind_ok h
    obtain ⟨v, hfit, ha₁, hc₁⟩ := value_ok h₁
    obtain ⟨vs, ts, hw, ha₂, hfits, hc₂⟩ := moreArguments_ok k₁
    refine ⟨v :: vs, v :: ts, .inr (hw v), ?_, .cons hfit (hc₁ ▸ hfits), hc₂.trans hc₁⟩
    rw [ha₁, ha₂]
    rfl

/-- Arguments from the second on, each with the comma in front of it. -/
theorem arguments_yields_of_separated {vs ts : List Token} (hw : Separated [.comma] Token.Written vs ts) :
    ∀ {types : List ValueType} {s : LineState}, s.ahead = ts ++ r → List.Forall₂ s.scopes.Fits types vs → r.Clear →
      (arguments types).Yields s () s.scopes r := by
  induction hw with
  | @one v ts hw =>
    intro types s h hfits hr
    obtain rfl : ts = [v] := hw
    cases hfits with
    | cons hfit hfits =>
      cases hfits
      refine Yields.bind (value_yields hfit h hr) fun s₁ hc₁ ha₁ => ?_
      exact yields_pure () hc₁ ha₁
  | @more v vs comma ts us hw hk hws ih =>
    intro types s h hfits hr
    obtain rfl : ts = [v] := hw
    simp only [Reading.append_assoc, Reading.cons_append, Reading.nil_append] at h
    cases hfits with
    | @cons type _ types _ hfit hfits =>
      refine Yields.bind (value_yields hfit h (Reading.clear_cons _ _)) fun s₁ hc₁ ha₁ => ?_
      cases hfits with
      | nil => cases hws
      | @cons type' v' types' vs' hfit' hfits' =>
        have htake := (expect_yields ha₁ (List.mem_singleton.1 hk) (hr.append us)).discard
        refine Yields.bind htake fun s₂ hc₂ ha₂ => ?_
        have hc := hc₂.trans hc₁
        have hrest : (arguments (type' :: types')).Yields s₂ () s₂.scopes r :=
          ih ha₂ (.cons (hc ▸ hfit') (hc ▸ hfits')) hr
        rwa [hc] at hrest

theorem arguments_yields {types : List ValueType} {vs ts : List Token} (hw : Listed Token.Written vs ts)
    (h : s.ahead = ts ++ r) (hfits : List.Forall₂ s.scopes.Fits types vs) (hr : r.Clear) :
    (arguments types).Yields s () s.scopes r := by
  rcases hw with ⟨rfl, rfl⟩ | hw
  · cases hfits
    exact yields_pure () rfl h
  · exact arguments_yields_of_separated hw h hfits hr

end Rules

end Grammar

end BlockCheck
