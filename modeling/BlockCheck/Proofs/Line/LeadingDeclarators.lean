import BlockCheck.Proofs.Line.Forms
import BlockCheck.Proofs.Line.ScopeChanges

/-!
# The declarators in front of a failure

Declarators are declared one after another, so those in front of a failure stay declared. They are the longest run of
declarators that the line starts with (`IsLongestRun`), where each of them is accepted in the scopes that the ones before
it have made (`LeadingRun`): a declarator that cannot be accepted ends the run, and so does the lack of a comma behind
it. Whether the declarators of a line succeed or fail, this is what they leave (`Grammar.declarators_leave`), and the same
holds of the whole declaration (`Grammar.variableDeclaration_leaves`).
-/

namespace BlockCheck

open Step

/-! ## Runs of declarators -/

/-- Declarators at the beginning of a reading with commas between them, each accepted in the scopes which those before it
have made of `c`. -/
inductive LeadingRun (isFinal : Bool) (type : ValueType) : ScopeChain → Reading → List Declarator → Prop
  | nil {c : ScopeChain} {r : Reading} : LeadingRun isFinal type c r []
  | last {c : ScopeChain} {d : Declarator} {ts : List Token} {r : Reading} : d.Written ts →
      c.Accepts isFinal type d r → LeadingRun isFinal type c (ts ++ r) [d]
  | more {c : ScopeChain} {d : Declarator} {ds : List Declarator} {ts : List Token} {comma : Token} {r : Reading} :
      d.Written ts → c.Accepts isFinal type d (r.cons comma) → comma.category = .comma →
      LeadingRun isFinal type (c.declaring isFinal type [d]) r ds →
      LeadingRun isFinal type c (ts ++ r.cons comma) (d :: ds)

/-- The run is one, and every other one is a beginning of it. -/
def IsLongestRun (isFinal : Bool) (type : ValueType) (c : ScopeChain) (r : Reading) (ds : List Declarator) : Prop :=
  LeadingRun isFinal type c r ds ∧ ∀ ds', LeadingRun isFinal type c r ds' → ds' <+: ds

section Runs

variable {isFinal : Bool} {type : ValueType} {c : ScopeChain} {d d' : Declarator} {ds : List Declarator}
  {ts ts' : List Token} {r r' : Reading}

/-- A reading starts with one declarator at most that is accepted. -/
theorem ScopeChain.Accepts.unique (hw : d.Written ts) (hw' : d'.Written ts') (hd : c.Accepts isFinal type d r)
    (hd' : c.Accepts isFinal type d' r') (h : ts ++ r = ts' ++ r') : d = d' ∧ r = r' := by
  -- Whether the name has a value is told by the token behind it.
  cases hw with
  | bare _ =>
    cases hw' with
    | bare _ =>
      obtain ⟨rfl, hr⟩ := Reading.cons_inj h
      exact ⟨rfl, hr⟩
    | @valued _ sign value _ hsign =>
      simp only [Reading.cons_append, Reading.nil_append] at h
      obtain ⟨-, rfl⟩ := Reading.cons_inj h
      exact absurd (List.mem_singleton.2 hsign) (hd.bare rfl sign rfl)
  | @valued _ sign value _ hsign =>
    cases hw' with
    | bare _ =>
      simp only [Reading.cons_append, Reading.nil_append] at h
      obtain ⟨-, rfl⟩ := Reading.cons_inj h.symm
      exact absurd (List.mem_singleton.2 hsign) (hd'.bare rfl sign rfl)
    | valued _ _ =>
      simp only [Reading.cons_append, Reading.nil_append] at h
      obtain ⟨rfl, hvalued⟩ := Reading.cons_inj h
      obtain ⟨-, hvalue⟩ := Reading.cons_inj hvalued
      obtain ⟨rfl, hr⟩ := Reading.cons_inj hvalue
      exact ⟨rfl, hr⟩

/-- A run starts with a declarator that is accepted. -/
theorem LeadingRun.head (h : LeadingRun isFinal type c r (d :: ds)) : ∃ ts r', d.Written ts ∧ r = ts ++ r' ∧
    c.Accepts isFinal type d r' ∧ (ds = [] ∨ ∃ comma rest, comma.category = Category.comma ∧ r' = rest.cons comma ∧
      LeadingRun isFinal type (c.declaring isFinal type [d]) rest ds) := by
  cases h with
  | last hw hd => exact ⟨_, _, hw, rfl, hd, .inl rfl⟩
  | more hw hd hcomma hrest => exact ⟨_, _, hw, rfl, hd, .inr ⟨_, _, hcomma, rfl, hrest⟩⟩

/-- Where no token is left there is no declarator. -/
theorem LeadingRun.eq_nil (h : LeadingRun isFinal type c r ds) (hr : r.tokens = []) : ds = [] := by
  cases ds with
  | nil => rfl
  | cons d ds =>
    obtain ⟨ts, r', hw, rfl, -⟩ := h.head
    have hpos := hw.length_pos
    simp [Reading.tokens_append] at hr
    simp [hr.1] at hpos

theorem isLongestRun_of_tokens_nil (hr : r.tokens = []) : IsLongestRun isFinal type c r [] :=
  ⟨.nil, fun _ hds => hds.eq_nil hr ▸ List.prefix_rfl⟩

/-- No declarator is accepted. -/
theorem isLongestRun_nil (h : ∀ d ts r', d.Written ts → r = ts ++ r' → ¬ c.Accepts isFinal type d r') :
    IsLongestRun isFinal type c r [] := by
  refine ⟨.nil, fun ds hds => ?_⟩
  cases ds with
  | nil => exact List.prefix_rfl
  | cons d ds =>
    obtain ⟨ts, r', hw, hr, hd, -⟩ := hds.head
    exact absurd hd (h d ts r' hw hr)

/-- No comma follows the first declarator, or nothing that can be read follows the comma. -/
theorem isLongestRun_last (hw : d.Written ts) (hd : c.Accepts isFinal type d r)
    (hr : ∀ comma rest, comma.category = Category.comma → r = Reading.cons comma rest → rest.tokens = []) :
    IsLongestRun isFinal type c (ts ++ r) [d] := by
  refine ⟨.last hw hd, fun ds hds => ?_⟩
  cases ds with
  | nil => exact List.nil_prefix
  | cons d' ds =>
    obtain ⟨ts', r', hw', hsplit, hd', hmore⟩ := hds.head
    obtain ⟨rfl, rfl⟩ := ScopeChain.Accepts.unique hw hw' hd hd' hsplit
    rcases hmore with rfl | ⟨comma, rest, hcomma, hrest, hrun⟩
    · exact List.prefix_rfl
    · cases hrun.eq_nil (hr comma rest hcomma hrest)
      exact List.prefix_rfl

/-- A comma follows the first declarator, and more declarators the comma. -/
theorem isLongestRun_more {comma : Token} (hw : d.Written ts) (hd : c.Accepts isFinal type d (r.cons comma))
    (hcomma : comma.category = .comma) (hds : IsLongestRun isFinal type (c.declaring isFinal type [d]) r ds) :
    IsLongestRun isFinal type c (ts ++ r.cons comma) (d :: ds) := by
  refine ⟨.more hw hd hcomma hds.1, fun ds' hds' => ?_⟩
  cases ds' with
  | nil => exact List.nil_prefix
  | cons d' ds' =>
    obtain ⟨ts', r', hw', hsplit, hd', hmore⟩ := hds'.head
    obtain ⟨rfl, rfl⟩ := ScopeChain.Accepts.unique hw hw' hd hd' hsplit
    rcases hmore with rfl | ⟨comma', rest, -, hrest, hrun⟩
    · exact List.cons_prefix_cons.2 ⟨rfl, List.nil_prefix⟩
    · obtain ⟨-, rfl⟩ := Reading.cons_inj hrest
      exact List.cons_prefix_cons.2 ⟨rfl, hds.2 ds' hrun⟩

end Runs

/-! ## Declarations -/

/-- The beginning of a declaration up to its first declarator, and what follows. -/
inductive DeclarationHead : Reading → Bool → ValueType → Reading → Prop
  | plain {keyword : Token} {type : ValueType} {r : Reading} : keyword.category = type.keyword →
      DeclarationHead (r.cons keyword) false type r
  | final {first keyword : Token} {type : ValueType} {r : Reading} : first.category = .kwFinal →
      keyword.category = type.keyword → DeclarationHead ((r.cons keyword).cons first) true type r

theorem ValueType.keyword_inj {type type' : ValueType} (h : type.keyword = type'.keyword) : type = type' := by
  cases type <;> cases type' <;> first | rfl | cases h

theorem ValueType.keyword_ne_kwFinal (type : ValueType) : type.keyword ≠ .kwFinal := by cases type <;> decide

/-- A line starts with one such beginning at most. -/
theorem DeclarationHead.unique {line line' r r' : Reading} {isFinal isFinal' : Bool} {type type' : ValueType}
    (h : DeclarationHead line isFinal type r) (h' : DeclarationHead line' isFinal' type' r') (hline : line = line') :
    isFinal = isFinal' ∧ type = type' ∧ r = r' := by
  cases h with
  | plain hkeyword =>
    cases h' with
    | plain hkeyword' =>
      obtain ⟨rfl, hr⟩ := Reading.cons_inj hline
      exact ⟨rfl, ValueType.keyword_inj (hkeyword.symm.trans hkeyword'), hr⟩
    | final hfirst _ =>
      obtain ⟨rfl, -⟩ := Reading.cons_inj hline
      exact absurd (hkeyword.symm.trans hfirst) (ValueType.keyword_ne_kwFinal _)
  | final hfirst hkeyword =>
    cases h' with
    | plain hkeyword' =>
      obtain ⟨rfl, -⟩ := Reading.cons_inj hline
      exact absurd (hkeyword'.symm.trans hfirst) (ValueType.keyword_ne_kwFinal _)
    | final _ hkeyword' =>
      obtain ⟨-, hrest⟩ := Reading.cons_inj hline
      obtain ⟨rfl, hr⟩ := Reading.cons_inj hrest
      exact ⟨rfl, ValueType.keyword_inj (hkeyword.symm.trans hkeyword'), hr⟩

namespace Grammar

open Cursor LineM

section Leave

variable {isFinal : Bool} {type : ValueType} {s s' : LineState} {first : Token}

/-- Where a declarator fails none is accepted, and the scopes are left as they are. -/
theorem isLongestRun_of_declarator_error {f : LineFault} (h : declarator type isFinal s = .error f s') :
    IsLongestRun isFinal type s.scopes s.ahead [] ∧ s'.scopes = s.scopes := by
  have hkeep : Ends (· = s.scopes) (fun _ => True) (declarator type isFinal) :=
    declarator_ends type isFinal fun _ _ _ _ _ _ _ => trivial
  have hfirst := hkeep s rfl
  rw [h] at hfirst
  refine ⟨isLongestRun_nil fun d ts r hw hsplit hd => ?_, hfirst.1⟩
  obtain ⟨s₁, h₁, -⟩ := declarator_yields hw hsplit hd
  cases h.symm.trans h₁

/-- Where no comma can be taken behind a declarator the run ends with it. -/
theorem isLongestRun_of_no_comma {c : ScopeChain} {d : Declarator} {ts : List Token} (hw : d.Written ts)
    (hd : c.Accepts isFinal type d s.ahead) (h : ∀ s', (liftM (advanceIf .comma) : LineM Bool) s ≠ .ok true s') :
    IsLongestRun isFinal type c (ts ++ s.ahead) [d] := by
  refine isLongestRun_last hw hd fun comma rest hk hrest => ?_
  -- A comma in front of more tokens could be taken.
  by_contra hne
  obtain ⟨s₁, h₁, -⟩ := advanceIf_yields hrest hk fun h => absurd h hne
  exact h s₁ h₁

/-- **Declarators leave the longest run of them that is accepted**, whether they succeed or fail. -/
theorem declarators_leave : ∀ {n : Nat} {s : LineState}, s.ahead.tokens.length < n →
    ∃ ds, IsLongestRun isFinal type s.scopes s.ahead ds ∧
      (declarators type isFinal n).Leaves s (s.scopes.declaring isFinal type ds)
  | 0, _, hn => absurd hn (Nat.not_lt_zero _)
  | n + 1, s, hn => by
    cases hstep : declarator type isFinal s with
    | error f s₁ =>
      obtain ⟨hrun, hc₁⟩ := isLongestRun_of_declarator_error hstep
      refine ⟨[], hrun, ?_⟩
      rw [ScopeChain.declaring_nil]
      exact leaves_bind_of_error hstep hc₁
    | ok u s₁ =>
      obtain ⟨d, ts, hw, ha₁, hd, hc₁⟩ := declarator_ok hstep
      have hcomma : Scoped (· = s₁.scopes) (liftM (advanceIf .comma) : LineM Bool) Any := scoped_advanceIf .comma
      rw [ha₁]
      cases hmore : (liftM (advanceIf .comma) : LineM Bool) s₁ with
      | error f s₂ =>
        refine ⟨[d], isLongestRun_of_no_comma hw hd (by simp [hmore]), ?_⟩
        refine leaves_bind_of_ok hstep (leaves_bind_of_error hmore ?_)
        exact (hcomma.of_error rfl hmore).1.trans hc₁
      | ok more s₂ =>
        cases more with
        | false =>
          refine ⟨[d], isLongestRun_of_no_comma hw hd (by simp [hmore]), ?_⟩
          refine leaves_bind_of_ok hstep (leaves_bind_of_ok hmore ?_)
          exact (hcomma.of_ok rfl hmore).2.trans hc₁
        | true =>
          obtain ⟨comma, hk, ha₂, hc₂⟩ := advanceIf_true hmore
          have hlength : s₂.ahead.tokens.length < n := by
            rw [ha₁, ha₂, Reading.tokens_append, List.length_append] at hn
            have hone : (s₂.ahead.cons comma).tokens.length = s₂.ahead.tokens.length + 1 := rfl
            omega
          obtain ⟨ds, hlongest, hleaves⟩ := declarators_leave hlength
          rw [hc₂, hc₁] at hlongest hleaves
          rw [ha₂] at hd ⊢
          refine ⟨d :: ds, isLongestRun_more hw hd hk hlongest, ?_⟩
          rw [ScopeChain.declaring_cons]
          exact leaves_bind_of_ok hstep (leaves_bind_of_ok hmore hleaves)

/-- What follows the beginning of a declaration whose type could not be read cannot be read either. -/
theorem tokens_of_declaredType_error {f : LineFault} {r : Reading} (h : declaredType first s = .error f s')
    (hhead : DeclarationHead (s.ahead.cons first) isFinal type r) : r.tokens = [] := by
  generalize hline : s.ahead.cons first = line at hhead
  cases hhead with
  | plain hkeyword =>
    obtain ⟨rfl, -⟩ := Reading.cons_inj hline
    obtain ⟨s₁, h₁, -⟩ := declaredType_yields_plain (s := s) hkeyword
    cases h.symm.trans h₁
  | final hfirst hkeyword =>
    obtain ⟨rfl, ha⟩ := Reading.cons_inj hline
    by_contra hne
    obtain ⟨s₁, h₁, -⟩ := declaredType_yields_final hfirst hkeyword ha fun hr => absurd hr hne
    cases h.symm.trans h₁

theorem declarationHead_of_declaredType (h : declaredType first s = .ok type s') :
    DeclarationHead (s.ahead.cons first) (first.category = .kwFinal) type s'.ahead := by
  obtain ⟨-, ⟨hfirst, keyword, hkeyword, ha⟩ | ⟨hfirst, hkeyword, ha⟩⟩ := declaredType_ok h
  · rw [ha, decide_eq_true hfirst]
    exact .final hfirst hkeyword
  · rw [ha, decide_eq_false hfirst]
    exact .plain hkeyword

/-- **A declaration leaves the longest run of declarators that is accepted**, whether it succeeds or fails, and if it has
no type it leaves the scopes as they are. -/
theorem variableDeclaration_leaves (first : Token) (s : LineState) :
    (∀ isFinal type r, DeclarationHead (s.ahead.cons first) isFinal type r →
      ∃ ds, IsLongestRun isFinal type s.scopes r ds ∧
        (variableDeclaration first).Leaves s (s.scopes.declaring isFinal type ds)) ∧
    ((∀ isFinal type r, ¬ DeclarationHead (s.ahead.cons first) isFinal type r) →
      (variableDeclaration first).Leaves s s.scopes) := by
  have hkeep : Scoped (· = s.scopes) (declaredType first) Any := declaredType_scoped first
  cases hstep : declaredType first s with
  | error f s₁ =>
    have hleaves : (variableDeclaration first).Leaves s s.scopes :=
      leaves_bind_of_error hstep (hkeep.of_error rfl hstep).1
    refine ⟨fun isFinal type r hhead => ?_, fun _ => hleaves⟩
    refine ⟨[], isLongestRun_of_tokens_nil (tokens_of_declaredType_error hstep hhead), ?_⟩
    rwa [ScopeChain.declaring_nil]
  | ok type s₁ =>
    have hhead := declarationHead_of_declaredType hstep
    have hc₁ : s₁.scopes = s.scopes := (hkeep.of_ok rfl hstep).2
    refine ⟨fun isFinal type' r hhead' => ?_, fun hnone => absurd hhead (hnone _ _ _)⟩
    obtain ⟨hfinal, rfl, rfl⟩ := hhead.unique hhead' rfl
    have hrun : ∃ ds, IsLongestRun isFinal type s₁.scopes s₁.ahead ds ∧
        (declarators type isFinal s₁.cursor.bound).Leaves s₁ (s₁.scopes.declaring isFinal type ds) :=
      declarators_leave s₁.cursor.length_ahead_lt_bound
    obtain ⟨ds, hlongest, hleaves⟩ := hrun
    rw [hc₁] at hlongest hleaves
    refine ⟨ds, hlongest, leaves_bind_of_ok hstep ?_⟩
    show (declarators type (first.category = .kwFinal) s₁.cursor.bound >>= fun _ => _).Leaves s₁ _
    rw [hfinal]
    exact hleaves.bind fun _ s₂ hs₂ => leaves_of_scoped (scoped_skip _) hs₂

end Leave

end Grammar

end BlockCheck
