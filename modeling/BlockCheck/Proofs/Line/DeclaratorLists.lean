import BlockCheck.Proofs.Line.Failures
import BlockCheck.Proofs.Line.Layout
import BlockCheck.Proofs.Line.LeadingDeclarators
import BlockCheck.Proofs.Line.MoreValues

/-!
# A list of declarators is a sequence of declarations

The declarators of a line are declared one after another, each in the scopes that those before it have made. They are
all admitted (`ScopeChain.Admits`), or there is a first one that is refused, for the first rule that it breaks
(`ScopeChain.Refuses`). In the one case the declaration declares all of them, in the other it fails with this fault
and those in front stay declared (`IsDeclaration.checkLine_of_admits`, `IsDeclaration.checkLine_of_refused`).

A declaration of one declarator is a case of this, so lines that declare the same declarators one by one come to the
same end as the line that lists them (`declaration_list_outcome`).
-/

namespace BlockCheck

open Step LineM

/-! ## Declarators that are admitted -/

namespace ScopeChain

section Admits

variable {c : ScopeChain} {isFinal : Bool} {type : ValueType} {d d' : Declarator} {ds : List Declarator}
  {rest : Reading} {f : LineFault}

/-- The declarators obey the rules, one after another, and have values if they are final. -/
structure Admits (c : ScopeChain) (isFinal : Bool) (type : ValueType) (ds : List Declarator) : Prop where
  declarable : c.Declarable isFinal type ds
  valued : isFinal = true → ∀ d ∈ ds, d.value.isSome = true

theorem admits_nil (c : ScopeChain) : c.Admits isFinal type [] := ⟨declarable_nil c, fun _ _ h => (nomatch h)⟩

theorem admits_singleton : c.Admits isFinal type [d] ↔ (isFinal = true → d.value.isSome = true) ∧
    (∀ v, d.value = some v → c.Fits type v) ∧ c.innermost.vars.contains d.name.name = false := by
  constructor
  · rintro ⟨hdeclarable, hvalued⟩
    obtain ⟨hfits, hnew, -⟩ := declarable_cons.1 hdeclarable
    exact ⟨fun hf => hvalued hf d List.mem_cons_self, hfits, hnew⟩
  · rintro ⟨hvalued, hfits, hnew⟩
    exact ⟨declarable_cons.2 ⟨hfits, hnew, declarable_nil _⟩, by simpa using hvalued⟩

theorem admits_cons : c.Admits isFinal type (d :: ds) ↔
    c.Admits isFinal type [d] ∧ (c.declaring isFinal type [d]).Admits isFinal type ds := by
  rw [admits_singleton]
  constructor
  · rintro ⟨hdeclarable, hvalued⟩
    obtain ⟨hfits, hnew, hrest⟩ := declarable_cons.1 hdeclarable
    exact ⟨⟨fun hf => hvalued hf d List.mem_cons_self, hfits, hnew⟩, hrest, fun hf e he =>
      hvalued hf e (List.mem_cons_of_mem _ he)⟩
  · rintro ⟨⟨hvalued, hfits, hnew⟩, hrest, hvalues⟩
    refine ⟨declarable_cons.2 ⟨hfits, hnew, hrest⟩, fun hf e he => ?_⟩
    rcases List.mem_cons.1 he with rfl | he
    · exact hvalued hf
    · exact hvalues hf e he

/-- Of declarators that are not all admitted there is a first one that is not. -/
theorem exists_first_refused (h : ¬ c.Admits isFinal type ds) : ∃ before d after, ds = before ++ d :: after ∧
    c.Admits isFinal type before ∧ ¬ (c.declaring isFinal type before).Admits isFinal type [d] := by
  induction ds generalizing c with
  | nil => exact absurd (admits_nil c) h
  | cons d ds ih =>
    by_cases hd : c.Admits isFinal type [d]
    · obtain ⟨before, e, after, rfl, hbefore, he⟩ := ih fun hds => h (admits_cons.2 ⟨hd, hds⟩)
      refine ⟨d :: before, e, after, rfl, admits_cons.2 ⟨hd, hbefore⟩, ?_⟩
      rwa [declaring_cons]
    · exact ⟨[], d, ds, rfl, admits_nil c, by rwa [declaring_nil]⟩

/-- The fault of a declarator that is not admitted, for the first rule it breaks; `rest` is what follows it. -/
inductive Refuses (c : ScopeChain) (isFinal : Bool) (type : ValueType) (d : Declarator) (rest : Reading) :
    LineFault → Prop
  /-- A final variable has no value. -/
  | unsigned : isFinal = true → d.value = none →
      Refuses c isFinal type d rest (.ofSyntax (rest.unexpected (.category .assign)))
  | misfit {v : Token} {f : RuleFault} : d.value = some v → c.Misfit type v f →
      Refuses c isFinal type d rest (.ofRule f)
  /-- The innermost scope has a variable of the name. -/
  | redeclared : (isFinal = true → d.value.isSome = true) → (∀ v, d.value = some v → c.Fits type v) →
      c.innermost.vars.contains d.name.name = true →
      Refuses c isFinal type d rest (.ofRule (.variableAlreadyDeclared d.name.name d.name.span))

theorem exists_refuses (h : ¬ c.Admits isFinal type [d]) (rest : Reading) :
    ∃ f, c.Refuses isFinal type d rest f := by
  by_cases hvalued : isFinal = true → d.value.isSome = true
  · by_cases hfits : ∀ v, d.value = some v → c.Fits type v
    · by_cases hnew : c.innermost.vars.contains d.name.name = false
      · exact absurd (admits_singleton.2 ⟨hvalued, hfits, hnew⟩) h
      · exact ⟨_, .redeclared hvalued hfits (Bool.not_eq_false _ ▸ hnew)⟩
    · simp only [not_forall] at hfits
      obtain ⟨v, hv, hnot⟩ := hfits
      obtain ⟨f, hf⟩ := not_fits_iff.1 hnot
      exact ⟨_, .misfit hv hf⟩
  · obtain ⟨hfinal, hnone⟩ : isFinal = true ∧ d.value = none := by simpa using hvalued
    exact ⟨_, .unsigned hfinal hnone⟩

end Admits

end ScopeChain

/-! ## The same declarator at another place -/

theorem Token.Alike.symm {t t' : Token} (h : t.Alike t') : t'.Alike t := ⟨h.category.symm, h.text.symm⟩

/-- The declarators are the same but for the places of their tokens. -/
inductive Declarator.Alike : Declarator → Declarator → Prop
  | bare {name name' : Token} : name.Alike name' → Alike ⟨name, none⟩ ⟨name', none⟩
  | valued {name name' v v' : Token} : name.Alike name' → v.Alike v' → Alike ⟨name, some v⟩ ⟨name', some v'⟩

namespace Declarator.Alike

variable {d d' : Declarator}

theorem name (h : d.Alike d') : d'.name.name = d.name.name := by
  cases h with
  | bare hname | valued hname _ => exact hname.name

theorem isSome (h : d.Alike d') : d'.value.isSome = d.value.isSome := by cases h <;> rfl

theorem value {v' : Token} (h : d.Alike d') (hv' : d'.value = some v') : ∃ v, d.value = some v ∧ v.Alike v' := by
  cases h with
  | bare _ => cases hv'
  | valued _ hv => cases hv'; exact ⟨_, rfl, hv⟩

theorem symm (h : d.Alike d') : d'.Alike d := by
  cases h with
  | bare hname => exact .bare hname.symm
  | valued hname hv => exact .valued hname.symm hv.symm

end Declarator.Alike

namespace ScopeChain

section Alike

variable {c : ScopeChain} {isFinal : Bool} {type : ValueType} {d d' : Declarator} {v v' : Token} {rest : Reading}

theorem Fits.alike (h : c.Fits type v) (hv : v.Alike v') : c.Fits type v' := by
  obtain ⟨hassignable, husable⟩ := h
  refine ⟨hv.category ▸ hassignable, fun hid => ?_⟩
  rw [hv.name]
  exact husable (hv.category ▸ hid)

theorem Misfit.alike {f : RuleFault} (h : c.Misfit type v f) (hv : v.Alike v') :
    ∃ f', c.Misfit type v' f' ∧ SameKind RuleFault.kind f f' := by
  have hid : v.category = .identifier → v'.category = .identifier := hv.category.trans
  cases h with
  | notAssignable hnot => exact ⟨_, .notAssignable (hv.category ▸ hnot), rfl⟩
  | undeclared hname hnone => exact ⟨_, .undeclared (hid hname) (hv.name ▸ hnone), rfl⟩
  | uninitialized hname hvar hi => exact ⟨_, .uninitialized (hid hname) (hv.name ▸ hvar) hi, rfl⟩
  | contravariant hname hvar hi ht => exact ⟨_, .contravariant (hid hname) (hv.name ▸ hvar) hi ht, rfl⟩

theorem declaring_alike (hd : d.Alike d') (c : ScopeChain) :
    c.declaring isFinal type [d'] = c.declaring isFinal type [d] := by
  have hentry : d'.entry type isFinal = d.entry type isFinal := by
    rw [Declarator.entry, hd.name, hd.isSome, ← Declarator.entry]
  rw [declaring, List.map_singleton, hentry, ← List.map_singleton, ← declaring]

theorem fits_alike (h : ∀ v, d.value = some v → c.Fits type v) (hd : d.Alike d') (v' : Token)
    (hv' : d'.value = some v') : c.Fits type v' := by
  obtain ⟨v, hv, halike⟩ := hd.value hv'
  exact (h v hv).alike halike

theorem Admits.alike (h : c.Admits isFinal type [d]) (hd : d.Alike d') : c.Admits isFinal type [d'] := by
  obtain ⟨hvalued, hfits, hnew⟩ := admits_singleton.1 h
  exact admits_singleton.2 ⟨hd.isSome ▸ hvalued, fits_alike hfits hd, hd.name ▸ hnew⟩

/-- A declarator is refused for the same reason at another place. -/
theorem Refuses.alike {f : LineFault} (h : c.Refuses isFinal type d rest f) (hd : d.Alike d') (rest' : Reading) :
    ∃ f', c.Refuses isFinal type d' rest' f' ∧ SameKind LineFault.kind f f' := by
  cases h with
  | unsigned hfinal hnone =>
    have hnone' : d'.value = none := by
      rw [← Option.isNone_iff_eq_none, ← Option.isSome_eq_false_iff, hd.isSome, hnone]
      rfl
    exact ⟨_, .unsigned hfinal hnone', rfl⟩
  | misfit hv hmisfit =>
    obtain ⟨v', hv', halike⟩ := hd.symm.value hv
    obtain ⟨f', hf', hkind⟩ := hmisfit.alike halike.symm
    exact ⟨_, .misfit hv' hf', hkind⟩
  | redeclared hvalued hfits hold =>
    exact ⟨_, .redeclared (hd.isSome ▸ hvalued) (fits_alike hfits hd) (hd.name ▸ hold), rfl⟩

end Alike

end ScopeChain

/-! ## Declarators that fail -/

namespace Grammar

open Cursor

section Rules

variable {s : LineState} {isFinal : Bool} {type : ValueType} {d : Declarator} {ts : List Token} {r : Reading}
  {f : LineFault} {first : Token}

theorem changeScopes_fails_of_redeclared {name : String} {v : Variable} {fault : RuleFault}
    (h : s.scopes.innermost.vars.contains name = true) :
    (changeScopes (·.addVariable name v) fault).Fails s (.ofRule fault) s.scopes := by
  cases hadd : s.scopes.addVariable name v with
  | error e => exact fails_changeScopes hadd
  | ok c => cases h.symm.trans (ScopeChain.addVariable_eq_ok.1 hadd).1

/-- A declarator that is refused fails and declares nothing. -/
theorem declarator_fails (hw : d.Written ts) (h : s.ahead = ts ++ r) (hr : r.Clear)
    (hbare : d.value = none → r.Lacks [.assign]) (hvalues : ∀ v, d.value = some v → v.category ∈ Category.values)
    (hd : s.scopes.Refuses isFinal type d r f) : (declarator type isFinal).Fails s f s.scopes := by
  cases hw with
  | @bare name hk =>
    refine Yields.bind_fails (expect_yields h hk hr) fun s₁ hc₁ ha₁ => ?_
    have hlacks : s₁.ahead.Lacks [.assign] := ha₁ ▸ hbare rfl
    cases hd with
    | unsigned hfinal _ =>
      subst hfinal
      rw [← ha₁, ← hc₁]
      exact (Fails.map (fun _ => true) (fails_expect hlacks)).bind
    | misfit hv _ => cases hv
    | redeclared hvalued _ hold =>
      have hnot : isFinal = false := Bool.eq_false_iff.2 fun hfinal => by cases hvalued hfinal
      subst hnot
      have hsign : (assignSign false).Yields s₁ false s₁.scopes s₁.ahead := advanceIf_skip hlacks
      refine Yields.bind_fails hsign fun s₂ hc₂ ha₂ => ?_
      refine Yields.bind_fails (yields_pure () rfl rfl) fun s₃ hc₃ _ => ?_
      rw [← hc₁, ← hc₂, ← hc₃] at hold ⊢
      exact changeScopes_fails_of_redeclared hold
  | @valued name sign v hk hsign =>
    simp only [Reading.cons_append, Reading.nil_append] at h
    refine Yields.bind_fails (expect_yields h hk (Reading.clear_cons _ _)) fun s₁ hc₁ ha₁ => ?_
    refine Yields.bind_fails (assignSign_yields ha₁ hsign (Reading.clear_cons _ _)) fun s₂ hc₂ ha₂ => ?_
    have hc := hc₂.trans hc₁
    rw [← hc] at hd ⊢
    cases hd with
    | unsigned _ hnone => cases hnone
    | misfit hv hmisfit =>
      cases hv
      exact (value_fails (hvalues v rfl) hmisfit ha₂ hr).bind
    | redeclared _ hfits hold =>
      refine Yields.bind_fails (value_yields (hfits v rfl) ha₂ hr) fun s₃ hc₃ _ => ?_
      rw [← hc₃] at hold ⊢
      exact changeScopes_fails_of_redeclared hold

/-- **The first declarator that is refused is the fault**, and those in front of it are declared. -/
theorem declarators_fails {ds : List Declarator} (hw : Separated [.comma] Declarator.Written ds ts) (hr : r.Clear)
    (hassign : r.Lacks [.assign]) : ∀ {c : ScopeChain} {before after : List Declarator},
    ds = before ++ d :: after → (∀ v, d.value = some v → v.category ∈ Category.values) →
    c.Admits isFinal type before → ∃ rest, ∀ f, (c.declaring isFinal type before).Refuses isFinal type d rest f →
      ∀ {n : Nat} {s : LineState}, s.scopes = c → s.ahead = ts ++ r → ds.length ≤ n →
        (declarators type isFinal n).Fails s f (c.declaring isFinal type before) := by
  induction hw with
  | @one e ts hw =>
    intro c before after hds hvalues _
    obtain ⟨rfl, rfl⟩ : before = [] ∧ e = d := by
      cases before <;> simp_all
    refine ⟨r, fun f hd n s hc h hn => ?_⟩
    subst hc
    obtain ⟨n, rfl, -⟩ := exists_succ_of_length_le hn
    rw [ScopeChain.declaring_nil] at hd ⊢
    exact (declarator_fails hw h hr (fun _ => hassign) hvalues hd).bind
  | @more e es comma ts us hw hk _ ih =>
    intro c before after hds hvalues hbefore
    have hlacks : (Reading.cons comma (us ++ r)).Lacks [.assign] :=
      Reading.lacks_cons (by rw [List.mem_singleton.1 hk]; decide) _
    cases before with
    | nil =>
      obtain ⟨rfl, -⟩ := List.cons.inj hds
      refine ⟨Reading.cons comma (us ++ r), fun f hd n s hc h hn => ?_⟩
      subst hc
      obtain ⟨n, rfl, -⟩ := exists_succ_of_length_le hn
      rw [ScopeChain.declaring_nil] at hd ⊢
      rw [Reading.append_assoc, Reading.cons_append] at h
      exact (declarator_fails hw h (Reading.clear_cons _ _) (fun _ => hlacks) hvalues hd).bind
    | cons e' before =>
      obtain ⟨rfl, hes⟩ := List.cons.inj hds
      obtain ⟨hone, hbefore⟩ := ScopeChain.admits_cons.1 hbefore
      obtain ⟨hvalued, hfits, hnew⟩ := ScopeChain.admits_singleton.1 hone
      obtain ⟨rest, hrest⟩ := ih hes hvalues hbefore
      refine ⟨rest, fun f hd n s hc h hn => ?_⟩
      subst hc
      obtain ⟨n, rfl, hlength⟩ := exists_succ_of_length_le hn
      rw [ScopeChain.declaring_cons] at hd ⊢
      rw [Reading.append_assoc, Reading.cons_append] at h
      have haccepts : s.scopes.Accepts isFinal type e (Reading.cons comma (us ++ r)) :=
        ⟨hnew, hvalued, hfits, fun _ => hlacks, Reading.clear_cons _ _⟩
      refine Yields.bind_fails (declarator_yields hw h haccepts) fun s₁ hc₁ ha₁ => ?_
      refine Yields.bind_fails (advanceIf_yields ha₁ (List.mem_singleton.1 hk) (hr.append us)) fun s₂ hc₂ ha₂ => ?_
      exact hrest f hd (hc₂.trans hc₁) ha₂ hlength

/-- A declaration fails where its declarators do. -/
theorem variableDeclaration_fails {c : ScopeChain} (hhead : DeclarationHead (s.ahead.cons first) isFinal type r)
    (hr : r.Clear) (hdeclarators : ∀ s₁ : LineState, s₁.scopes = s.scopes → s₁.ahead = r →
      (declarators type isFinal s₁.cursor.bound).Fails s₁ f c) : (variableDeclaration first).Fails s f c := by
  generalize hline : s.ahead.cons first = line at hhead
  cases hhead with
  | plain hkeyword =>
    obtain ⟨rfl, ha⟩ := Reading.cons_inj hline
    refine Yields.bind_fails (declaredType_yields_plain hkeyword) fun s₁ hc₁ ha₁ => fails_get_bind ?_
    rw [decide_eq_false (hkeyword ▸ type.keyword_ne_kwFinal)]
    exact (hdeclarators s₁ hc₁ (ha₁.trans ha)).bind
  | final hfinal hkeyword =>
    obtain ⟨rfl, ha⟩ := Reading.cons_inj hline
    refine Yields.bind_fails (declaredType_yields_final hfinal hkeyword ha hr) fun s₁ hc₁ ha₁ => fails_get_bind ?_
    rw [decide_eq_true hfinal]
    exact (hdeclarators s₁ hc₁ ha₁).bind

end Rules

end Grammar

/-! ## Declarations -/

/-- The line is a declaration of the declarators: the type keyword, behind `final` if they are, the declarators with
commas between them, and a semicolon. What is given to a name is a value. -/
structure IsDeclaration (line : List Char) (isFinal : Bool) (type : ValueType) (ds : List Declarator) : Prop where
  reads : ∃ ts stop, DeclarationHead (readLine line) isFinal type ⟨ts ++ [stop], none⟩ ∧
    Separated [.comma] Declarator.Written ds ts ∧ stop.category = .semicolon
  values : ∀ d ∈ ds, ∀ v, d.value = some v → v.category ∈ Category.values

section Lines

variable {c : ScopeChain} {line : List Char} {isFinal : Bool} {type : ValueType} {d : Declarator}
  {ds before after : List Declarator}

/-- A declaration without `final` by its tokens. -/
theorem IsDeclaration.of_readLine {keyword stop : Token} {ts : List Token}
    (hread : readLine line = ⟨keyword :: (ts ++ [stop]), none⟩) (hkeyword : keyword.category = type.keyword)
    (hw : Separated [.comma] Declarator.Written ds ts) (hstop : stop.category = .semicolon)
    (hvalues : ∀ d ∈ ds, ∀ v, d.value = some v → v.category ∈ Category.values) :
    IsDeclaration line false type ds := by
  have hcons : readLine line = Reading.cons keyword ⟨ts ++ [stop], none⟩ := hread
  refine ⟨⟨ts, stop, ?_, hw, hstop⟩, hvalues⟩
  rw [hcons]
  exact .plain hkeyword

/-- A line that starts like a declaration is classified as one. -/
theorem DeclarationHead.classify {r : Reading} {ts : List Token} {failure : Option SyntaxFault}
    (h : DeclarationHead r isFinal type ⟨ts, failure⟩) : ∃ first us, r = ⟨first :: us, failure⟩ ∧
      ∀ second, StatementKind.ofCategories? first.category second = some .variableDeclaration := by
  cases h with
  | plain hkeyword =>
    refine ⟨_, _, rfl, fun second => ?_⟩
    rw [hkeyword]
    cases type <;> rfl
  | final hfirst _ =>
    refine ⟨_, _, rfl, fun second => ?_⟩
    rw [hfirst]
    rfl

/-- Declarators that are admitted are all declared. -/
theorem IsDeclaration.checkLine_of_admits (h : IsDeclaration line isFinal type ds) (hds : c.Admits isFinal type ds) :
    c.checkLine line = (.ok (some .variableDeclaration), c.declaring isFinal type ds) := by
  obtain ⟨ts, stop, hhead, hw, hstop⟩ := h.reads
  have hwritten : (readLine line).failure = none ∧
      (StatementTree.variableDeclaration isFinal type ds).Written (readLine line).tokens := by
    generalize readLine line = r at hhead
    cases hhead with
    | plain hkeyword => exact ⟨rfl, .variableDeclaration hkeyword hw hstop⟩
    | final hfirst hkeyword => exact ⟨rfl, .finalDeclaration hfirst hkeyword hw (hds.valued rfl) hstop⟩
  have hlegal : (StatementTree.variableDeclaration isFinal type ds).Legal c := hds.declarable
  exact ScopeChain.checkLine_of_legal hwritten.1 hwritten.2 hlegal

/-- A declaration is rejected for the first declarator that is refused, and declares those in front of it. -/
theorem IsDeclaration.checkLine_of_refused (h : IsDeclaration line isFinal type (before ++ d :: after))
    (hbefore : c.Admits isFinal type before) : ∃ rest, ∀ f,
      (c.declaring isFinal type before).Refuses isFinal type d rest f →
        c.checkLine line = (.error f, c.declaring isFinal type before) := by
  obtain ⟨ts, stop, hhead, hw, hstop⟩ := h.reads
  have hassign : (Reading.cons stop .empty).Lacks [.assign] := Reading.lacks_cons (by rw [hstop]; decide) _
  obtain ⟨rest, hrest⟩ := Grammar.declarators_fails hw (Reading.clear_cons stop .empty) hassign rfl
    (h.values d (by simp)) hbefore
  refine ⟨rest, fun f hf => ?_⟩
  obtain ⟨first, us, hread, hkind⟩ := hhead.classify
  refine ScopeChain.checkLine_of_fails (r := ⟨us, none⟩) hread (fun _ => rfl) (hkind _) fun s hc ha => ?_
  have hahead : DeclarationHead (s.ahead.cons first) isFinal type ⟨ts ++ [stop], none⟩ := by
    rw [ha, Reading.cons, ← hread]
    exact hhead
  rw [← Reading.append_empty, Reading.append_assoc, Reading.cons_append, Reading.nil_append] at hahead
  refine Grammar.variableDeclaration_fails hahead (Reading.Clear.append (Reading.clear_cons _ _) ts)
    fun s₁ hc₁ ha₁ => ?_
  have hbound := Grammar.length_le_bound ha₁ (hw.length_le fun _ _ => Declarator.Written.length_pos)
  exact hrest f hf (hc₁.trans hc) ha₁ hbound

end Lines

/-! ## One line or several -/

/-- Checks lines in order up to the first one that is rejected, and gives the scopes after it. -/
def ScopeChain.checkEach (c : ScopeChain) : List (List Char) → Except LineFault Unit × ScopeChain
  | [] => (.ok (), c)
  | line :: lines =>
    match c.checkLine line with
    | (.ok _, c') => c'.checkEach lines
    | (.error f, c') => (.error f, c')

/-- The line declares nothing but the declarator. -/
def Declarator.Alone (isFinal : Bool) (type : ValueType) (d : Declarator) (line : List Char) : Prop :=
  ∃ d', d.Alike d' ∧ IsDeclaration line isFinal type [d']

section Sequences

variable {c : ScopeChain} {line : List Char} {lines : List (List Char)} {isFinal : Bool} {type : ValueType}
  {d : Declarator} {ds : List Declarator}

/-- A declarator that is admitted is declared by the line on which it stands alone. -/
theorem Declarator.Alone.checkLine_of_admits (h : d.Alone isFinal type line) (hd : c.Admits isFinal type [d]) :
    c.checkLine line = (.ok (some .variableDeclaration), c.declaring isFinal type [d]) := by
  obtain ⟨d', halike, hline⟩ := h
  rw [hline.checkLine_of_admits (hd.alike halike), ScopeChain.declaring_alike halike]

/-- A declarator that is refused is refused for the same reason on the line on which it stands alone. -/
theorem Declarator.Alone.checkLine_of_refused {rest : Reading} {f : LineFault} (h : d.Alone isFinal type line)
    (hd : c.Refuses isFinal type d rest f) :
    ∃ f', c.checkLine line = (.error f', c) ∧ SameKind LineFault.kind f f' := by
  obtain ⟨d', halike, hline⟩ := h
  have hline : IsDeclaration line isFinal type ([] ++ d' :: []) := hline
  obtain ⟨rest', hrest'⟩ := hline.checkLine_of_refused c.admits_nil
  obtain ⟨f', hf', hkind⟩ := hd.alike halike rest'
  rw [ScopeChain.declaring_nil] at hrest'
  exact ⟨f', hrest' f' hf', hkind⟩

/-- Lines in front that declare what is admitted are accepted, and those behind are checked with it declared. -/
theorem ScopeChain.checkEach_append (hds : c.Admits isFinal type ds)
    (hlines : List.Forall₂ (Declarator.Alone isFinal type) ds lines) (more : List (List Char)) :
    c.checkEach (lines ++ more) = (c.declaring isFinal type ds).checkEach more := by
  induction hlines generalizing c with
  | nil => rw [declaring_nil, List.nil_append]
  | @cons d _ ds _ hline _ ih =>
    obtain ⟨hd, hds⟩ := admits_cons.1 hds
    rw [List.cons_append, checkEach, hline.checkLine_of_admits hd, declaring_cons c d ds]
    exact ih hds

end Sequences

/-- **A list of declarators is a sequence of declarations.** The line that lists them has the same outcome as the
lines that declare them one by one, up to the first that is rejected: the same scopes, and success or a fault of the
same kind. A value is checked in the scopes with the declarators in front of its own, and with no others. -/
theorem declaration_list_outcome (c : ScopeChain) {line : List Char} {lines : List (List Char)} {isFinal : Bool}
    {type : ValueType} {ds : List Declarator} (hline : IsDeclaration line isFinal type ds)
    (hlines : List.Forall₂ (Declarator.Alone isFinal type) ds lines) :
    (c.checkEach lines).2 = (c.checkLine line).2 ∧
    Matched (SameKind LineFault.kind) (fun _ _ => True) (c.checkLine line).1 (c.checkEach lines).1 ∧
    ∀ before d v after, ds = before ++ d :: after → d.value = some v → c.Admits isFinal type before →
      (∀ kind?, (c.checkLine line).1 = .ok kind? → (c.declaring isFinal type before).Fits type v) ∧
      ∀ f, (c.declaring isFinal type before).Misfit type v f →
        c.checkLine line = (.error (.ofRule f), c.declaring isFinal type before) := by
  have houtcome : (c.checkEach lines).2 = (c.checkLine line).2 ∧
      Matched (SameKind LineFault.kind) (fun _ _ => True) (c.checkLine line).1 (c.checkEach lines).1 := by
    by_cases hds : c.Admits isFinal type ds
    · have heach := ScopeChain.checkEach_append hds hlines []
      rw [List.append_nil] at heach
      rw [heach, hline.checkLine_of_admits hds]
      exact ⟨rfl, trivial⟩
    · obtain ⟨before, d, after, rfl, hbefore, hd⟩ := ScopeChain.exists_first_refused hds
      obtain ⟨front, back, rfl, hfront, hback⟩ := forall₂_append_parts hlines
      cases hback with
      | @cons _ l _ back hone _ =>
        obtain ⟨rest, hrest⟩ := hline.checkLine_of_refused hbefore
        obtain ⟨f, hf⟩ := ScopeChain.exists_refuses hd rest
        obtain ⟨f', hone', hkind⟩ := hone.checkLine_of_refused hf
        rw [ScopeChain.checkEach_append hbefore hfront, ScopeChain.checkEach, hone', hrest f hf]
        exact ⟨rfl, hkind⟩
  have hmisfit : ∀ before d v after, ds = before ++ d :: after → d.value = some v → c.Admits isFinal type before →
      ∀ f, (c.declaring isFinal type before).Misfit type v f →
        c.checkLine line = (.error (.ofRule f), c.declaring isFinal type before) := by
    rintro before d v after rfl hv hbefore f hf
    obtain ⟨rest, hrest⟩ := hline.checkLine_of_refused hbefore
    exact hrest _ (.misfit hv hf)
  refine ⟨houtcome.1, houtcome.2, fun before d v after hds hv hbefore => ⟨fun kind? hok => ?_,
    hmisfit before d v after hds hv hbefore⟩⟩
  by_contra hnot
  obtain ⟨f, hf⟩ := ScopeChain.not_fits_iff.1 hnot
  rw [hmisfit before d v after hds hv hbefore f hf] at hok
  cases hok

/-- The second declarator repeats the name of the first one, on the line of the list as on a line of its own, and the
first one stays declared. -/
theorem declaration_list_outcome_of_redeclaration :
    let line := "int a = 1, a;".toList
    let lines := ["int a = 1;".toList, "int a;".toList]
    let c : ScopeChain := .global { vars := ⟨[("a", ⟨.int, false, true⟩)]⟩ }
    ScopeChain.empty.checkLine line = (.error (.ofRule (.variableAlreadyDeclared "a" ⟨11, 1⟩)), c) ∧
      (ScopeChain.empty.checkEach lines).2 = c := by
  intro line lines c
  have hcheck : ScopeChain.empty.checkLine line =
      (.error (.ofRule (.variableAlreadyDeclared "a" ⟨11, 1⟩)), c) := by decide +kernel
  have hread : readLine line = ⟨⟨.kwInt, none, ⟨0, 3⟩⟩ :: (([⟨.identifier, "a", ⟨4, 1⟩⟩, ⟨.assign, none, ⟨6, 1⟩⟩,
      ⟨.intLiteral, "1", ⟨8, 1⟩⟩] ++ ⟨.comma, none, ⟨9, 1⟩⟩ :: [⟨.identifier, "a", ⟨11, 1⟩⟩]) ++
      [⟨.semicolon, none, ⟨12, 1⟩⟩]), none⟩ := by decide +kernel
  have hreadFirst : readLine "int a = 1;".toList = ⟨⟨.kwInt, none, ⟨0, 3⟩⟩ :: ([⟨.identifier, "a", ⟨4, 1⟩⟩,
      ⟨.assign, none, ⟨6, 1⟩⟩, ⟨.intLiteral, "1", ⟨8, 1⟩⟩] ++ [⟨.semicolon, none, ⟨9, 1⟩⟩]), none⟩ := by
    decide +kernel
  have hreadSecond : readLine "int a;".toList = ⟨⟨.kwInt, none, ⟨0, 3⟩⟩ :: ([⟨.identifier, "a", ⟨4, 1⟩⟩] ++
      [⟨.semicolon, none, ⟨5, 1⟩⟩]), none⟩ := by decide +kernel
  have hvalues : ∀ v, some (⟨.intLiteral, "1", ⟨8, 1⟩⟩ : Token) = some v → v.category ∈ Category.values := by
    rintro v ⟨rfl⟩
    decide
  have hline : IsDeclaration line false .int
      [⟨⟨.identifier, "a", ⟨4, 1⟩⟩, some ⟨.intLiteral, "1", ⟨8, 1⟩⟩⟩, ⟨⟨.identifier, "a", ⟨11, 1⟩⟩, none⟩] :=
    .of_readLine hread rfl (.more (.valued rfl rfl) (by decide) (.one (.bare rfl))) rfl (by simpa using hvalues)
  have hfirst : Declarator.Alone false .int ⟨⟨.identifier, "a", ⟨4, 1⟩⟩, some ⟨.intLiteral, "1", ⟨8, 1⟩⟩⟩
      "int a = 1;".toList := ⟨_, .valued ⟨rfl, rfl⟩ ⟨rfl, rfl⟩,
    .of_readLine hreadFirst rfl (.one (.valued rfl rfl)) rfl (by simpa using hvalues)⟩
  have hsecond : Declarator.Alone false .int ⟨⟨.identifier, "a", ⟨11, 1⟩⟩, none⟩ "int a;".toList :=
    ⟨⟨⟨.identifier, "a", ⟨4, 1⟩⟩, none⟩, .bare ⟨rfl, rfl⟩,
      .of_readLine hreadSecond rfl (.one (.bare rfl)) rfl (by simp)⟩
  obtain ⟨hscopes, -, -⟩ := declaration_list_outcome .empty hline (.cons hfirst (.cons hsecond .nil))
  exact ⟨hcheck, hscopes.trans (congrArg Prod.snd hcheck)⟩

end BlockCheck
