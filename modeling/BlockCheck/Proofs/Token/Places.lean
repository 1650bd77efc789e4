import BlockCheck.Proofs.Ensures
import BlockCheck.Proofs.Token.LastLexeme

/-!
# Where tokens stand

A span of a text marks a part of it, and one only (`Span.Marks`). The span of a token marks in its line the characters
of the token, and these are a token of the same category when they are read alone (`Category.firstMatch?_take`,
`Token.StandsIn`). A cursor that is built on a line holds such tokens only, and so it does after every step; where a
step fails, the fault points to the text that it names.
-/

namespace BlockCheck

open Text (Span size isBlank isDigit isWordChar atWordEnd skipBlanks firstWord)

/-! ## Parts of a text -/

namespace Text

/-- The span is that of a part of the text. -/
def Span.Marks (span : Span) (text part : List Char) : Prop :=
  ∃ before after, text = before ++ (part ++ after) ∧ span = ⟨size before, size part⟩

/-- Two beginnings of a text are the same if their sizes are. -/
theorem eq_of_size_eq {as as' bs bs' : List Char} (h : as ++ bs = as' ++ bs') (hsize : size as = size as') :
    as = as' ∧ bs = bs' := by
  induction as generalizing as' with
  | nil =>
    have hnil := size_eq_zero.1 hsize.symm
    subst hnil
    exact ⟨rfl, h⟩
  | cons a as ih =>
    cases as' with
    | nil => cases size_eq_zero.1 hsize
    | cons a' as' =>
      obtain ⟨rfl, htail⟩ := List.cons.inj h
      obtain ⟨rfl, hrest⟩ := ih htail (Nat.add_left_cancel hsize)
      exact ⟨rfl, hrest⟩

namespace Span.Marks

variable {span : Span} {text part part' : List Char}

/-- A span marks one part of a text at most. -/
theorem unique (h : span.Marks text part) (h' : span.Marks text part') : part = part' := by
  obtain ⟨before, after, rfl, rfl⟩ := h
  obtain ⟨before', after', htext, hspan⟩ := h'
  obtain ⟨hbefore, hpart⟩ := Span.mk.injEq .. ▸ hspan
  obtain ⟨rfl, hrest⟩ := eq_of_size_eq htext hbefore
  exact (eq_of_size_eq hrest hpart).1

/-- What is marked in a part of a text lies inside of it. -/
theorem bounds (h : span.Marks text part) : span.offset + span.length ≤ size text := by
  obtain ⟨before, after, rfl, rfl⟩ := h
  simp only [size_append]
  omega

/-- What is marked in a part of a text is marked in the text by the shifted span. -/
theorem shift {outer : Span} {line : List Char} (hline : outer.Marks text line) (h : span.Marks line part) :
    (span.shift outer.offset).Marks text part := by
  obtain ⟨before, after, rfl, rfl⟩ := hline
  obtain ⟨before', after', rfl, rfl⟩ := h
  refine ⟨before ++ before', after' ++ after, by simp, ?_⟩
  rw [size_append before before']
  rfl

end Span.Marks

end Text

/-! ## Tokens alone -/

/-- The text holds one token, and this is of category `k`. -/
def ReadsAs (text : List Char) (k : Category) : Prop := ∃ t, readLine text = ⟨[t], none⟩ ∧ t.category = k

namespace Category

variable {k j : Category} {cs : List Char} {n m : Nat}

theorem isWordChar_spelling {w : String} (h : k.shape.spelling? = some w) :
    ∀ c ∈ w.toList.getLast?, isWordChar c = k.shape.endsWord := by
  cases k <;> simp only [shape, Shape.spelling?, Option.some.injEq, reduceCtorEq] at h <;> subst h
  all_goals
    rintro c ⟨⟩
    decide

/-- A token ends a word if its last character is of one. -/
theorem isWordChar_of_ends {c : Char} (h : k.shape.Ends c) : isWordChar c = k.shape.endsWord := by
  have hspelling : ∀ w, k.shape.spelling? = some w → _ := fun _ => isWordChar_spelling
  cases hsh : k.shape with
  | sign w | keyword w => rw [hsh] at h hspelling; exact hspelling w rfl c h
  | decimal | integer => rw [hsh] at h; exact Text.isWordChar_of_isDigit h
  | quotedText | quotedChar =>
    rw [hsh] at h
    cases h
    decide
  | name => rw [hsh] at h; exact h.elim Text.isWordChar_of_isAlpha id

/-- A token at the beginning of a text is one also in front of what follows the text, if no word goes on into that. -/
theorem lexemeLength?_append {text rest : List Char} (hj : j.lexemeLength? text = some m)
    (hword : ∀ c ∈ text.getLast?, isWordChar c = true → atWordEnd rest = true) :
    j.lexemeLength? (text ++ rest) = some m := by
  obtain ⟨part, beyond, rfl, rfl, hspells, hend⟩ := Shape.lexemeLength?_eq_some_iff.1 hj
  refine Shape.lexemeLength?_eq_some_iff.2
    ⟨part, beyond ++ rest, List.append_assoc _ _ _, rfl, hspells, fun hends => ?_⟩
  cases beyond with
  | cons c beyond => exact hend hends
  | nil =>
    rw [List.append_nil] at hword
    obtain ⟨c, hlast, hc⟩ := Shape.ends_of_spells (fun _ hw => spelling?_ne_nil hw) hspells
    exact hword c hlast (by rw [isWordChar_of_ends hc, hends])

/-- **A text that ends in no word starts with the token with which it starts in front of more text.** -/
theorem firstMatch?_of_append {text rest : List Char} (h : firstMatch? (text ++ rest) = some (k, n))
    (hn : n ≤ text.length) (hword : ∀ c ∈ text.getLast?, isWordChar c = true → atWordEnd rest = true) :
    firstMatch? text = some (k, n) := by
  obtain ⟨before, k', after, hpriority, hmatch, hbefore⟩ := List.findSome?_eq_some_iff.1 h
  obtain ⟨n', hlength, heq⟩ := Option.map_eq_some_iff.1 hmatch
  cases heq
  refine List.findSome?_eq_some_iff.2 ⟨before, k, after, hpriority, ?_, ?_⟩
  · obtain ⟨part, beyond, hsplit, rfl, hspells, hend⟩ := Shape.lexemeLength?_eq_some_iff.1 hlength
    obtain ⟨left, rfl⟩ : part <+: text := List.prefix_of_prefix_length_le ⟨beyond, hsplit.symm⟩ ⟨rest, rfl⟩ hn
    rw [List.append_assoc] at hsplit
    obtain rfl := List.append_cancel_left hsplit
    have halone : k.lexemeLength? (part ++ left) = some part.length := by
      refine Shape.lexemeLength?_eq_some_iff.2 ⟨part, left, rfl, rfl, hspells, fun hends => ?_⟩
      cases left with
      | nil => rfl
      | cons c left => exact hend hends
    rw [halone]
    rfl
  · intro j hj
    cases hjm : j.lexemeLength? text with
    | none => rfl
    | some m =>
      have hnone := hbefore j hj
      rw [lexemeLength?_append hjm hword] at hnone
      cases hnone

/-- No word goes on behind a token that ends with a word character. -/
theorem atWordEnd_of_firstMatch? {part rest : List Char} (h : firstMatch? (part ++ rest) = some (k, part.length)) :
    ∀ c ∈ part.getLast?, isWordChar c = true → atWordEnd rest = true := by
  obtain ⟨text, rest', hsplit, hlength, hspells, hend⟩ :=
    Shape.lexemeLength?_eq_some_iff.1 (lexemeLength?_of_firstMatch? h)
  obtain ⟨rfl, rfl⟩ := List.append_inj hsplit hlength.symm
  intro c hc hword
  obtain ⟨d, hlast, hends⟩ := Shape.ends_of_spells (fun _ hw => spelling?_ne_nil hw) hspells
  cases hlast.symm.trans hc
  exact hend (by rw [← isWordChar_of_ends hends, hword])

/-- **The text of a token is a token of the same category.** -/
theorem firstMatch?_take (h : firstMatch? cs = some (k, n)) : firstMatch? (cs.take n) = some (k, n) := by
  have hlength : (cs.take n).length = n := List.length_take_of_le (firstMatch?_bounds h).2
  have hsplit : firstMatch? (cs.take n ++ cs.drop n) = some (k, n) := by rwa [List.take_append_drop]
  exact firstMatch?_of_append hsplit hlength.ge (atWordEnd_of_firstMatch? (by rw [hlength]; exact hsplit))

theorem isComment_spelling {w : String} (h : k.shape.spelling? = some w) : isComment w.toList = false := by
  cases k <;> simp only [shape, Shape.spelling?, Option.some.injEq, reduceCtorEq] at h <;> subst h <;> decide

/-- No token starts with two slashes. -/
theorem isComment_of_spells {text : List Char} (h : k.shape.Spells text) : isComment text = false := by
  have hspelling : ∀ w, k.shape.spelling? = some w → _ := fun _ => isComment_spelling
  have hnumber : ∀ minus digits rest tail, IsMinus minus → IsNumeral digits →
      minus ++ (digits ++ rest) ≠ '/' :: tail := by
    rintro minus digits rest tail (rfl | rfl) ⟨hne, hdigits⟩ htext
    · obtain ⟨d, ds, rfl⟩ := List.exists_cons_of_ne_nil hne
      cases htext
      exact absurd (hdigits '/' List.mem_cons_self) (by decide)
    · cases htext
  unfold isComment
  split
  · next tail =>
    cases hsh : k.shape with
    | sign w | keyword w =>
      rw [hsh] at h hspelling
      have hw := hspelling w rfl
      rw [← h] at hw
      exact hw
    | decimal =>
      rw [hsh] at h
      obtain ⟨minus, whole, places, htext, hminus, hwhole, -⟩ := h
      exact absurd htext.symm (hnumber _ _ _ _ hminus hwhole)
    | integer =>
      rw [hsh] at h
      obtain ⟨minus, digits, htext, hminus, hdigits⟩ := h
      rw [← List.append_nil digits] at htext
      exact absurd htext.symm (hnumber _ _ _ _ hminus hdigits)
    | quotedText => rw [hsh] at h; obtain ⟨inner, htext, -⟩ := h; cases htext
    | quotedChar => rw [hsh] at h; obtain ⟨c, htext, -⟩ := h; cases htext
    | name =>
      rw [hsh] at h
      obtain ⟨first, more, htext, -, hfirst⟩ := h
      cases htext
      exact absurd hfirst (by simp)
  · rfl

end Category

/-- The lexeme at the beginning of a text without a leading blank is one token when it is read alone. -/
theorem readsAs_take {cs : List Char} {k : Category} {n : Nat} (h : Category.firstMatch? cs = some (k, n))
    (hcs : ∀ c ∈ cs.head?, isBlank c = false) : ReadsAs (cs.take n) k := by
  have hmatch := Category.firstMatch?_take h
  obtain ⟨text, rest, rfl, rfl, hspells, -⟩ :=
    Shape.lexemeLength?_eq_some_iff.1 (Category.lexemeLength?_of_firstMatch? h)
  rw [List.take_left] at hmatch ⊢
  have hrest : (Scanner.ofLine text).rest = text := by
    rw [ofLine_rest (Category.isComment_of_spells hspells)]
    cases text with
    | nil => rfl
    | cons c text => exact List.dropWhile_cons_of_neg (by rw [hcs c rfl]; exact Bool.false_ne_true)
  have hend : skipBlanks ((Scanner.ofLine text).rest.drop text.length) = [] := by
    rw [hrest, List.drop_length]
    rfl
  exact ⟨_, Scanner.reading_of_firstMatch? (by rw [hrest, hmatch]) hend, rfl⟩

/-! ## Faults and tokens of a line -/

/-- The span marks a part of the text that is the given one, and a token of the given category, as far as these are
given. -/
def Text.Span.Shows (span : Span) (text : List Char) (part? : Option String) (k? : Option Category) : Prop :=
  ∃ part, span.Marks text part ∧ (∀ s, part? = some s → part = s.toList) ∧ ∀ k, k? = some k → ReadsAs part k

/-- The text that the fault says to stand at its place. -/
def SyntaxFault.part? : SyntaxFault → Option String
  | .unknownToken text _ => some text
  | .unknownStatement _ _ _ | .unexpectedToken _ _ _ => none

/-- The category of the token that the fault says to stand at its place. -/
def SyntaxFault.category? : SyntaxFault → Option Category
  | .unknownToken _ _ => none
  | .unknownStatement first _ _ => some first
  | .unexpectedToken _ found span => span.bind fun _ => found

/-- The place of the fault, if it has one, shows what the fault says. -/
def SyntaxFault.PointsInto (line : List Char) (f : SyntaxFault) : Prop :=
  ∀ span, f.span? = some span → span.Shows line f.part? f.category?

/-- The place of the token shows a token of its category, and its text if it has one. -/
def Token.StandsIn (line : List Char) (t : Token) : Prop :=
  t.span.Shows line (if t.category.keepsText then some t.name else none) (some t.category)

theorem Text.Span.Shows.weaken {span : Span} {text : List Char} {part? part?' : Option String}
    {k? k?' : Option Category} (h : span.Shows text part? k?) (hpart : ∀ s, part?' = some s → part? = some s)
    (hk : ∀ k, k?' = some k → k? = some k) : span.Shows text part?' k?' := by
  obtain ⟨part, hmarks, hparts, hks⟩ := h
  exact ⟨part, hmarks, fun s hs => hparts s (hpart s hs), fun k hk' => hks k (hk k hk')⟩

namespace Token.StandsIn

variable {line : List Char} {t : Token}

theorem shows_category (h : t.StandsIn line) : t.span.Shows line none (some t.category) := h.weaken nofun fun _ => id

theorem shows_name (h : t.StandsIn line) (ht : t.category = .identifier) : t.span.Shows line (some t.name) none := by
  refine h.weaken (fun s hs => ?_) nofun
  rw [ht]
  exact hs

end Token.StandsIn

/-- The scanner has read the line up to a character that is not blank, or up to the end. -/
def Scanner.StandsIn (line : List Char) (s : Scanner) : Prop :=
  (∃ before, line = before ++ s.rest ∧ s.offset = size before) ∧ ∀ c ∈ s.rest.head?, isBlank c = false

namespace Scanner

variable {line : List Char} {s s' : Scanner}

theorem standsIn_skip (before : List Char) {cs : List Char} (h : line = before ++ cs) :
    (skip ⟨size before, cs⟩).StandsIn line := by
  refine ⟨⟨before ++ cs.takeWhile isBlank, ?_, (Text.size_append _ _).symm⟩, ?_⟩
  · rw [h, List.append_assoc]
    exact congrArg _ (Text.takeWhile_append_skipBlanks cs).symm
  · intro c hc
    obtain ⟨rest, hrest⟩ := List.head?_eq_some_iff.1 hc
    exact Text.isBlank_head_skipBlanks hrest

theorem standsIn_atEnd (line : List Char) : (atEnd (size line)).StandsIn line :=
  ⟨⟨line, (List.append_nil line).symm, rfl⟩, nofun⟩

theorem standsIn_ofLine (line : List Char) : (ofLine line).StandsIn line := by
  unfold ofLine
  split
  · exact standsIn_atEnd line
  · exact standsIn_skip [] rfl

theorem name_token {k : Category} {n : Nat} (h : k.keepsText = true) :
    (s.token k n).name = String.ofList (s.rest.take n) := by
  rw [Token.name, token, if_pos h]
  rfl

/-- **The next token stands in the line, and so does the scanner after it**; text that is no token is named. -/
theorem StandsIn.pull (h : s.StandsIn line) {item : Except SyntaxFault (Option Token)} (hp : s.pull = (item, s')) :
    s'.StandsIn line ∧ (∀ t, item = .ok (some t) → t.StandsIn line) ∧ ∀ f, item = .error f → f.PointsInto line := by
  obtain ⟨⟨before, hline, hoffset⟩, hhead⟩ := h
  unfold Scanner.pull next? at hp
  by_cases hempty : s.rest.isEmpty = true
  · rw [if_pos hempty] at hp
    cases hp
    exact ⟨⟨⟨before, hline, hoffset⟩, hhead⟩, fun _ h => (nomatch h), fun _ h => (nomatch h)⟩
  · rw [if_neg hempty] at hp
    cases hmatch : Category.firstMatch? s.rest with
    | none =>
      rw [hmatch] at hp
      cases hp
      refine ⟨?_, fun _ h => (nomatch h), fun f hf => ?_⟩
      · rw [hoffset, ← Text.size_append, ← hline]
        exact standsIn_atEnd line
      · cases hf
        rintro span ⟨⟩
        refine ⟨firstWord s.rest, ⟨before, s.rest.dropWhile fun c => !isBlank c, ?_, by rw [hoffset]⟩, ?_,
          fun _ h => (nomatch h)⟩
        · rw [hline, firstWord, List.takeWhile_append_dropWhile]
        · rintro text ⟨⟩
          exact String.toList_ofList.symm
    | some kn =>
      obtain ⟨k, n⟩ := kn
      rw [hmatch] at hp
      cases hp
      refine ⟨?_, fun t ht => ?_, fun _ h => (nomatch h)⟩
      · have hafter : line = (before ++ s.rest.take n) ++ s.rest.drop n := by
          rw [List.append_assoc, List.take_append_drop, hline]
        have hstands := standsIn_skip _ hafter
        rwa [Text.size_append, ← hoffset] at hstands
      · cases ht
        refine ⟨s.rest.take n, ⟨before, s.rest.drop n, by rw [List.take_append_drop, hline], ?_⟩, ?_, ?_⟩
        · show Span.mk s.offset _ = _
          rw [hoffset]
        · intro text htext
          obtain ⟨hkeeps, hname⟩ := Option.ite_none_right_eq_some.1 htext
          rw [← Option.some.inj hname, name_token (k := k) hkeeps, String.toList_ofList]
        · rintro k' ⟨⟩
          exact readsAs_take hmatch hhead

end Scanner

/-! ## Cursors on a line -/

namespace Cursor

open Step

variable {line : List Char} {α : Type} {R : α → Prop}

/-- The tokens that the cursor holds and the scanner behind it stand in the line. -/
def StandsIn (line : List Char) (c : Cursor) : Prop :=
  (∀ t, c.current = some t → t.StandsIn line) ∧ (∀ t, c.next = some t → t.StandsIn line) ∧ c.scanner.StandsIn line

/-- The step leaves the cursor in the line, gives a value with `R`, and fails only with faults that point into it. -/
def Keeps (line : List Char) (m : CursorM α) (R : α → Prop) : Prop :=
  Ensures (StandsIn line) (fun f _ => f.PointsInto line) m R

theorem StandsIn.unexpected {c : Cursor} (h : c.StandsIn line) (expected : Expected) :
    (c.unexpected expected).PointsInto line := by
  intro span hspan
  obtain ⟨t, ht, rfl⟩ := Option.map_eq_some_iff.1 hspan
  refine (h.2.1 t ht).shows_category.weaken (fun _ => id) fun k hk => ?_
  rw [← hk]
  show _ = (c.next.map Token.span).bind fun _ => c.next.map Token.category
  rw [ht]
  rfl

theorem standsIn_ofLine {c : Cursor} (h : ofLine line = .ok c) : c.StandsIn line := by
  unfold ofLine ofScanner at h
  split at h
  · cases h
  · next current s₁ h₁ =>
    obtain ⟨hs₁, hcurrent, -⟩ := (Scanner.standsIn_ofLine line).pull h₁
    split at h
    · cases h
    · next next s₂ h₂ =>
      cases h
      obtain ⟨hs₂, hnext, -⟩ := hs₁.pull h₂
      exact ⟨fun t ht => hcurrent t (congrArg _ ht), fun t ht => hnext t (congrArg _ ht), hs₂⟩

theorem pointsInto_ofLine {f : SyntaxFault} (h : ofLine line = .error f) : f.PointsInto line := by
  unfold ofLine ofScanner at h
  split at h
  · next f s₁ h₁ =>
    cases h
    exact ((Scanner.standsIn_ofLine line).pull h₁).2.2 _ rfl
  · next current s₁ h₁ =>
    obtain ⟨hs₁, -, -⟩ := (Scanner.standsIn_ofLine line).pull h₁
    split at h
    · next f s₂ h₂ =>
      cases h
      exact (hs₁.pull h₂).2.2 _ rfl
    · cases h

theorem advance_keeps : Keeps line advance fun _ => True := by
  rintro c ⟨-, hnext, hscanner⟩
  rw [advance]
  rcases hp : c.scanner.pull with ⟨f | next, rest⟩
  · exact (hscanner.pull hp).2.2 f rfl
  · obtain ⟨hrest, htoken, -⟩ := hscanner.pull hp
    exact ⟨trivial, hnext, fun t ht => htoken t (congrArg _ ht), hrest⟩

theorem takeIf_keeps (test : Category → Bool) :
    Keeps line (takeIf test) fun t? => ∀ t, t? = some t → t.StandsIn line ∧ test t.category = true := by
  refine ensures_get_bind fun c hc => ?_
  split
  · next t hnext =>
    split
    · next htest =>
      refine advance_keeps.map fun _ _ u hu => ?_
      cases hu
      exact ⟨hc.2.1 t hnext, htest⟩
    · exact ensures_pure nofun
  · exact ensures_pure nofun

theorem require_keeps (ks : List Category) (expected : Expected) :
    Keeps line (require ks expected) fun t => t.StandsIn line ∧ t.category ∈ ks := by
  refine (takeIf_keeps ks.contains).bind fun t? ht? => ?_
  cases t? with
  | some t =>
    obtain ⟨ht, hk⟩ := ht? t rfl
    exact ensures_pure ⟨ht, List.contains_iff_mem.1 hk⟩
  | none => exact ensures_get_bind fun c hc => ensures_throw fun _ _ => hc.unexpected expected

theorem finish_keeps : Keeps line finish fun _ => True := by
  refine ensures_get_bind fun c hc => ?_
  split
  · exact ensures_throw fun _ _ => hc.unexpected .endOfStatement
  · exact ensures_pure trivial

end Cursor

end BlockCheck
