import BlockCheck.Proofs.Token.Places
import Mathlib.Data.List.Forall2

/-!
# Lines laid out anew

The layout of a line is what stands between its tokens. A line is laid out anew if its tokens are written with one
blank between them (`respaced`), each with the characters that stand at its place (`writtenIn_of_readLine`). It is
read as the same tokens, apart from their places (`readLine_respaced`), since a token is the same in front of a
separator (`Category.firstMatch?_append`): a token goes on over a separator only between quotes. The new line is no
comment.
-/

namespace BlockCheck

/-! ## Separators -/

namespace Text

/-- A character that is not quoted ends the token in front of it, if it is blank, a comma or a semicolon. -/
def isSeparator (c : Char) : Bool := isBlank c || c == ',' || c == ';'

theorem isSeparator_of_isBlank {c : Char} (h : isBlank c = true) : isSeparator c = true := by
  rw [isSeparator, h]
  rfl

theorem isSeparator_of_isWordChar {c : Char} (h : isWordChar c = true) : isSeparator c = false := by
  have hsigns : isWordChar ',' = false ∧ isWordChar ';' = false := ⟨rfl, rfl⟩
  have hne : ∀ d, isWordChar d = false → (c == d) = false := fun d hd =>
    beq_false_of_ne fun heq => by
      rw [heq, hd] at h
      cases h
  rw [isSeparator, isBlank_of_isWordChar h, hne ',' hsigns.1, hne ';' hsigns.2]
  rfl

/-- No word goes on at a separator. -/
theorem atWordEnd_of_separator {cs : List Char} (h : ∀ c ∈ cs.head?, isSeparator c = true) : atWordEnd cs = true := by
  refine atWordEnd_iff.2 fun c hc => ?_
  by_contra hword
  have hseparator := isSeparator_of_isWordChar (Bool.not_eq_false _ ▸ hword)
  rw [h c hc] at hseparator
  cases hseparator

end Text

open Text (isBlank isDigit isSeparator skipBlanks)

/-! ## How tokens start -/

/-- The character may start a token of the shape. -/
def Shape.Starts : Shape → Char → Prop
  | .sign spelling, c | .keyword spelling, c => spelling.toList.head? = some c
  | .decimal, c | .integer, c => c = '-' ∨ isDigit c = true
  | .quotedText, c => c = '"'
  | .quotedChar, c => c = '\''
  | .name, c => c.isAlpha = true ∨ c = '_'

instance : (sh : Shape) → (c : Char) → Decidable (sh.Starts c)
  | .sign _, _ | .keyword _, _ => inferInstanceAs (Decidable (_ = _))
  | .decimal, _ | .integer, _ | .name, _ => inferInstanceAs (Decidable (_ ∨ _))
  | .quotedText, _ | .quotedChar, _ => inferInstanceAs (Decidable (_ = _))

/-- A token starts as its shape says. -/
theorem Shape.starts_of_spells {sh : Shape} {text : List Char} (hw : ∀ w, sh.spelling? = some w → w.toList ≠ [])
    (h : sh.Spells text) : ∃ c more, text = c :: more ∧ sh.Starts c := by
  have hnumber : ∀ minus digits rest, IsMinus minus → IsNumeral digits →
      ∃ c more, minus ++ (digits ++ rest) = c :: more ∧ (c = '-' ∨ isDigit c = true) := by
    rintro minus digits rest (rfl | rfl) ⟨hne, hdigits⟩
    · obtain ⟨d, ds, rfl⟩ := List.exists_cons_of_ne_nil hne
      exact ⟨d, ds ++ rest, rfl, .inr (hdigits d List.mem_cons_self)⟩
    · exact ⟨'-', digits ++ rest, rfl, .inl rfl⟩
  cases sh with
  | sign w | keyword w =>
    obtain ⟨c, more, hc⟩ := List.exists_cons_of_ne_nil (hw w rfl)
    exact ⟨c, more, h.trans hc, congrArg List.head? hc⟩
  | decimal =>
    obtain ⟨minus, whole, places, rfl, hminus, hwhole, -⟩ := h
    exact hnumber minus whole _ hminus hwhole
  | integer =>
    obtain ⟨minus, digits, rfl, hminus, hdigits⟩ := h
    have hstart := hnumber minus digits [] hminus hdigits
    rwa [List.append_nil] at hstart
  | quotedText =>
    obtain ⟨inner, rfl, -⟩ := h
    exact ⟨_, _, rfl, rfl⟩
  | quotedChar =>
    obtain ⟨c, rfl, -⟩ := h
    exact ⟨_, _, rfl, rfl⟩
  | name =>
    obtain ⟨first, more, rfl, -, hfirst⟩ := h
    exact ⟨first, more, rfl, hfirst.imp_right And.left⟩

namespace Category

variable {k j : Category} {part text rest : List Char} {c : Char}

theorem eq_of_starts_quote : k.shape.Starts '"' → k = .stringLiteral := by
  cases k <;> decide

theorem eq_of_starts_apostrophe : k.shape.Starts '\'' → k = .charLiteral := by
  cases k <;> decide

theorem dark_spelling {w : String} (h : k.shape.spelling? = some w) :
    (∀ c ∈ w.toList.head?, isBlank c = false) ∧ ∀ c ∈ w.toList.tail, isSeparator c = false := by
  have hall : w.toList.head?.all (fun c => !isBlank c) = true ∧ w.toList.tail.any isSeparator = false := by
    cases k <;> simp only [shape, Shape.spelling?, Option.some.injEq, reduceCtorEq] at h <;> subst h <;> decide
  refine ⟨fun c hc => ?_, fun c hc => Bool.eq_false_iff.2 (List.any_eq_false.1 hall.2 c hc)⟩
  simpa [Option.mem_def.1 hc] using hall.1

/-- A token that is not quoted does not start with a blank and does not go on over a separator. -/
theorem dark_of_spells (h : k.shape.Spells (c :: text)) (hquote : c ≠ '"') (hapostrophe : c ≠ '\'') :
    isBlank c = false ∧ ∀ d ∈ text, isSeparator d = false := by
  have hspelling : ∀ w, k.shape.spelling? = some w → _ := fun _ => dark_spelling
  have hminus : ∀ {minus : List Char}, IsMinus minus → ∀ c ∈ minus, isSeparator c = false := by
    rintro _ (rfl | rfl) c hc
    · cases hc
    · cases List.mem_singleton.1 hc
      rfl
  have hdigits : ∀ {digits : List Char}, IsNumeral digits → ∀ c ∈ digits, isSeparator c = false := fun h c hc =>
    Text.isSeparator_of_isWordChar (Text.isWordChar_of_isDigit (h.2 c hc))
  -- In a number there is no separator at all.
  have hnumber : ∀ {number : List Char}, (∀ d ∈ number, isSeparator d = false) → c :: text = number →
      isBlank c = false ∧ ∀ d ∈ text, isSeparator d = false := by
    rintro _ hall rfl
    obtain ⟨hc, htext⟩ := List.forall_mem_cons.1 hall
    refine ⟨?_, htext⟩
    by_contra hblank
    rw [Text.isSeparator_of_isBlank (Bool.not_eq_false _ ▸ hblank)] at hc
    cases hc
  cases hsh : k.shape with
  | sign w | keyword w =>
    rw [hsh] at h hspelling
    obtain ⟨hhead, htail⟩ := hspelling w rfl
    have hw : w.toList = c :: text := h.symm
    rw [hw] at hhead htail
    exact ⟨hhead c rfl, htail⟩
  | decimal =>
    rw [hsh] at h
    obtain ⟨minus, whole, places, htext, hm, hwhole, hplaces⟩ := h
    refine hnumber ?_ htext
    simp only [List.forall_mem_append, List.forall_mem_cons]
    exact ⟨hminus hm, hdigits hwhole, rfl, hdigits hplaces⟩
  | integer =>
    rw [hsh] at h
    obtain ⟨minus, digits, htext, hm, hds⟩ := h
    exact hnumber (List.forall_mem_append.2 ⟨hminus hm, hdigits hds⟩) htext
  | quotedText =>
    rw [hsh] at h
    obtain ⟨inner, htext, -⟩ := h
    exact absurd (List.cons.inj htext).1 hquote
  | quotedChar =>
    rw [hsh] at h
    obtain ⟨d, htext, -⟩ := h
    exact absurd (List.cons.inj htext).1 hapostrophe
  | name =>
    rw [hsh] at h
    obtain ⟨first, more, htext, hmore, hfirst⟩ := h
    obtain ⟨rfl, rfl⟩ := List.cons.inj htext
    refine ⟨?_, fun c hc => Text.isSeparator_of_isWordChar (hmore c hc)⟩
    rcases hfirst with halpha | ⟨rfl, -⟩
    · exact Text.isBlank_of_isWordChar (Text.isWordChar_of_isAlpha halpha)
    · rfl

/-- No token starts with a blank. -/
theorem isBlank_head_of_spells (h : k.shape.Spells (c :: rest)) : isBlank c = false := by
  by_cases hquote : c = '"'
  · rw [hquote]; rfl
  by_cases hapostrophe : c = '\''
  · rw [hapostrophe]; rfl
  exact (dark_of_spells h hquote hapostrophe).1

theorem spells_of_firstMatch? (h : firstMatch? text = some (k, text.length)) : k.shape.Spells text := by
  obtain ⟨text', rest', htext, hlength, hspells, -⟩ :=
    Shape.lexemeLength?_eq_some_iff.1 (lexemeLength?_of_firstMatch? h)
  obtain rfl : rest' = [] := by
    have := congrArg List.length htext
    rw [List.length_append] at this
    exact List.length_eq_zero_iff.1 (by omega)
  rw [htext, List.append_nil]
  exact hspells

/-- A category that has a token in front of a text and a separator has it in front of the text alone, unless the token
goes on over the separator. Then it is quoted, and of the category of every token that the text starts with. -/
theorem lexemeLength?_of_append {m : Nat} (hk : k.shape.Spells part)
    (hrest : ∀ c ∈ rest.head?, isSeparator c = true) (hj : j.lexemeLength? (part ++ (text ++ rest)) = some m) :
    j.lexemeLength? (part ++ text) = some m ∨ j = k := by
  obtain ⟨token, beyond, heq, rfl, hspells, hword⟩ := Shape.lexemeLength?_eq_some_iff.1 hj
  rw [← List.append_assoc] at heq
  rcases List.append_eq_append_iff.1 heq with ⟨beyond', rfl, rfl⟩ | ⟨left, htext, rfl⟩
  · cases beyond' with
    | nil =>
      rw [List.append_nil] at hspells ⊢
      exact .inl (Shape.lexemeLength?_eq_some_iff.2 ⟨part ++ text, [], (List.append_nil _).symm, rfl, hspells,
        fun _ => rfl⟩)
    | cons b beyond' =>
      -- The token goes on over a separator, so it starts with a quote, and so does the text.
      right
      obtain ⟨c, more, rfl, hstarts⟩ := Shape.starts_of_spells (fun _ hw => spelling?_ne_nil hw) hk
      obtain ⟨c', more', hfirst, hstarts'⟩ := Shape.starts_of_spells (fun _ hw => spelling?_ne_nil hw) hspells
      obtain ⟨rfl, -⟩ := List.cons.inj hfirst
      by_cases hquote : c = '"'
      · subst hquote
        rw [eq_of_starts_quote hstarts, eq_of_starts_quote hstarts']
      by_cases hapostrophe : c = '\''
      · subst hapostrophe
        rw [eq_of_starts_apostrophe hstarts, eq_of_starts_apostrophe hstarts']
      have hb := (dark_of_spells hspells hquote hapostrophe).2 b (by simp)
      rw [hrest b rfl] at hb
      cases hb
  · refine .inl (Shape.lexemeLength?_eq_some_iff.2 ⟨token, left, htext, rfl, hspells, fun hends => ?_⟩)
    cases left with
    | nil => rfl
    | cons c left => exact hword hends

theorem nodup_priority : priority.Nodup := by decide

/-- **The token that a text starts with** is the same in front of a separator. -/
theorem firstMatch?_append (h : firstMatch? (part ++ text) = some (k, part.length))
    (hrest : ∀ c ∈ rest.head?, isSeparator c = true) :
    firstMatch? (part ++ (text ++ rest)) = some (k, part.length) := by
  obtain ⟨before, k', after, hpriority, hmatch, hbefore⟩ := List.findSome?_eq_some_iff.1 h
  obtain ⟨n', hlexeme, heq⟩ := Option.map_eq_some_iff.1 hmatch
  cases heq
  obtain ⟨token, beyond, hsplit, hlength, hspells, hword⟩ := Shape.lexemeLength?_eq_some_iff.1 hlexeme
  obtain ⟨rfl, rfl⟩ := List.append_inj hsplit hlength.symm
  refine List.findSome?_eq_some_iff.2 ⟨before, k, after, hpriority, ?_, fun j hj => ?_⟩
  · have hlexeme' : k.lexemeLength? (part ++ (text ++ rest)) = some part.length := by
      refine Shape.lexemeLength?_eq_some_iff.2 ⟨part, text ++ rest, rfl, rfl, hspells, fun hends => ?_⟩
      cases text with
      | nil => exact Text.atWordEnd_of_separator hrest
      | cons c text => exact hword hends
    rw [hlexeme']
    rfl
  · cases hjm : j.lexemeLength? (part ++ (text ++ rest)) with
    | none => rfl
    | some m =>
      rcases lexemeLength?_of_append hspells hrest hjm with hm | rfl
      · have hnone := hbefore j hj
        rw [hm] at hnone
        cases hnone
      · have hnodup := nodup_priority
        rw [hpriority] at hnodup
        exact absurd rfl ((List.nodup_append.1 hnodup).2.2 j hj j List.mem_cons_self)

end Category

/-! ## The characters of a token -/

/-- The characters of the token. -/
def Token.spelled (t : Token) : List Char := (t.category.shape.spelling?.getD t.name).toList

theorem Shape.eq_of_spells {sh : Shape} {w : String} {text : List Char} (hw : sh.spelling? = some w)
    (h : sh.Spells text) : text = w.toList := by
  cases sh <;> cases hw <;> exact h

/-- The token is written in the line at its place, where its characters could stand alone. -/
structure Token.WrittenIn (line : List Char) (t : Token) : Prop where
  marks : t.span.Marks line t.spelled
  alone : Category.firstMatch? t.spelled = some (t.category, t.spelled.length)
  text : t.text = if t.category.keepsText then some (String.ofList t.spelled) else none

namespace Scanner

variable {line : List Char} {s s' : Scanner} {t : Token}

/-- The characters of a token are those that the scanner takes for it. -/
theorem spelled_token {k : Category} {n : Nat} (h : k.lexemeLength? s.rest = some n) :
    (s.token k n).spelled = s.rest.take n := by
  obtain ⟨text, rest, hrest, rfl, hspells, -⟩ := Shape.lexemeLength?_eq_some_iff.1 h
  have htake : s.rest.take text.length = text := by rw [hrest, List.take_left]
  show (k.shape.spelling?.getD (s.token k text.length).name).toList = _
  cases hspelling : k.shape.spelling? with
  | some w => rw [htake, Shape.eq_of_spells hspelling hspells]; rfl
  | none =>
    have hkeeps : k.keepsText = true := by rw [Category.keepsText, hspelling]; rfl
    rw [Option.getD_none, name_token hkeeps, String.toList_ofList]

theorem token_of_pull (h : s.pull = (.ok (some t), s')) :
    ∃ n, Category.firstMatch? s.rest = some (t.category, n) ∧ t = s.token t.category n := by
  unfold pull next? at h
  cases hempty : s.rest.isEmpty with
  | true => rw [hempty] at h; cases h
  | false =>
    rw [hempty] at h
    cases hmatch : Category.firstMatch? s.rest with
    | none => rw [hmatch] at h; cases h
    | some kn =>
      obtain ⟨k, n⟩ := kn
      rw [hmatch] at h
      cases h
      exact ⟨n, rfl, rfl⟩

theorem StandsIn.writtenIn_of_pull (h : s.StandsIn line) (hp : s.pull = (.ok (some t), s')) : t.WrittenIn line := by
  obtain ⟨n, hmatch, ht⟩ := token_of_pull hp
  obtain ⟨⟨before, hline, hoffset⟩, -⟩ := h
  have hspelled : t.spelled = s.rest.take n := by
    rw [ht]
    exact spelled_token (Category.lexemeLength?_of_firstMatch? hmatch)
  have hlength : (s.rest.take n).length = n := List.length_take_of_le (Category.firstMatch?_bounds hmatch).2
  refine ⟨⟨before, s.rest.drop n, ?_, ?_⟩, ?_, ?_⟩
  · rw [hspelled, List.take_append_drop, hline]
  · rw [hspelled, ht, ← hoffset]
    rfl
  · rw [hspelled, hlength]
    exact Category.firstMatch?_take hmatch
  · rw [hspelled]
    exact congrArg Token.text ht

/-- **All tokens of a line are written in it.** -/
theorem StandsIn.writtenIn {ts : List Token} {failure : Option SyntaxFault} (h : s.StandsIn line)
    (hread : s.reading = ⟨ts, failure⟩) : ∀ t ∈ ts, t.WrittenIn line := by
  induction ts generalizing s with
  | nil => exact nofun
  | cons t ts ih =>
    obtain ⟨s', hp, hrest⟩ := pull_of_reading_cons (t := t) (r := ⟨ts, failure⟩) hread
    exact List.forall_mem_cons.2 ⟨h.writtenIn_of_pull hp, ih (h.pull hp).1 hrest⟩

end Scanner

theorem writtenIn_of_readLine {line : List Char} : ∀ t ∈ (readLine line).tokens, t.WrittenIn line :=
  (Scanner.standsIn_ofLine line).writtenIn rfl

/-! ## Tokens with blanks between them -/

namespace Token

variable {line : List Char} {t t' : Token} {ts ts' : List Token}

/-- The tokens are the same but for their places. -/
structure Alike (t t' : Token) : Prop where
  category : t'.category = t.category
  text : t'.text = t.text

theorem Alike.name (h : t.Alike t') : t'.name = t.name := by rw [Token.name, h.text, ← Token.name]

theorem categories_of_alike (h : List.Forall₂ Alike ts ts') : ts'.map category = ts.map category := by
  induction h with
  | nil => rfl
  | cons ht _ ih => exact congrArg₂ List.cons ht.category ih

namespace WrittenIn

theorem spells (h : t.WrittenIn line) : t.category.shape.Spells t.spelled := Category.spells_of_firstMatch? h.alone

theorem start (h : t.WrittenIn line) : ∃ c more, t.spelled = c :: more ∧ isBlank c = false := by
  have hspells := h.spells
  obtain ⟨c, more, hc, -⟩ := Shape.starts_of_spells (fun _ hw => Category.spelling?_ne_nil hw) hspells
  rw [hc] at hspells
  exact ⟨c, more, hc, Category.isBlank_head_of_spells hspells⟩

theorem last (h : t.WrittenIn line) : ∃ c, t.spelled.getLast? = some c ∧ isBlank c = false := by
  obtain ⟨c, hc, hends⟩ := Shape.ends_of_spells (fun _ hw => Category.spelling?_ne_nil hw) h.spells
  exact ⟨c, hc, (Category.last_of_ends hends).1⟩

theorem mem_line {c : Char} (h : t.WrittenIn line) (hc : c ∈ t.spelled) : c ∈ line := by
  obtain ⟨before, after, hline, -⟩ := h.marks
  rw [hline]
  exact List.mem_append_right _ (List.mem_append_left _ hc)

end WrittenIn

/-- The characters of the tokens with a blank between each two of them. -/
def spaced (ts : List Token) : List Char := [' '].intercalate (ts.map spelled)

theorem spaced_singleton (t : Token) : spaced [t] = t.spelled := List.intercalate_singleton

theorem spaced_cons_cons (t u : Token) (us : List Token) :
    spaced (t :: u :: us) = t.spelled ++ (' ' :: spaced (u :: us)) := by
  rw [spaced, List.map_cons, List.map_cons, List.intercalate_cons_cons, List.append_assoc]
  rfl

/-- Behind the first token nothing follows, or a blank does and then the other tokens. -/
theorem spaced_cons (t : Token) (ts : List Token) : ∃ gap, spaced (t :: ts) = t.spelled ++ (gap ++ spaced ts) ∧
    (∀ c ∈ gap, c = ' ') ∧ ∀ c ∈ (gap ++ spaced ts).head?, c = ' ' := by
  cases ts with
  | nil =>
    refine ⟨[], ?_, nofun, nofun⟩
    rw [spaced_singleton]
    exact (List.append_nil t.spelled).symm
  | cons u us =>
    refine ⟨[' '], spaced_cons_cons t u us, fun c => List.mem_singleton.1, ?_⟩
    rintro c ⟨⟩
    rfl

theorem mem_spaced {c : Char} (h : c ∈ spaced ts) : c = ' ' ∨ ∃ t ∈ ts, c ∈ t.spelled := by
  induction ts with
  | nil => cases h
  | cons t ts ih =>
    obtain ⟨gap, hspaced, hgap, -⟩ := spaced_cons t ts
    rw [hspaced, List.mem_append, List.mem_append] at h
    rcases h with ht | hc | hts
    · exact .inr ⟨t, List.mem_cons_self, ht⟩
    · exact .inl (hgap c hc)
    · exact (ih hts).imp_right fun ⟨u, hu, hc⟩ => ⟨u, List.mem_cons_of_mem t hu, hc⟩

theorem head_spaced (h : ∀ t ∈ ts, t.WrittenIn line) : ∀ c ∈ (spaced ts).head?, isBlank c = false := by
  cases ts with
  | nil => exact nofun
  | cons t ts =>
    obtain ⟨gap, hspaced, -⟩ := spaced_cons t ts
    obtain ⟨c, more, hstart, hc⟩ := (h t List.mem_cons_self).start
    rw [hspaced, hstart]
    rintro _ ⟨⟩
    exact hc

theorem skipBlanks_spaced (h : ∀ t ∈ ts, t.WrittenIn line) : skipBlanks (spaced ts) = spaced ts := by
  have hhead := head_spaced h
  cases hspaced : spaced ts with
  | nil => rfl
  | cons c cs =>
    rw [hspaced] at hhead
    exact List.dropWhile_cons_of_neg (by rw [hhead c rfl]; exact Bool.false_ne_true)

theorem last_spaced (h : ∀ t ∈ ts, t.WrittenIn line) : ∀ c ∈ (spaced ts).getLast?, isBlank c = false := by
  induction ts with
  | nil => exact nofun
  | cons t ts ih =>
    obtain ⟨ht, hts⟩ := List.forall_mem_cons.1 h
    cases ts with
    | nil =>
      obtain ⟨c, hlast, hc⟩ := ht.last
      rw [spaced_singleton, hlast]
      rintro _ ⟨⟩
      exact hc
    | cons u us =>
      have hne : spaced (u :: us) ≠ [] := by
        obtain ⟨gap, hspaced, -⟩ := spaced_cons u us
        obtain ⟨c, more, hstart, -⟩ := (hts u List.mem_cons_self).start
        rw [hspaced, hstart]
        exact List.cons_ne_nil c _
      rw [spaced_cons_cons, List.append_cons, List.getLast?_append_of_ne_nil _ hne]
      exact ih hts

end Token

/-- **Tokens with blanks between them are read again.** -/
theorem Scanner.reading_of_spaced {line : List Char} {ts : List Token} (h : ∀ t ∈ ts, t.WrittenIn line) :
    ∀ {s : Scanner}, s.rest = Token.spaced ts →
      ∃ ts', s.reading = ⟨ts', none⟩ ∧ List.Forall₂ Token.Alike ts ts' := by
  induction ts with
  | nil => exact fun hs => ⟨[], reading_eq_empty_iff.2 hs, .nil⟩
  | cons t ts ih =>
    intro s hs
    obtain ⟨ht, hts⟩ := List.forall_mem_cons.1 h
    obtain ⟨gap, hspaced, hgap, hhead⟩ := Token.spaced_cons t ts
    rw [hspaced] at hs
    have hmatch : Category.firstMatch? s.rest = some (t.category, t.spelled.length) := by
      have halone : Category.firstMatch? (t.spelled ++ []) = some (t.category, t.spelled.length) := by
        rw [List.append_nil]
        exact ht.alone
      have hinFront : Category.firstMatch? (t.spelled ++ ([] ++ (gap ++ Token.spaced ts))) = _ :=
        Category.firstMatch?_append halone fun c hc => by rw [hhead c hc]; rfl
      rw [hs]
      exact hinFront
    have hafter : (s.after t.spelled.length).rest = Token.spaced ts := by
      show skipBlanks (s.rest.drop t.spelled.length) = _
      have hblank : ∀ c ∈ gap, isBlank c = true := fun c hc => by rw [hgap c hc]; rfl
      rw [hs, List.drop_left, skipBlanks, List.dropWhile_append_of_pos hblank]
      exact Token.skipBlanks_spaced hts
    obtain ⟨ts', hread, halike⟩ := ih hts hafter
    have htoken : t.Alike (s.token t.category t.spelled.length) := by
      refine ⟨rfl, ?_⟩
      rw [ht.text, token, hs, List.take_left]
    refine ⟨_ :: ts', ?_, .cons htoken halike⟩
    have hne : s.rest.isEmpty ≠ true := by
      obtain ⟨c, more, hstart, -⟩ := ht.start
      rw [hs, hstart]
      exact Bool.false_ne_true
    rw [reading_eq, next?, if_neg hne, hmatch]
    exact congrArg (Reading.cons _) hread

/-! ## Lines -/

/-- The line with one blank between its tokens, and none around them. A comment has no tokens. -/
def respaced (line : List Char) : List Char := Token.spaced (readLine line).tokens

section Lines

variable {line : List Char}

theorem isComment_iff : isComment line = true ↔ ∃ rest, line = '/' :: '/' :: rest := by
  constructor
  · intro h
    unfold isComment at h
    split at h
    · next rest => exact ⟨rest, rfl⟩
    · cases h
  · rintro ⟨rest, rfl⟩
    rfl

theorem isComment_append {text rest : List Char} (htext : isComment text = false) (hne : text ≠ [])
    (hrest : rest.head? ≠ some '/') : isComment (text ++ rest) = false := by
  rw [Bool.eq_false_iff] at htext ⊢
  intro hcomment
  obtain ⟨tail, htail⟩ := isComment_iff.1 hcomment
  match text with
  | [] => exact hne rfl
  | [c] => exact hrest (congrArg List.head? (List.cons.inj htail).2)
  | c :: d :: text =>
    cases htail
    exact htext rfl

/-- **A line that is laid out anew is no comment.** -/
theorem isComment_respaced (line : List Char) : isComment (respaced line) = false := by
  have hwritten : ∀ t ∈ (readLine line).tokens, t.WrittenIn line := writtenIn_of_readLine
  unfold respaced
  cases hts : (readLine line).tokens with
  | nil => rfl
  | cons t ts =>
    rw [hts] at hwritten
    have ht := hwritten t List.mem_cons_self
    obtain ⟨gap, hspaced, -, hhead⟩ := Token.spaced_cons t ts
    obtain ⟨c, more, hstart, -⟩ := ht.start
    rw [hspaced]
    refine isComment_append (Category.isComment_of_spells ht.spells) ?_ fun hslash => ?_
    · rw [hstart]
      exact List.cons_ne_nil c more
    · cases hhead '/' hslash

/-- **A line that is laid out anew has the same tokens**, and nothing else. -/
theorem readLine_respaced (line : List Char) :
    ∃ ts, readLine (respaced line) = ⟨ts, none⟩ ∧ List.Forall₂ Token.Alike (readLine line).tokens ts := by
  refine Scanner.reading_of_spaced writtenIn_of_readLine ?_
  rw [ofLine_rest (isComment_respaced line)]
  exact Token.skipBlanks_spaced writtenIn_of_readLine

theorem newline_not_mem_respaced (h : '\n' ∉ line) : '\n' ∉ respaced line := fun hmem => by
  rcases Token.mem_spaced hmem with hblank | ⟨t, ht, hc⟩
  · cases hblank
  · exact h ((writtenIn_of_readLine t ht).mem_line hc)

/-- The last character of the line is not blank, so it is no carriage return. -/
theorem last_respaced (line : List Char) : ∀ c ∈ (respaced line).getLast?, isBlank c = false :=
  Token.last_spaced writtenIn_of_readLine

end Lines

end BlockCheck
