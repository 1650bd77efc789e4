import BlockCheck.Nesting
import BlockCheck.Proofs.Token.Ahead
import BlockCheck.Proofs.Token.Spelling
import Mathlib.Tactic.IntervalCases

/-!
# The ends of a line

The braces that are counted are found in the characters of a line, the statements in its tokens. Both see the same
ends. The last character of a line that is not blank is the last one of its last token (`last_of_reading`), and it is
an opening brace exactly if that token is one (`last_of_ends`), since no token ends with a blank and quoted text ends
with a quote. Hence a line opens a block if its last token is an opening brace (`opensBlock_iff`), and closes one if
its only token is a closing brace (`closesBlock_iff`).
-/

namespace BlockCheck

open Text (isBlank isDigit isWordChar inRanges skipBlanks allBlank trim trimEnd wordRun)

/-! ## Blanks stand in no word -/

/-- The code points of the blank characters. -/
def Text.blankCodes : List Nat :=
  [0x09, 0x0A, 0x0B, 0x0C, 0x0D, 0x20, 0x85, 0xA0, 0x1680, 0x2000, 0x2001, 0x2002, 0x2003, 0x2004, 0x2005, 0x2006,
    0x2007, 0x2008, 0x2009, 0x200A, 0x2028, 0x2029, 0x202F, 0x205F, 0x3000]

namespace Text

theorem mem_blankCodes {c : Char} (h : isBlank c = true) : c.toNat ∈ blankCodes := by
  simp only [isBlank, Bool.or_eq_true, Bool.and_eq_true, decide_eq_true_eq, beq_iff_eq] at h
  generalize c.toNat = n at h ⊢
  have hcontrol : 0x09 ≤ n → n ≤ 0x0D → n ∈ blankCodes := by
    intro hfrom hto
    interval_cases n <;> decide
  have hspace : 0x2000 ≤ n → n ≤ 0x200A → n ∈ blankCodes := by
    intro hfrom hto
    interval_cases n <;> decide
  rcases h with (((((((((⟨hfrom, hto⟩ | rfl) | rfl) | rfl) | rfl) | ⟨hfrom, hto⟩) | rfl) | rfl) | rfl) | rfl) | rfl
  · exact hcontrol hfrom hto
  · decide
  · decide
  · decide
  · decide
  · exact hspace hfrom hto
  all_goals decide

theorem inRanges_blankCodes : ∀ n ∈ blankCodes,
    inRanges n letterRanges = false ∧ inRanges n digitRanges = false ∧ inRanges n highLetterRanges = false := by
  decide +kernel

theorem isBlank_of_isWordChar {c : Char} (h : isWordChar c = true) : isBlank c = false := by
  by_contra hblank
  obtain ⟨hletter, hdigit, hhigh⟩ := inRanges_blankCodes _ (mem_blankCodes (Bool.not_eq_false _ ▸ hblank))
  simp [isWordChar, isDigit, hletter, hdigit, hhigh] at h

theorem toNat_of_isAlpha {c : Char} (h : c.isAlpha = true) :
    (65 ≤ c.toNat ∧ c.toNat ≤ 90) ∨ (97 ≤ c.toNat ∧ c.toNat ≤ 122) := by
  rcases (Bool.or_eq_true _ _).mp h with hupper | hlower
  · exact .inl (of_decide_eq_true hupper)
  · obtain ⟨hfrom, hto⟩ := Bool.and_eq_true_iff.1 hlower
    exact .inr ⟨of_decide_eq_true hfrom, of_decide_eq_true hto⟩

/-- The letters that a name may start with are word characters. -/
theorem isWordChar_of_isAlpha {c : Char} (h : c.isAlpha = true) : isWordChar c = true := by
  have hletter : inRanges c.toNat letterRanges = true := by
    rcases toNat_of_isAlpha h with hupper | hlower
    · exact inRanges_of_mem ascending_tables.2.1 (by decide) hupper
    · exact inRanges_of_mem ascending_tables.2.1 (by decide) hlower
  rw [isWordChar, hletter]
  rfl

/-- Blanks at the end of a text are what `skipBlanks` drops from its reverse. -/
theorem skipBlanks_reverse {before blanks : List Char} {c : Char} (hblanks : allBlank blanks = true)
    (hc : isBlank c = false) : skipBlanks (before ++ c :: blanks).reverse = c :: before.reverse := by
  have hall : ∀ b ∈ blanks.reverse, isBlank b = true := fun b hb =>
    List.all_eq_true.1 hblanks b (List.mem_reverse.1 hb)
  rw [List.reverse_append, List.reverse_cons, List.append_assoc, skipBlanks, List.dropWhile_append_of_pos hall]
  show (c :: before.reverse).dropWhile isBlank = _
  rw [List.dropWhile_cons, hc]
  rfl

theorem allBlank_of_skipBlanks {cs : List Char} (h : skipBlanks cs = []) : allBlank cs = true :=
  List.all_eq_true.2 (List.dropWhile_eq_nil_iff.1 h)

theorem takeWhile_append_skipBlanks (cs : List Char) : cs.takeWhile isBlank ++ skipBlanks cs = cs :=
  List.takeWhile_append_dropWhile

/-- The text is one character and blanks around it. -/
theorem trim_eq_singleton_iff {cs : List Char} {c : Char} (hc : isBlank c = false) :
    trim cs = [c] ↔ ∃ blanks, skipBlanks cs = c :: blanks ∧ allBlank blanks = true := by
  constructor
  · intro h
    have hlast : skipBlanks (skipBlanks cs).reverse = [c] := List.reverse_eq_iff.1 h
    have hsplit := takeWhile_append_skipBlanks (skipBlanks cs).reverse
    refine ⟨((skipBlanks cs).reverse.takeWhile isBlank).reverse, ?_, ?_⟩
    · rw [hlast] at hsplit
      rw [← List.reverse_reverse (skipBlanks cs)]
      conv => lhs; rw [← hsplit, List.reverse_append]
      rw [List.reverse_reverse]
      rfl
    · refine List.all_eq_true.2 fun b hb => ?_
      exact List.mem_takeWhile_imp (List.mem_reverse.1 hb)
  · rintro ⟨blanks, h, hblanks⟩
    have hlast : skipBlanks ([] ++ c :: blanks).reverse = [c] := skipBlanks_reverse hblanks hc
    rw [List.nil_append] at hlast
    rw [trim, trimEnd, h, hlast]
    rfl

end Text

/-! ## The last character of a token -/

/-- The character may end a token of the shape. -/
def Shape.Ends : Shape → Char → Prop
  | .sign spelling, c | .keyword spelling, c => spelling.toList.getLast? = some c
  | .decimal, c | .integer, c => isDigit c = true
  | .quotedText, c => c = '"'
  | .quotedChar, c => c = '\''
  | .name, c => c.isAlpha = true ∨ isWordChar c = true

/-- The last character of a text that ends with a run of characters is one of the run. -/
theorem getLast?_append_run {p : Char → Bool} (before : List Char) {run : List Char} (hne : run ≠ [])
    (hrun : ∀ c ∈ run, p c = true) : ∃ c, (before ++ run).getLast? = some c ∧ p c = true := by
  refine ⟨run.getLast hne, ?_, hrun _ (List.getLast_mem hne)⟩
  rw [List.getLast?_append, List.getLast?_eq_some_getLast hne, Option.some_or]

/-- A token ends as its shape says. -/
theorem Shape.ends_of_spells {sh : Shape} {text : List Char} (hw : ∀ w, sh.spelling? = some w → w.toList ≠ [])
    (h : sh.Spells text) : ∃ c, text.getLast? = some c ∧ sh.Ends c := by
  cases sh with
  | sign w | keyword w =>
    cases h
    exact ⟨_, List.getLast?_eq_some_getLast (hw w rfl), List.getLast?_eq_some_getLast (hw w rfl)⟩
  | decimal =>
    obtain ⟨minus, whole, places, rfl, -, -, hne, hplaces⟩ := h
    rw [List.append_cons, ← List.append_assoc]
    exact getLast?_append_run _ hne hplaces
  | integer =>
    obtain ⟨minus, digits, rfl, -, hne, hdigits⟩ := h
    exact getLast?_append_run _ hne hdigits
  | quotedText =>
    obtain ⟨inner, rfl, -⟩ := h
    rw [← List.cons_append]
    exact ⟨'"', List.getLast?_concat, rfl⟩
  | quotedChar =>
    obtain ⟨c, rfl, -⟩ := h
    exact ⟨'\'', rfl, rfl⟩
  | name =>
    obtain ⟨first, more, rfl, hmore, hfirst⟩ := h
    by_cases hne : more = []
    · subst hne
      exact ⟨first, rfl, .inl (hfirst.resolve_right fun h => h.2 rfl)⟩
    · obtain ⟨c, hc, hword⟩ := getLast?_append_run [first] hne hmore
      exact ⟨c, hc, .inr hword⟩

theorem Shape.ends_of_lexemeLength? {sh : Shape} {cs : List Char} {n : Nat}
    (hw : ∀ w, sh.spelling? = some w → w.toList ≠ []) (h : sh.lexemeLength? cs = some n) :
    ∃ c, (cs.take n).getLast? = some c ∧ sh.Ends c := by
  obtain ⟨text, rest, rfl, rfl, hspells, -⟩ := lexemeLength?_eq_some_iff.1 h
  rw [List.take_left]
  exact ends_of_spells hw hspells

namespace Category

theorem spelling?_last {k : Category} {w : String} (h : k.shape.spelling? = some w) :
    ∀ c ∈ w.toList.getLast?, isBlank c = false ∧ (c = '\x7b' ↔ k = .lbrace) := by
  cases k <;> simp only [shape, Shape.spelling?, Option.some.injEq, reduceCtorEq] at h <;> subst h
  all_goals
    rintro c ⟨⟩
    decide

/-- No token ends with a blank, and only an opening brace ends with one. -/
theorem last_of_ends {k : Category} {c : Char} (h : k.shape.Ends c) :
    isBlank c = false ∧ (c = '\x7b' ↔ k = .lbrace) := by
  have hbrace : isWordChar '\x7b' = false := rfl
  have hspelled : k = .lbrace → k.shape.spelling? = some "\x7b" := fun hk => hk ▸ rfl
  cases hsh : k.shape with
  | sign w => rw [hsh] at h; exact spelling?_last (by rw [hsh]; rfl) c h
  | keyword w => rw [hsh] at h; exact spelling?_last (by rw [hsh]; rfl) c h
  | decimal | integer =>
    rw [hsh] at h hspelled
    have hword := Text.isWordChar_of_isDigit h
    refine ⟨Text.isBlank_of_isWordChar hword, fun hc => ?_, fun hk => (nomatch hspelled hk)⟩
    rw [hc, hbrace] at hword
    cases hword
  | quotedText | quotedChar =>
    rw [hsh] at h hspelled
    cases h
    exact ⟨rfl, fun hc => (nomatch hc), fun hk => (nomatch hspelled hk)⟩
  | name =>
    rw [hsh] at h hspelled
    have hword := h.elim Text.isWordChar_of_isAlpha id
    refine ⟨Text.isBlank_of_isWordChar hword, fun hc => ?_, fun hk => (nomatch hspelled hk)⟩
    subst hc
    rcases h with h | h
    · cases h
    · rw [hbrace] at h
      cases h

end Category

/-! ## The last token of a line -/

namespace Scanner

/-- A lexeme behind which there is nothing but blanks is the only token. -/
theorem reading_of_firstMatch? {s : Scanner} {k : Category} {n : Nat} (h : Category.firstMatch? s.rest = some (k, n))
    (hrest : skipBlanks (s.rest.drop n) = []) : s.reading = ⟨[s.token k n], none⟩ := by
  obtain ⟨hpos, hle⟩ := Category.firstMatch?_bounds h
  have hne : s.rest.isEmpty ≠ true := fun hempty =>
    List.ne_nil_of_length_pos (Nat.lt_of_lt_of_le hpos hle) (List.isEmpty_iff.1 hempty)
  have hend : (s.after n).reading = .empty := reading_eq_empty_iff.2 hrest
  rw [reading_eq, next?, if_neg hne, h]
  show Reading.cons _ _ = _
  rw [hend]
  rfl

/-- The first token of a reading is the lexeme that the text starts with. -/
theorem next_of_reading_cons {s : Scanner} {t : Token} {r : Reading} (h : s.reading = r.cons t) :
    ∃ n, Category.firstMatch? s.rest = some (t.category, n) ∧ (s.after n).reading = r := by
  rw [reading_eq] at h
  unfold next? at h
  cases hempty : s.rest.isEmpty with
  | true => rw [hempty] at h; cases congrArg Reading.tokens h
  | false =>
    rw [hempty] at h
    cases hmatch : Category.firstMatch? s.rest with
    | none => rw [hmatch] at h; cases congrArg Reading.tokens h
    | some kn =>
      obtain ⟨k, n⟩ := kn
      rw [hmatch] at h
      obtain ⟨rfl, hr⟩ := Reading.cons_inj h
      exact ⟨n, rfl, hr⟩

end Scanner

theorem Category.lexemeLength?_of_firstMatch? {k : Category} {cs : List Char} {n : Nat}
    (h : firstMatch? cs = some (k, n)) : k.lexemeLength? cs = some n := by
  obtain ⟨k', _, hk⟩ := List.exists_of_findSome?_eq_some h
  obtain ⟨m, hm, heq⟩ := Option.map_eq_some_iff.1 hk
  cases heq
  exact hm

/-- **The last character.** Behind the last token of a text that can be read to its end there are only blanks. -/
theorem Scanner.last_of_reading {t : Token} {ts : List Token} : ∀ {s : Scanner}, s.reading = ⟨ts ++ [t], none⟩ →
    ∃ before c blanks, s.rest = before ++ c :: blanks ∧ allBlank blanks = true ∧ t.category.shape.Ends c := by
  -- The induction is on the tokens before the last one: each of them only puts text in front.
  induction ts with
  | nil =>
    intro s h
    obtain ⟨n, hmatch, hafter⟩ := next_of_reading_cons (t := t) (r := .empty) h
    have hblanks := Text.allBlank_of_skipBlanks (reading_eq_empty_iff.1 hafter)
    obtain ⟨c, hlast, hends⟩ := Shape.ends_of_lexemeLength? (fun _ hw => Category.spelling?_ne_nil hw)
      (Category.lexemeLength?_of_firstMatch? hmatch)
    obtain ⟨before, hbefore⟩ := List.getLast?_eq_some_iff.1 hlast
    refine ⟨before, c, s.rest.drop n, ?_, hblanks, hends⟩
    rw [List.append_cons, ← hbefore, List.take_append_drop]
  | cons u us ih =>
    intro s h
    obtain ⟨n, -, hafter⟩ := next_of_reading_cons (t := u) (r := ⟨us ++ [t], none⟩) h
    obtain ⟨before, c, blanks, hrest, hblanks, hends⟩ := ih hafter
    have hskip : skipBlanks (s.rest.drop n) = before ++ c :: blanks := hrest
    refine ⟨s.rest.take n ++ (s.rest.drop n).takeWhile isBlank ++ before, c, blanks, ?_, hblanks, hends⟩
    rw [List.append_assoc, List.append_assoc, ← hskip, Text.takeWhile_append_skipBlanks, List.take_append_drop]

section Lines

variable {line : List Char} {t : Token} {ts : List Token}

theorem isComment_of_readLine (h : (readLine line).tokens ≠ []) : isComment line = false := by
  by_contra hcomment
  refine h ?_
  rw [readLine_eq_empty_iff.2 (.inl (Bool.not_eq_false _ ▸ hcomment))]
  rfl

theorem ofLine_rest (h : isComment line = false) : (Scanner.ofLine line).rest = skipBlanks line := by
  rw [Scanner.ofLine, h]
  rfl

/-- A line that can be read to its end opens a block if its last token is an opening brace. -/
theorem opensBlock_iff (hline : '\n' ∉ line) (h : readLine line = ⟨ts ++ [t], none⟩) :
    opensBlock line = true ↔ t.category = .lbrace := by
  have hcomment : isComment line = false := isComment_of_readLine (by rw [h]; simp)
  obtain ⟨before, c, blanks, hrest, hblanks, hends⟩ := Scanner.last_of_reading h
  obtain ⟨hc, hbrace⟩ := Category.last_of_ends hends
  rw [ofLine_rest hcomment] at hrest
  have hsplit : line = (line.takeWhile isBlank ++ before) ++ c :: blanks := by
    rw [List.append_assoc, ← hrest, Text.takeWhile_append_skipBlanks]
  have hreverse : skipBlanks line.reverse = c :: (line.takeWhile isBlank ++ before).reverse := by
    conv => lhs; rw [hsplit]
    exact Text.skipBlanks_reverse hblanks hc
  have hnewline : '\n' ∉ (line.takeWhile isBlank ++ before).reverse := fun hmem =>
    hline (hsplit ▸ List.mem_append_left _ (List.mem_reverse.1 hmem))
  rw [← hbrace, opensBlock, hcomment, hreverse]
  constructor
  · intro hopens
    by_contra hne
    split at hopens
    · next heq => exact hne (List.cons.inj heq).1
    · cases hopens
  · rintro rfl
    show (!(line.takeWhile isBlank ++ before).reverse.contains '\n') = true
    rw [Bool.not_eq_true', Bool.eq_false_iff, ne_eq, List.contains_iff_mem]
    exact hnewline

/-- A line closes a block if a closing brace is its only token. -/
theorem closesBlock_iff : closesBlock line = true ↔ ∃ t, readLine line = ⟨[t], none⟩ ∧ t.category = .rbrace := by
  constructor
  · intro h
    simp only [closesBlock, Bool.and_eq_true, Bool.not_eq_true', beq_iff_eq] at h
    obtain ⟨hcomment, htrim⟩ := h
    obtain ⟨blanks, hskip, hblanks⟩ := (Text.trim_eq_singleton_iff rfl).1 htrim
    have hrest : (Scanner.ofLine line).rest = '\x7d' :: blanks := (ofLine_rest hcomment).trans hskip
    have hend : skipBlanks ((Scanner.ofLine line).rest.drop 1) = [] := by
      rw [hrest]
      exact List.dropWhile_eq_nil_iff.2 (List.all_eq_true.1 hblanks)
    exact ⟨_, Scanner.reading_of_firstMatch? (by rw [hrest]; rfl) hend, rfl⟩
  · rintro ⟨t, h, hbrace⟩
    have hcomment : isComment line = false := isComment_of_readLine (by rw [h]; simp)
    obtain ⟨n, hmatch, hafter⟩ := Scanner.next_of_reading_cons (t := t) (r := .empty) h
    have hblanks := Text.allBlank_of_skipBlanks (Scanner.reading_eq_empty_iff.1 hafter)
    have hlexeme := Category.lexemeLength?_of_firstMatch? hmatch
    rw [hbrace, ofLine_rest hcomment] at hlexeme
    obtain ⟨hspelled, hn⟩ := Option.ite_none_right_eq_some.1 hlexeme
    cases hn
    obtain ⟨rest, hrest⟩ := List.isPrefixOf_iff_prefix.1 hspelled
    have hskip : skipBlanks line = '\x7d' :: rest := hrest.symm
    rw [ofLine_rest hcomment, hskip] at hblanks
    rw [closesBlock, hcomment, (Text.trim_eq_singleton_iff rfl).2 ⟨rest, hskip, hblanks⟩]
    rfl

end Lines

end BlockCheck
