import BlockCheck.Proofs.Token.Pieces
import BlockCheck.Proofs.Token.Layout

/-!
# The longest match

The scanner takes the first category in priority order that matches, and no other category matches more
(`Category.le_of_firstMatch?`). The first character tells which categories can match. Behind a letter or an underscore
these are the keywords and the names, which all take the whole word (`Category.eq_wordRun_of_startsWord`). A number and
its minus may match, and a decimal number is longer than an integer, which is longer than a minus, so here the order of
the categories matters (`Category.idxOf_le_of_firstMatch?`). Every other character starts tokens of one category only
(`Category.eq_of_opening?`).
-/

namespace BlockCheck

open Text (Span size isDigit isWordChar atWordEnd digitRun wordRun)

/-! ## First characters -/

/-- A word that starts with the character is a keyword or a name. -/
def Text.startsWord (c : Char) : Bool := c.isAlpha || c == '_'

/-- A token that starts with the character may be a number. -/
def Text.startsNumber (c : Char) : Bool := c == '-' || isDigit c

open Text (startsWord startsNumber)

theorem Text.isDigit_of_startsWord {c : Char} (h : startsWord c = true) : isDigit c = false := by
  have hranges : ∀ r ∈ Text.digitRanges, r.2 < 65 ∨ 122 < r.1 := by decide +kernel
  rcases Bool.or_eq_true_iff.1 h with halpha | hunderscore
  · have hletter := Text.toNat_of_isAlpha halpha
    refine Text.inRanges_eq_false Text.ascending_tables.1 fun r hr => ?_
    have hrange := hranges r hr
    omega
  · rw [beq_iff_eq.1 hunderscore]
    rfl

theorem Text.isWordChar_of_startsWord {c : Char} (h : startsWord c = true) : isWordChar c = true := by
  rcases Bool.or_eq_true_iff.1 h with halpha | hunderscore
  · exact isWordChar_of_isAlpha halpha
  · rw [beq_iff_eq.1 hunderscore]
    rfl

namespace Category

/-- The one character that starts the tokens of the category, which are signs or quoted. -/
def opening? (k : Category) : Option Char :=
  match k.shape with
  | .sign spelling => spelling.toList.head?
  | .quotedText => some '"'
  | .quotedChar => some '\''
  | .keyword _ | .decimal | .integer | .name => none

variable {k j : Category} {cs part rest : List Char} {c : Char} {n m : Nat}

/-- No two categories have the same shape. -/
theorem shape_injective : Function.Injective shape := by
  have hfind : ∀ k : Category, priority.find? (fun j => j.shape == k.shape) = some k := fun k => by cases k <;> decide
  intro k j h
  have hk := hfind k
  rw [h, hfind j] at hk
  exact (Option.some.inj hk).symm

/-- A character that opens the tokens of a category opens those of no other. -/
theorem eq_of_opening? (hk : k.opening? = some c) (hj : j.opening? = some c) : k = j := by
  have hfind : ∀ {k : Category}, k.opening? = some c → priority.find? (fun j => j.opening? == some c) = some k := by
    intro k hk
    cases k <;> first | cases hk; decide | cases hk
  exact Option.some.inj ((hfind hk).symm.trans (hfind hj))

/-- The spelling of a keyword is a word, that of a sign starts with a character that starts none. -/
theorem startsWord_spelling {w : String} (h : k.shape.spelling? = some w) :
    (∀ c ∈ w.toList.head?, startsWord c = k.shape.endsWord) ∧
      (k.shape.endsWord = true → ∀ c ∈ w.toList, isWordChar c = true) := by
  have hall : (w.toList.head?.all fun c => startsWord c == k.shape.endsWord) = true ∧
      (k.shape.endsWord = true → w.toList.all isWordChar = true) := by
    cases k <;> simp only [shape, Shape.spelling?, Option.some.injEq, reduceCtorEq] at h <;> subst h <;> decide +kernel
  refine ⟨fun c hc => ?_, fun hends => List.all_eq_true.1 (hall.2 hends)⟩
  simpa [Option.mem_def.1 hc] using hall.1

/-- A character that starts neither a word nor a number opens the tokens that start with it. -/
theorem opening?_of_starts (h : k.shape.Starts c) (hword : startsWord c = false) (hnumber : startsNumber c = false) :
    k.opening? = some c := by
  have hspelling : ∀ w, k.shape.spelling? = some w → _ := fun _ => startsWord_spelling
  obtain ⟨hminus, hdigit⟩ := Bool.or_eq_false_iff.1 hnumber
  unfold opening?
  cases hsh : k.shape with
  | sign w => rw [hsh] at h; exact h
  | keyword w =>
    rw [hsh] at h hspelling
    have hstarts := (hspelling w rfl).1 c h
    rw [hword] at hstarts
    cases hstarts
  | decimal | integer =>
    rw [hsh] at h
    rcases h with rfl | h
    · cases hminus
    · rw [hdigit] at h
      cases h
  | quotedText | quotedChar => rw [hsh] at h; exact congrArg some h.symm
  | name =>
    rw [hsh] at h
    rw [startsWord, Bool.or_eq_false_iff, beq_eq_false_iff_ne] at hword
    rcases h with h | h
    · rw [hword.1] at h
      cases h
    · exact absurd h hword.2

/-! ## Words -/

/-- A token that starts like a word is a keyword or a name. -/
theorem keyword_or_name_of_starts (h : k.shape.Starts c) (hc : startsWord c = true) :
    (∃ w, k.shape = .keyword w) ∨ k = .identifier := by
  cases hsh : k.shape with
  | sign w =>
    have hspelling := startsWord_spelling (k := k) (w := w) (by rw [hsh]; rfl)
    rw [hsh] at h hspelling
    have hstarts := hspelling.1 c h
    rw [hc] at hstarts
    cases hstarts
  | keyword w => exact .inl ⟨w, rfl⟩
  | decimal | integer =>
    rw [hsh] at h
    rcases h with rfl | h
    · cases hc
    · rw [Text.isDigit_of_startsWord hc] at h
      cases h
  | quotedText | quotedChar =>
    rw [hsh] at h
    cases h
    cases hc
  | name => exact .inr (shape_injective hsh)

/-- A token that starts like a word is one. -/
theorem word_of_spells (h : k.shape.Spells (c :: part)) (hc : startsWord c = true)
    (hk : (∃ w, k.shape = .keyword w) ∨ k = .identifier) :
    (∀ d ∈ c :: part, isWordChar d = true) ∧ k.shape.endsWord = true := by
  rcases hk with ⟨w, hw⟩ | rfl
  · have hspelling := startsWord_spelling (k := k) (w := w) (by rw [hw]; rfl)
    rw [hw] at h hspelling ⊢
    refine ⟨?_, rfl⟩
    rw [h]
    exact hspelling.2 rfl
  · obtain ⟨first, more, htext, hmore, -⟩ := h
    obtain ⟨rfl, rfl⟩ := List.cons.inj htext
    exact ⟨List.forall_mem_cons.2 ⟨Text.isWordChar_of_startsWord hc, hmore⟩, rfl⟩

/-- What matches at the beginning of a word is all of the word. -/
theorem eq_wordRun_of_startsWord (h : k.lexemeLength? (c :: rest) = some n) (hc : startsWord c = true) :
    n = wordRun (c :: rest) ∧ ((∃ w, k.shape = .keyword w) ∨ k = .identifier) := by
  obtain ⟨part, after, hsplit, rfl, hspells, hend⟩ := Shape.lexemeLength?_eq_some_iff.1 h
  obtain ⟨d, part, rfl, hstarts⟩ := Shape.starts_of_spells (fun _ hw => spelling?_ne_nil hw) hspells
  obtain ⟨rfl, -⟩ := List.cons.inj hsplit
  have hk := keyword_or_name_of_starts hstarts hc
  obtain ⟨hword, hends⟩ := word_of_spells hspells hc hk
  rw [hsplit, Text.wordRun_append hword (hend hends)]
  exact ⟨rfl, hk⟩

/-! ## Numbers -/

/-- What matches at the beginning of a number is a number or a minus. -/
theorem mem_of_startsNumber (h : k.shape.Starts c) (hc : startsNumber c = true) :
    k ∈ [Category.doubleLiteral, .intLiteral, .minus] := by
  have hspelling : ∀ w, k.shape.spelling? = some w → ∀ c ∈ w.toList.head?, startsNumber c = true →
      k ∈ [Category.doubleLiteral, .intLiteral, .minus] := by
    intro w hw
    cases k <;> simp only [shape, Shape.spelling?, Option.some.injEq, reduceCtorEq] at hw <;> subst hw
    all_goals
      rintro c ⟨⟩
      decide
  cases hsh : k.shape with
  | sign w | keyword w => rw [hsh] at h hspelling; exact hspelling w rfl c h hc
  | decimal | integer =>
    clear hspelling h hc
    revert hsh
    cases k <;> decide
  | quotedText | quotedChar =>
    rw [hsh] at h
    cases h
    cases hc
  | name =>
    rw [hsh] at h
    have hword : startsWord c = true := by simpa [startsWord, Shape.Starts] using h
    rcases Bool.or_eq_true_iff.1 hc with hminus | hdigit
    · rw [beq_iff_eq.1 hminus] at hword
      cases hword
    · rw [Text.isDigit_of_startsWord hword] at hdigit
      cases hdigit

/-- A decimal number is longer than the integer that it starts with. -/
theorem integerLength?_lt_decimalLength? (hdecimal : decimalLength? cs = some n)
    (hinteger : integerLength? cs = some m) : m < n := by
  simp only [integerLength?, Option.ite_none_right_eq_some, Option.some.injEq] at hinteger
  simp only [decimalLength?] at hdecimal
  split at hdecimal
  · simp only [Option.ite_none_right_eq_some, Option.some.injEq] at hdecimal
    omega
  · cases hdecimal

theorem length_minus (h : Category.minus.lexemeLength? cs = some n) : n = 1 :=
  (Option.some.inj (Option.ite_none_right_eq_some.1 h).2).symm

/-! ## The order of the categories -/

/-- Of the categories that match, the one that is taken comes first. -/
theorem idxOf_le_of_firstMatch? (h : firstMatch? cs = some (k, n)) (hj : j.lexemeLength? cs = some m) :
    priority.idxOf k ≤ priority.idxOf j := by
  obtain ⟨before, k', after, hpriority, hmatch, hbefore⟩ := List.findSome?_eq_some_iff.1 h
  obtain ⟨n', hk, heq⟩ := Option.map_eq_some_iff.1 hmatch
  cases heq
  have hnotMem : ∀ {i : Category} {l : Nat}, i.lexemeLength? cs = some l → i ∉ before := by
    intro i l hi hmem
    have hnone := hbefore i hmem
    rw [hi] at hnone
    cases hnone
  rw [hpriority, List.idxOf_append_of_notMem (hnotMem hk), List.idxOf_append_of_notMem (hnotMem hj),
    List.idxOf_cons_self]
  exact Nat.add_le_add_left (Nat.zero_le _) _

/-- **The first match is a longest one.** -/
theorem le_of_firstMatch? (h : firstMatch? cs = some (k, n)) (hj : j.lexemeLength? cs = some m) : m ≤ n := by
  have hk := lexemeLength?_of_firstMatch? h
  have horder := idxOf_le_of_firstMatch? h hj
  have hstarts : ∀ {i : Category} {l : Nat}, i.lexemeLength? cs = some l →
      ∃ c rest, cs = c :: rest ∧ i.shape.Starts c := by
    intro i l hi
    obtain ⟨part, after, rfl, -, hspells, -⟩ := Shape.lexemeLength?_eq_some_iff.1 hi
    obtain ⟨c, more, rfl, hc⟩ := Shape.starts_of_spells (fun _ hw => spelling?_ne_nil hw) hspells
    exact ⟨c, more ++ after, rfl, hc⟩
  obtain ⟨c, rest, rfl, hkc⟩ := hstarts hk
  obtain ⟨_, _, heq, hjc⟩ := hstarts hj
  cases heq
  by_cases hword : startsWord c = true
  · rw [(eq_wordRun_of_startsWord hj hword).1, (eq_wordRun_of_startsWord hk hword).1]
  by_cases hnumber : startsNumber c = true
  · -- The order of the categories leaves the cases in which the category that is taken has the longer tokens.
    have hpos := (firstMatch?_bounds h).1
    have hmk := mem_of_startsNumber hkc hnumber
    have hmj := mem_of_startsNumber hjc hnumber
    simp only [List.mem_cons, List.not_mem_nil, or_false] at hmk hmj
    rcases hmk with rfl | rfl | rfl <;> rcases hmj with rfl | rfl | rfl
    · exact (Option.some.inj (hj.symm.trans hk)).le
    · exact (integerLength?_lt_decimalLength? hk hj).le
    · rw [length_minus hj]
      exact hpos
    · exact absurd horder (by decide)
    · exact (Option.some.inj (hj.symm.trans hk)).le
    · rw [length_minus hj]
      exact hpos
    · exact absurd horder (by decide)
    · exact absurd horder (by decide)
    · exact (Option.some.inj (hj.symm.trans hk)).le
  · have hword := Bool.eq_false_iff.2 hword
    have hnumber := Bool.eq_false_iff.2 hnumber
    cases eq_of_opening? (opening?_of_starts hkc hword hnumber) (opening?_of_starts hjc hword hnumber)
    exact (Option.some.inj (hj.symm.trans hk)).le

/-! ## Keywords and names -/

theorem idxOf_keyword_lt {w : String} (h : k.shape = .keyword w) : priority.idxOf k < priority.idxOf .identifier := by
  cases k <;> first | decide | cases h

/-- The category is a keyword exactly if the word is spelled as that keyword, and that of names for any other word. -/
def IsOfWord (k : Category) (word : List Char) : Prop :=
  (∀ (j : Category) (w : String), j.shape = .keyword w → (k = j ↔ word = w.toList)) ∧
    ((∀ (j : Category) (w : String), j.shape = .keyword w → word ≠ w.toList) → k = .identifier)

/-- **A word that is spelled as a keyword is that keyword**, and every other word is a name. -/
theorem isOfWord_of_firstMatch? (h : firstMatch? (part ++ rest) = some (k, part.length))
    (hstart : ∀ c ∈ part.head?, startsWord c = true) : k.IsOfWord part := by
  obtain ⟨text, after, hsplit, hlength, hspells, hend⟩ :=
    Shape.lexemeLength?_eq_some_iff.1 (lexemeLength?_of_firstMatch? h)
  obtain ⟨rfl, rfl⟩ := List.append_inj hsplit hlength.symm
  obtain ⟨c, more, rfl, hstarts⟩ := Shape.starts_of_spells (fun _ hw => spelling?_ne_nil hw) hspells
  have hk := keyword_or_name_of_starts hstarts (hstart c rfl)
  obtain ⟨-, hends⟩ := word_of_spells hspells (hstart c rfl) hk
  have hspelled : ∀ w, k.shape = .keyword w → c :: more = w.toList := fun w hw => by
    rw [hw] at hspells
    exact hspells
  refine ⟨fun j w hj => ⟨?_, fun hpart => ?_⟩, fun hnone => ?_⟩
  · rintro rfl
    exact hspelled w hj
  · -- The keyword matches as well, so it is not behind the category that is taken.
    have hmatch : j.lexemeLength? (c :: more ++ rest) = some (c :: more).length :=
      Shape.lexemeLength?_eq_some_iff.2 ⟨_, rest, rfl, rfl, by rw [hj]; exact hpart, fun _ => hend hends⟩
    rcases hk with ⟨w', hk⟩ | rfl
    · have hsame : w' = w := String.toList_inj.1 ((hspelled w' hk).symm.trans hpart)
      exact shape_injective (hk.trans (hsame ▸ hj.symm))
    · have horder := idxOf_le_of_firstMatch? h hmatch
      have hbefore := idxOf_keyword_lt hj
      omega
  · rcases hk with ⟨w, hk⟩ | hk
    · exact absurd (hspelled w hk) (hnone k w hk)
    · exact hk

end Category

/-! ## The tokens of a line -/

/-- The token is the part of the line between the two others. It is the longest that could be taken there; if it starts
like a word it takes the whole word, and is a keyword exactly if it is spelled as one; and no word goes on behind it if
it is a keyword, a name or a number. -/
structure Token.LongestAt (t : Token) (line before part after : List Char) : Prop where
  line_eq : line = before ++ (part ++ after)
  span_eq : t.span = ⟨size before, size part⟩
  first : Category.firstMatch? (part ++ after) = some (t.category, part.length)
  longest : ∀ (k : Category) n, k.lexemeLength? (part ++ after) = some n → n ≤ part.length
  word : (∃ c more, part = c :: more ∧ startsWord c = true) →
    part = (part ++ after).takeWhile isWordChar ∧ t.category.IsOfWord part
  wordEnd : t.category.shape.endsWord = true → ∀ c ∈ after.head?, isWordChar c = false

theorem Token.LongestAt.of_firstMatch? {t : Token} {line before part after : List Char}
    (hline : line = before ++ (part ++ after)) (hspan : t.span = ⟨size before, size part⟩)
    (h : Category.firstMatch? (part ++ after) = some (t.category, part.length)) :
    t.LongestAt line before part after := by
  have hmatch := Category.lexemeLength?_of_firstMatch? h
  refine ⟨hline, hspan, h, fun k n hk => Category.le_of_firstMatch? h hk, ?_, fun hends => ?_⟩
  · rintro ⟨c, more, rfl, hc⟩
    refine ⟨?_, Category.isOfWord_of_firstMatch? h fun d hd => by cases hd; exact hc⟩
    have hrun := (Category.eq_wordRun_of_startsWord hmatch hc).1
    have hsplit := List.takeWhile_append_dropWhile (p := isWordChar) (l := c :: more ++ after)
    exact (List.append_inj hsplit hrun.symm).1.symm
  · obtain ⟨text, rest, hsplit, hlength, -, hend⟩ := Shape.lexemeLength?_eq_some_iff.1 hmatch
    obtain ⟨rfl, rfl⟩ := List.append_inj hsplit hlength.symm
    exact Text.atWordEnd_iff.1 (hend hends)

theorem ScansAs.longestAt {n : Nat} {cs line : List Char} {r : Reading} (h : ScansAs n cs r) :
    ∀ before, line = before ++ cs → size before = n →
      ∀ t ∈ r.tokens, ∃ before part after, t.LongestAt line before part after := by
  induction h with
  | stop _ | unknown _ _ _ _ _ => simp [Reading.empty]
  | @token n gap part after k r _ _ hmatch _ ih =>
    rintro before rfl rfl t ht
    rcases List.mem_cons.1 ht with rfl | ht
    · refine ⟨before ++ gap, part, after, .of_firstMatch? (by simp) ?_ hmatch⟩
      rw [Text.size_append]
      rfl
    · exact ih (before ++ gap ++ part) (by simp) (by simp [Nat.add_assoc]) t ht

/-- **The order of the categories takes the longest lexemes.** Wherever a category is the first one that matches, no
category matches more, and so every token of a line is the longest at its place. Words are not cut: a token that starts
with a letter or an underscore is the whole word, a keyword exactly if the word is spelled as one and a name otherwise,
and no word character follows a keyword, a name or a number. -/
theorem first_match_longest (line : List Char) :
    (∀ cs k n, Category.firstMatch? cs = some (k, n) → ∀ (j : Category) m, j.lexemeLength? cs = some m → m ≤ n) ∧
    ∀ t ∈ (readLine line).tokens, ∃ before part after, t.LongestAt line before part after := by
  refine ⟨fun cs k n h j m => Category.le_of_firstMatch? h, ?_⟩
  cases hcomment : isComment line with
  | true =>
    have hempty : readLine line = .empty := readLine_eq_empty_iff.2 (.inl hcomment)
    rw [hempty]
    exact nofun
  | false => exact ((scansAs_line_iff hcomment).2 rfl).longestAt [] rfl rfl

end BlockCheck
