import BlockCheck.Proofs.Token.Insertion

/-!
# Lexemes with blanks between them

A text is a lexeme if it is read as one token that is all of it (`IsLexeme`), which says what the scanner takes where
the text starts (`isLexeme_iff`). Lexemes are written into a line with blanks of any kind between each two of them, and
with any blanks in front and at the end (`WellSpaced`). Reading the line gives them back (`readLine_written`), since a
lexeme is not longer in front of a blank than it is alone. Only two slashes could be taken for something else, and these
are never next to each other.
-/

namespace BlockCheck

open Text (Span size isBlank isSeparator allBlank)

/-! ## Lexemes -/

/-- The text alone is read as one token of category `k`, which is all of it. -/
def IsLexeme (k : Category) (text : List Char) : Prop :=
  ∃ t, readLine text = ⟨[t], none⟩ ∧ t.category = k ∧ t.span = ⟨0, size text⟩

/-- **A lexeme** does not start with a blank, and is what the scanner takes of it. -/
theorem isLexeme_iff {k : Category} {text : List Char} : IsLexeme k text ↔
    Category.firstMatch? text = some (k, text.length) ∧ ∀ c ∈ text.head?, isBlank c = false := by
  constructor
  · rintro ⟨t, hread, rfl, hspan⟩
    have hcomment : isComment text = false := isComment_of_readLine (by rw [hread]; simp)
    have hscan := (scansAs_line_iff hcomment).2 hread
    generalize hr : Reading.mk [t] none = r at hscan
    cases hscan with
    | stop | unknown => cases hr
    | @token _ gap part after k r _ hpart hmatch _ =>
      obtain ⟨rfl, -⟩ := Reading.cons_inj (r := .empty) hr
      -- The span starts with the text and is as long, so nothing stands around the part.
      obtain ⟨hoffset, hlength⟩ := Span.mk.injEq .. ▸ hspan
      simp only [Text.size_append] at hlength
      obtain rfl : gap = [] := Text.size_eq_zero.1 (by omega)
      obtain rfl : after = [] := Text.size_eq_zero.1 (by omega)
      rw [List.append_nil] at hmatch ⊢
      exact ⟨hmatch, hpart⟩
  · rintro ⟨hmatch, hhead⟩
    have hcomment := Category.isComment_of_spells (Category.spells_of_firstMatch? hmatch)
    have hfirst : Category.firstMatch? (text ++ []) = some (k, text.length) := by rwa [List.append_nil]
    have hscan : ScansAs 0 ([] ++ (text ++ [])) _ := .token rfl hhead hfirst (.stop rfl)
    rw [List.append_nil, List.nil_append] at hscan
    exact ⟨_, (scansAs_line_iff hcomment).1 hscan, rfl, rfl⟩

/-! ## Lines of lexemes -/

/-- A lexeme and the blanks in front of it. -/
structure SpacedLexeme where
  gap : List Char
  category : Category
  chars : List Char

namespace SpacedLexeme

def text (l : SpacedLexeme) : List Char := l.gap ++ l.chars

/-- The lexemes one after another, and blanks behind the last one. -/
def written (ls : List SpacedLexeme) (last : List Char) : List Char := ls.flatMap text ++ last

/-- The tokens that the lexemes are, after `n` bytes of their line. -/
def placed (n : Nat) : List SpacedLexeme → List Token
  | [] => []
  | l :: ls => .ofPart l.category l.chars (n + size l.gap) :: placed (n + size l.gap + size l.chars) ls

/-- The lexemes have blanks between them, and there is nothing but blanks besides them. -/
structure WellSpaced (ls : List SpacedLexeme) (last : List Char) : Prop where
  lexemes : ∀ l ∈ ls, IsLexeme l.category l.chars
  blank : ∀ l ∈ ls, allBlank l.gap = true
  apart : ∀ l ∈ ls.tail, l.gap ≠ []
  last_blank : allBlank last = true

variable {l : SpacedLexeme} {ls : List SpacedLexeme} {last : List Char}

theorem written_cons (l : SpacedLexeme) (ls : List SpacedLexeme) (last : List Char) :
    written (l :: ls) last = l.gap ++ (l.chars ++ written ls last) := by
  rw [written, List.flatMap_cons, text, List.append_assoc, List.append_assoc]
  rfl

theorem length_placed (n : Nat) (ls : List SpacedLexeme) : (placed n ls).length = ls.length := by
  induction ls generalizing n with
  | nil => rfl
  | cons l ls ih => rw [placed, List.length_cons, ih, List.length_cons]

/-- The place of a lexeme is behind all in front of it. -/
theorem getElem?_placed (n i : Nat) (ls : List SpacedLexeme) : (placed n ls)[i]? =
    ls[i]?.map fun l => Token.ofPart l.category l.chars (n + size ((ls.take i).flatMap text ++ l.gap)) := by
  induction ls generalizing n i with
  | nil => rfl
  | cons l ls ih =>
    cases i with
    | zero => rfl
    | succ i =>
      rw [placed, List.getElem?_cons_succ, List.getElem?_cons_succ, ih]
      simp only [List.take_succ_cons, List.flatMap_cons, text, List.append_assoc, Text.size_append, Nat.add_assoc]

namespace WellSpaced

theorem tail (h : WellSpaced (l :: ls) last) : WellSpaced ls last where
  lexemes := fun l' hl' => h.lexemes l' (List.mem_cons_of_mem l hl')
  blank := fun l' hl' => h.blank l' (List.mem_cons_of_mem l hl')
  apart := fun l' hl' => h.apart l' (List.mem_of_mem_tail hl')
  last_blank := h.last_blank

/-- A lexeme is followed by a blank. -/
theorem isBlank_head (h : WellSpaced (l :: ls) last) : ∀ c ∈ (written ls last).head?, isBlank c = true := by
  cases ls with
  | nil => exact fun c hc => List.all_eq_true.1 h.last_blank c (List.mem_of_mem_head? hc)
  | cons l' ls =>
    intro c hc
    have hgap := h.blank l' (List.mem_cons_of_mem l List.mem_cons_self)
    rw [written_cons, List.head?_append_of_ne_nil _ (h.apart l' List.mem_cons_self)] at hc
    exact List.all_eq_true.1 hgap c (List.mem_of_mem_head? hc)

/-- **The line falls apart into the lexemes.** -/
theorem scansAs (h : WellSpaced ls last) (n : Nat) : ScansAs n (written ls last) ⟨placed n ls, none⟩ := by
  induction ls generalizing n with
  | nil => exact .stop h.last_blank
  | cons l ls ih =>
    obtain ⟨hmatch, hhead⟩ := isLexeme_iff.1 (h.lexemes l List.mem_cons_self)
    have halone : Category.firstMatch? (l.chars ++ []) = some (l.category, l.chars.length) := by rwa [List.append_nil]
    have hfirst := Category.firstMatch?_append halone fun c hc => Text.isSeparator_of_isBlank (h.isBlank_head c hc)
    rw [written_cons]
    exact .token (h.blank l List.mem_cons_self) hhead hfirst (ih h.tail _)

/-- No two slashes stand next to each other at the beginning. -/
theorem isComment_written (h : WellSpaced ls last) : isComment (written ls last) = false := by
  have hblank : ∀ {gap rest : List Char}, allBlank gap = true → gap ≠ [] → isComment (gap ++ rest) = false := by
    intro gap rest hgap hne
    obtain ⟨c, gap, rfl⟩ := List.exists_cons_of_ne_nil hne
    rw [Bool.eq_false_iff]
    intro hcomment
    obtain ⟨tail, htail⟩ := isComment_iff.1 hcomment
    obtain ⟨rfl, -⟩ := List.cons.inj htail
    cases List.all_eq_true.1 hgap '/' List.mem_cons_self
  cases ls with
  | nil =>
    by_cases hlast : last = []
    · rw [hlast]
      rfl
    · have hfront : isComment (last ++ []) = false := hblank h.last_blank hlast
      rwa [List.append_nil] at hfront
  | cons l ls =>
    rw [written_cons]
    by_cases hgap : l.gap = []
    · obtain ⟨hmatch, -⟩ := isLexeme_iff.1 (h.lexemes l List.mem_cons_self)
      have hpos := (Category.firstMatch?_bounds hmatch).1
      rw [hgap, List.nil_append]
      refine isComment_append (Category.isComment_of_spells (Category.spells_of_firstMatch? hmatch))
        (List.ne_nil_of_length_pos hpos) fun hslash => ?_
      cases h.isBlank_head '/' hslash
    · exact hblank (h.blank l List.mem_cons_self) hgap

end WellSpaced

end SpacedLexeme

open SpacedLexeme

/-- **Reading undoes writing.** A line of lexemes with blanks between them is read without a failure as the lexemes: one
token each, of its category, with its characters if tokens of the category keep them, and with its place in the line. -/
theorem readLine_written {ls : List SpacedLexeme} {last : List Char} (h : WellSpaced ls last) :
    (readLine (written ls last)).failure = none ∧ (readLine (written ls last)).tokens.length = ls.length ∧
    ∀ (i : Nat) (l : SpacedLexeme), ls[i]? = some l → (readLine (written ls last)).tokens[i]? = some
      { category := l.category
        text := if l.category.keepsText then some (String.ofList l.chars) else none
        span := ⟨size ((ls.take i).flatMap SpacedLexeme.text ++ l.gap), size l.chars⟩ } := by
  have hread := (scansAs_line_iff h.isComment_written).1 (h.scansAs 0)
  rw [hread]
  refine ⟨rfl, length_placed 0 ls, fun i l hl => ?_⟩
  show (placed 0 ls)[i]? = _
  rw [getElem?_placed, hl, Option.map_some, Nat.zero_add]
  rfl

/-- Two slashes at the beginning are no comment where a blank stands between them, and the quoted slashes behind them
are one token with the blank in it. -/
theorem readLine_written_slashes : ∃ ls last, WellSpaced ls last ∧
    written ls last = "/ /\t\u3000\" //\"\n' '\u2028".toList ∧
    (readLine (written ls last)).failure = none ∧ (readLine (written ls last)).tokens.length = 4 ∧
    (readLine (written ls last)).tokens[2]? = some ⟨.stringLiteral, some "\" //\"", ⟨7, 5⟩⟩ := by
  have hslash : IsLexeme .slash ['/'] := ⟨⟨.slash, none, ⟨0, 1⟩⟩, by decide +kernel, rfl, rfl⟩
  have hquoted : IsLexeme .stringLiteral "\" //\"".toList :=
    ⟨⟨.stringLiteral, some "\" //\"", ⟨0, 5⟩⟩, by decide +kernel, rfl, rfl⟩
  have hblank : IsLexeme .charLiteral "' '".toList := ⟨⟨.charLiteral, some "' '", ⟨0, 3⟩⟩, by decide +kernel, rfl, rfl⟩
  let ls : List SpacedLexeme := [⟨[], .slash, ['/']⟩, ⟨[' '], .slash, ['/']⟩,
    ⟨['\t', '\u3000'], .stringLiteral, "\" //\"".toList⟩, ⟨['\n'], .charLiteral, "' '".toList⟩]
  have hlexemes : ∀ l ∈ ls, IsLexeme l.category l.chars :=
    List.forall_mem_cons.2 ⟨hslash, List.forall_mem_cons.2 ⟨hslash, List.forall_mem_cons.2
      ⟨hquoted, List.forall_mem_singleton.2 hblank⟩⟩⟩
  have hspaced : WellSpaced ls ['\u2028'] := ⟨hlexemes, by decide, by decide, by decide⟩
  obtain ⟨hfailure, hlength, htokens⟩ := readLine_written hspaced
  exact ⟨ls, ['\u2028'], hspaced, by decide, hfailure, hlength, htokens 2 _ rfl⟩

end BlockCheck
