import BlockCheck.Token.Scanner
import Mathlib.Data.List.TakeWhile

/-!
# How tokens are spelled

The scanner measures tokens in front of a text that goes on. What it takes is a token by itself, as the shape spells it
(`Shape.Spells`), and all that matters of the rest is that no word goes on into it (`Shape.lexemeLength?_eq_some_iff`).
-/

namespace BlockCheck

open Text (isDigit isWordChar atWordEnd digitRun wordRun)

/-! ## Runs of characters -/

namespace Text

variable {p : Char → Bool} {run rest : List Char}

/-- A run of characters ends where one follows that is not of their kind. -/
theorem takeWhile_run (hrun : ∀ c ∈ run, p c = true) (hrest : ∀ c ∈ rest.head?, p c = false) :
    (run ++ rest).takeWhile p = run := by
  rw [List.takeWhile_append_of_pos hrun]
  cases rest with
  | nil => simp
  | cons c rest => simp [hrest c rfl]

theorem drop_run (p : Char → Bool) (cs : List Char) : cs.drop (cs.takeWhile p).length = cs.dropWhile p := by
  conv => lhs; arg 2; rw [← List.takeWhile_append_dropWhile (p := p) (l := cs)]
  exact List.drop_left

theorem atWordEnd_iff {cs : List Char} : atWordEnd cs = true ↔ ∀ c ∈ cs.head?, isWordChar c = false := by
  cases cs with
  | nil => simp [atWordEnd]
  | cons c cs => simp [atWordEnd]

theorem wordRun_append (hrun : ∀ c ∈ run, isWordChar c = true) (hrest : atWordEnd rest = true) :
    wordRun (run ++ rest) = run.length := by
  rw [wordRun, takeWhile_run hrun (atWordEnd_iff.1 hrest)]

theorem digitRun_append (hrun : ∀ c ∈ run, isDigit c = true) (hrest : ∀ c ∈ rest.head?, isDigit c = false) :
    digitRun (run ++ rest) = run.length := by
  rw [digitRun, takeWhile_run hrun hrest]

/-- No number goes on where no word does. -/
theorem isDigit_of_atWordEnd (h : atWordEnd rest = true) : ∀ c ∈ rest.head?, isDigit c = false := by
  intro c hc
  have hword := atWordEnd_iff.1 h c hc
  by_contra hdigit
  rw [isWordChar_of_isDigit (Bool.not_eq_false _ ▸ hdigit)] at hword
  cases hword

end Text

/-! ## Spellings -/

/-- One or more digits. -/
def IsNumeral (cs : List Char) : Prop := cs ≠ [] ∧ ∀ c ∈ cs, isDigit c = true

/-- A minus or nothing. -/
def IsMinus (cs : List Char) : Prop := cs = [] ∨ cs = ['-']

namespace Shape

/-- The text is a token of the shape. -/
def Spells : Shape → List Char → Prop
  | .sign spelling, text | .keyword spelling, text => text = spelling.toList
  | .decimal, text => ∃ minus whole places, text = minus ++ (whole ++ '.' :: places) ∧ IsMinus minus ∧
      IsNumeral whole ∧ IsNumeral places
  | .integer, text => ∃ minus digits, text = minus ++ digits ∧ IsMinus minus ∧ IsNumeral digits
  | .quotedText, text => ∃ inner, text = '"' :: (inner ++ ['"']) ∧ ∀ c ∈ inner, isQuotable c = true
  | .quotedChar, text => ∃ c, text = ['\'', c, '\''] ∧ c ≠ '\'' ∧ c ≠ '\\'
  | .name, text => ∃ first more, text = first :: more ∧ (∀ c ∈ more, isWordChar c = true) ∧
      (first.isAlpha = true ∨ first = '_' ∧ more ≠ [])

/-- A token of the shape ends a word. -/
def endsWord : Shape → Bool
  | .keyword _ | .decimal | .integer | .name => true
  | .sign _ | .quotedText | .quotedChar => false

end Shape

/-! ## Numbers -/

section Numbers

variable {minus whole digits places rest : List Char} {cs : List Char} {n : Nat}

/-- Every text starts with a minus or none, and digits or none. -/
theorem exists_number (cs : List Char) : ∃ minus digits rest, cs = minus ++ (digits ++ rest) ∧ IsMinus minus ∧
    minusLength cs = minus.length ∧ digitRun (digits ++ rest) = digits.length ∧ ∀ c ∈ digits, isDigit c = true := by
  have hdigits : ∀ rest : List Char, ∃ digits rest', rest = digits ++ rest' ∧
      digitRun (digits ++ rest') = digits.length ∧ ∀ c ∈ digits, isDigit c = true := fun rest =>
    ⟨rest.takeWhile isDigit, rest.dropWhile isDigit, List.takeWhile_append_dropWhile.symm,
      by rw [List.takeWhile_append_dropWhile]; rfl, fun c hc => List.mem_takeWhile_imp hc⟩
  unfold minusLength
  split
  · next tail =>
    obtain ⟨digits, rest, rfl, hrun, hall⟩ := hdigits tail
    exact ⟨['-'], digits, rest, rfl, .inr rfl, rfl, hrun, hall⟩
  · obtain ⟨digits, rest, hsplit, hrun, hall⟩ := hdigits cs
    exact ⟨[], digits, rest, hsplit, .inl rfl, rfl, hrun, hall⟩

theorem minusLength_append (hminus : IsMinus minus) (hdigits : IsNumeral digits) :
    minusLength (minus ++ (digits ++ rest)) = minus.length := by
  rcases hminus with rfl | rfl
  · obtain ⟨d, ds, rfl⟩ := List.exists_cons_of_ne_nil hdigits.1
    have hd : d ≠ '-' := by
      rintro rfl
      have hminus : isDigit '-' = false := rfl
      rw [hdigits.2 '-' List.mem_cons_self] at hminus
      cases hminus
    unfold minusLength
    split
    · next heq => exact absurd (List.cons.inj heq).1 hd
    · rfl
  · rfl

theorem drop_number (minus digits rest : List Char) :
    (minus ++ (digits ++ rest)).drop (minus.length + digits.length) = rest := by
  rw [← List.append_assoc, ← List.length_append, List.drop_left]

end Numbers

/-! ## What the scanner measures -/

section Lexemes

variable {cs text rest : List Char} {n : Nat}

theorem integerLength?_eq_some_iff : integerLength? cs = some n ↔ ∃ text rest, cs = text ++ rest ∧ text.length = n ∧
    Shape.integer.Spells text ∧ atWordEnd rest = true := by
  constructor
  · intro h
    obtain ⟨minus, digits, rest, rfl, hminus, hlength, hrun, hall⟩ := exists_number cs
    simp only [integerLength?, hlength, List.drop_left, hrun, drop_number, Option.ite_none_right_eq_some,
      Bool.and_eq_true, decide_eq_true_eq, Option.some.injEq] at h
    obtain ⟨⟨hpos, hrest⟩, rfl⟩ := h
    refine ⟨minus ++ digits, rest, (List.append_assoc _ _ _).symm, List.length_append, ?_, hrest⟩
    exact ⟨minus, digits, rfl, hminus, List.ne_nil_of_length_pos hpos, hall⟩
  · rintro ⟨_, rest, rfl, rfl, ⟨minus, digits, rfl, hminus, hdigits⟩, hrest⟩
    have hrun := Text.digitRun_append hdigits.2 (Text.isDigit_of_atWordEnd hrest)
    rw [List.append_assoc, List.length_append]
    simp only [integerLength?, minusLength_append hminus hdigits, List.drop_left, hrun, drop_number, hrest]
    simp [List.length_pos_iff.2 hdigits.1]

theorem decimalLength?_eq_some_iff : decimalLength? cs = some n ↔ ∃ text rest, cs = text ++ rest ∧ text.length = n ∧
    Shape.decimal.Spells text ∧ atWordEnd rest = true := by
  constructor
  · intro h
    obtain ⟨minus, whole, rest, rfl, hminus, hlength, hrun, hall⟩ := exists_number cs
    simp only [decimalLength?, hlength, List.drop_left, hrun, drop_number] at h
    clear hlength hrun
    split at h
    · next fraction =>
      simp only [Option.ite_none_right_eq_some, Bool.and_eq_true, decide_eq_true_eq, Option.some.injEq] at h
      obtain ⟨⟨⟨hwhole, hplaces⟩, hrest⟩, rfl⟩ := h
      have hfraction : fraction.takeWhile isDigit ++ fraction.drop (digitRun fraction) = fraction := by
        rw [digitRun, Text.drop_run, List.takeWhile_append_dropWhile]
      refine ⟨minus ++ (whole ++ '.' :: fraction.takeWhile isDigit), fraction.drop (digitRun fraction), ?_, ?_,
        ⟨minus, whole, _, rfl, hminus, ⟨List.ne_nil_of_length_pos hwhole, hall⟩, List.ne_nil_of_length_pos hplaces,
          fun c hc => List.mem_takeWhile_imp hc⟩, hrest⟩
      · simp only [List.append_assoc, List.cons_append, hfraction]
      · simp only [List.length_append, List.length_cons, digitRun]
        omega
    · cases h
  · rintro ⟨_, rest, rfl, rfl, ⟨minus, whole, places, rfl, hminus, hwhole, hplaces⟩, hrest⟩
    have hpoint : ∀ c ∈ ('.' :: (places ++ rest)).head?, isDigit c = false := by
      rintro c ⟨⟩
      decide
    have hrun := Text.digitRun_append hwhole.2 hpoint
    have hplacesRun := Text.digitRun_append hplaces.2 (Text.isDigit_of_atWordEnd hrest)
    have hshape : minus ++ (whole ++ '.' :: places) ++ rest = minus ++ (whole ++ '.' :: (places ++ rest)) := by simp
    simp only [hshape, decimalLength?, minusLength_append hminus hwhole, List.drop_left, hrun, drop_number, hplacesRun,
      hrest, List.length_append, List.length_cons]
    simp [List.length_pos_iff.2 hwhole.1, List.length_pos_iff.2 hplaces.1]
    omega

theorem quotedTextLength?_eq_some_iff : quotedTextLength? cs = some n ↔
    ∃ text rest, cs = text ++ rest ∧ text.length = n ∧ Shape.quotedText.Spells text := by
  constructor
  · intro h
    unfold quotedTextLength? at h
    split at h
    · next cs =>
      simp only [Option.ite_none_right_eq_some, Option.some.injEq] at h
      obtain ⟨hquote, rfl⟩ := h
      rw [← List.head?_drop, Text.drop_run] at hquote
      obtain ⟨rest, hrest⟩ := List.head?_eq_some_iff.1 hquote
      refine ⟨'"' :: (cs.takeWhile isQuotable ++ ['"']), rest, ?_, by simp, _, rfl, fun c hc => ?_⟩
      · rw [List.cons_append, List.append_assoc, List.singleton_append, ← hrest, List.takeWhile_append_dropWhile]
      · exact List.mem_takeWhile_imp hc
    · cases h
  · rintro ⟨_, rest, rfl, rfl, inner, rfl, hinner⟩
    have hrun : (inner ++ '"' :: rest).takeWhile isQuotable = inner := Text.takeWhile_run hinner (by rintro c ⟨⟩; rfl)
    simp only [quotedTextLength?, List.cons_append, List.append_assoc, List.nil_append, hrun]
    simp

theorem quotedCharLength?_eq_some_iff : quotedCharLength? cs = some n ↔
    ∃ text rest, cs = text ++ rest ∧ text.length = n ∧ Shape.quotedChar.Spells text := by
  constructor
  · intro h
    unfold quotedCharLength? at h
    split at h
    · next c rest =>
      split at h
      · cases h
      · next hc =>
        cases h
        exact ⟨['\'', c, '\''], rest, rfl, rfl, c, rfl, not_or.1 hc⟩
    · cases h
  · rintro ⟨_, rest, rfl, rfl, c, rfl, hquote, hslash⟩
    exact if_neg (not_or.2 ⟨hquote, hslash⟩)

theorem nameLength?_eq_some_iff : nameLength? cs = some n ↔ ∃ text rest, cs = text ++ rest ∧ text.length = n ∧
    Shape.name.Spells text ∧ atWordEnd rest = true := by
  constructor
  · intro h
    cases cs with
    | nil => cases h
    | cons c cs =>
      simp only [nameLength?, Option.ite_none_right_eq_some, Option.some.injEq] at h
      obtain ⟨hfirst, rfl⟩ := h
      refine ⟨c :: cs.takeWhile isWordChar, cs.drop (wordRun cs), ?_, rfl, ⟨c, _, rfl, ?_, ?_⟩,
        Text.atWordEnd_drop_wordRun cs⟩
      · rw [wordRun, Text.drop_run, List.cons_append, List.takeWhile_append_dropWhile]
      · exact fun c hc => List.mem_takeWhile_imp hc
      · rcases Bool.or_eq_true_iff.1 hfirst with halpha | hunderscore
        · exact .inl halpha
        · obtain ⟨hc, hrun⟩ := Bool.and_eq_true_iff.1 hunderscore
          exact .inr ⟨beq_iff_eq.1 hc, List.ne_nil_of_length_pos (of_decide_eq_true hrun)⟩
  · rintro ⟨_, rest, rfl, rfl, ⟨first, more, rfl, hmore, hfirst⟩, hrest⟩
    rw [List.cons_append, nameLength?, Text.wordRun_append hmore hrest]
    refine if_pos ?_
    rcases hfirst with hfirst | ⟨rfl, hne⟩
    · simp [hfirst]
    · simp [List.length_pos_iff.2 hne]

/-- **What the scanner measures** is a token of the shape, in front of a text that does not go on with its word. -/
theorem Shape.lexemeLength?_eq_some_iff {sh : Shape} : sh.lexemeLength? cs = some n ↔ ∃ text rest, cs = text ++ rest ∧
    text.length = n ∧ sh.Spells text ∧ (sh.endsWord = true → atWordEnd rest = true) := by
  have hspelled : ∀ w : List Char, w.isPrefixOf cs = true ↔ ∃ rest, cs = w ++ rest := fun w => by
    rw [List.isPrefixOf_iff_prefix, List.IsPrefix]
    simp only [eq_comm]
  cases sh with
  | sign w =>
    simp only [Shape.lexemeLength?, Option.ite_none_right_eq_some, Option.some.injEq, hspelled]
    constructor
    · rintro ⟨⟨rest, rfl⟩, rfl⟩
      exact ⟨_, rest, rfl, rfl, rfl, fun h => absurd h Bool.false_ne_true⟩
    · rintro ⟨_, rest, rfl, rfl, rfl, -⟩
      exact ⟨⟨rest, rfl⟩, rfl⟩
  | keyword w =>
    simp only [Shape.lexemeLength?, Option.ite_none_right_eq_some, Bool.and_eq_true, Option.some.injEq, hspelled]
    constructor
    · rintro ⟨⟨⟨rest, rfl⟩, hrest⟩, rfl⟩
      rw [List.drop_left] at hrest
      exact ⟨_, rest, rfl, rfl, rfl, fun _ => hrest⟩
    · rintro ⟨_, rest, rfl, rfl, rfl, hrest⟩
      exact ⟨⟨⟨rest, rfl⟩, by rw [List.drop_left]; exact hrest rfl⟩, rfl⟩
  | decimal => simpa [Shape.lexemeLength?, endsWord] using decimalLength?_eq_some_iff
  | integer => simpa [Shape.lexemeLength?, endsWord] using integerLength?_eq_some_iff
  | quotedText => simpa [Shape.lexemeLength?, endsWord] using quotedTextLength?_eq_some_iff
  | quotedChar => simpa [Shape.lexemeLength?, endsWord] using quotedCharLength?_eq_some_iff
  | name => simpa [Shape.lexemeLength?, endsWord] using nameLength?_eq_some_iff

end Lexemes

end BlockCheck
