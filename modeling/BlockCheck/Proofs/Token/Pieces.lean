import BlockCheck.Proofs.Token.Places
import Mathlib.Data.List.Basic

/-!
# The pieces of a line

A line falls into blank gaps, the tokens between them, and at most one word at the end that starts no token.
`ScansAs n text r` says that a text which stands after `n` bytes of a line falls apart in this way and that `r` is what
is read from it. The scanner takes every text apart so, and there is no other way (`scansAs_iff`).

A line may be cut behind any of its tokens: what is kept of it is read as the tokens up to there (`readLine_cut`), since
no word goes on behind a token that ends with one.
-/

namespace BlockCheck

open Text (Span size isBlank isWordChar atWordEnd allBlank skipBlanks firstWord)

/-! ## Taking a text apart -/

/-- The token of category `k` that the part is, after `n` bytes of its line. -/
def Token.ofPart (k : Category) (part : List Char) (n : Nat) : Token where
  category := k
  text := if k.keepsText then some (String.ofList part) else none
  span := ⟨n, size part⟩

/-- The pieces of a text that stands after `n` bytes of a line, and what is read from them. -/
inductive ScansAs : Nat → List Char → Reading → Prop
  /-- Only blanks are left. -/
  | stop {n : Nat} {gap : List Char} : allBlank gap = true → ScansAs n gap .empty
  /-- The next word starts no token. -/
  | unknown {n : Nat} {gap word after : List Char} : allBlank gap = true → word ≠ [] →
      (∀ c ∈ word, isBlank c = false) → (∀ c ∈ after.head?, isBlank c = true) →
      Category.firstMatch? (word ++ after) = none →
      ScansAs n (gap ++ (word ++ after))
        ⟨[], some (.unknownToken (String.ofList word) ⟨n + size gap, size word⟩)⟩
  /-- The next part is a token. -/
  | token {n : Nat} {gap part after : List Char} {k : Category} {r : Reading} : allBlank gap = true →
      (∀ c ∈ part.head?, isBlank c = false) → Category.firstMatch? (part ++ after) = some (k, part.length) →
      ScansAs (n + size gap + size part) after r →
      ScansAs n (gap ++ (part ++ after)) (r.cons (.ofPart k part (n + size gap)))

namespace Scanner

variable {s : Scanner} {k : Category} {n : Nat}

/-- Text that starts no token is all that is read. -/
theorem reading_of_unknown (h : Category.firstMatch? s.rest = none) (hne : s.rest ≠ []) :
    s.reading = ⟨[], some s.unknown⟩ := by
  have hempty : s.rest.isEmpty = false := by simpa using hne
  simp [reading_eq, next?, hempty, h, Reading.push]

/-- The lexeme in front is the first token. -/
theorem reading_of_lexeme (h : Category.firstMatch? s.rest = some (k, n)) :
    s.reading = (s.after n).reading.cons (s.token k n) := by
  obtain ⟨hpos, hle⟩ := Category.firstMatch?_bounds h
  have hempty : s.rest.isEmpty = false := by
    cases hrest : s.rest with
    | nil => simp [hrest] at hle; omega
    | cons => rfl
  simp [reading_eq s, next?, hempty, h, Reading.push]

end Scanner

theorem Text.firstWord_append (cs : List Char) :
    firstWord cs ++ cs.dropWhile (fun c => !isBlank c) = cs := List.takeWhile_append_dropWhile

section Front

variable {n l : Nat} {gap tail : List Char} {c : Char} {k : Category} {r : Reading}

/-- Where no category matches behind a gap, the first word is the last piece. -/
theorem scansAs_of_unknown (hgap : allBlank gap = true) (hc : isBlank c = false)
    (hmatch : Category.firstMatch? (c :: tail) = none) :
    ScansAs n (gap ++ c :: tail) ⟨[], some (Scanner.unknown ⟨n + size gap, c :: tail⟩)⟩ := by
  have hword := Text.firstWord_append (c :: tail)
  have hne : firstWord (c :: tail) ≠ [] := by simp [firstWord, hc]
  have hdark : ∀ d ∈ firstWord (c :: tail), isBlank d = false := fun d hd => by
    simpa using List.mem_takeWhile_imp hd
  have hafter : ∀ d ∈ ((c :: tail).dropWhile fun c => !isBlank c).head?, isBlank d = true := by
    intro d hd
    have hhead := List.head?_dropWhile_not (fun c => !isBlank c) (c :: tail)
    rw [Option.mem_def.1 hd] at hhead
    simpa using hhead
  have hpiece : ScansAs n _ _ := .unknown hgap hne hdark hafter (hword.symm ▸ hmatch)
  rw [hword] at hpiece
  exact hpiece

/-- Where a category matches behind a gap, its lexeme is the next piece. -/
theorem scansAs_of_lexeme (hgap : allBlank gap = true) (hc : isBlank c = false)
    (hmatch : Category.firstMatch? (c :: tail) = some (k, l))
    (hrest : ScansAs (n + size gap + size ((c :: tail).take l)) ((c :: tail).drop l) r) :
    ScansAs n (gap ++ c :: tail) (r.cons (Scanner.token ⟨n + size gap, c :: tail⟩ k l)) := by
  obtain ⟨hpos, hle⟩ := Category.firstMatch?_bounds hmatch
  have hpart : ((c :: tail).take l).length = l := List.length_take_of_le hle
  have hhead : ∀ d ∈ ((c :: tail).take l).head?, isBlank d = false := by
    intro d hd
    rw [List.head?_take, if_neg (by omega)] at hd
    cases hd
    exact hc
  have hlexeme : Category.firstMatch? ((c :: tail).take l ++ (c :: tail).drop l) =
      some (k, ((c :: tail).take l).length) := by rw [List.take_append_drop, hpart]; exact hmatch
  have hpiece : ScansAs n _ _ := .token hgap hhead hlexeme hrest
  rw [List.take_append_drop] at hpiece
  exact hpiece

end Front

/-- **The scanner takes a text apart into its pieces.** -/
theorem scansAs_skip (n : Nat) (cs : List Char) : ScansAs n cs (Scanner.skip ⟨n, cs⟩).reading := by
  induction hlength : cs.length using Nat.strong_induction_on generalizing n cs with
  | _ m ih =>
    have hsplit := Text.takeWhile_append_skipBlanks cs
    have hgap : allBlank (cs.takeWhile isBlank) = true := List.all_eq_true.2 fun _ h => List.mem_takeWhile_imp h
    cases hrest : skipBlanks cs with
    | nil =>
      rw [Scanner.reading_eq_empty_iff.2 hrest]
      exact .stop (Text.allBlank_of_skipBlanks hrest)
    | cons c tail =>
      have hc := Text.isBlank_head_skipBlanks hrest
      have hskip : Scanner.skip ⟨n, cs⟩ = ⟨n + size (cs.takeWhile isBlank), c :: tail⟩ := by rw [Scanner.skip, hrest]
      rw [hrest] at hsplit
      rw [hskip]
      conv => arg 2; rw [← hsplit]
      cases hmatch : Category.firstMatch? (c :: tail) with
      | none =>
        rw [Scanner.reading_of_unknown hmatch (List.cons_ne_nil c tail)]
        exact scansAs_of_unknown hgap hc hmatch
      | some kl =>
        obtain ⟨k, l⟩ := kl
        rw [Scanner.reading_of_lexeme hmatch]
        -- A lexeme is not empty, so what is left behind it is shorter.
        have hpos := (Category.firstMatch?_bounds hmatch).1
        have hshorter : ((c :: tail).drop l).length < m := by
          have htotal := congrArg List.length hsplit
          rw [List.length_append, List.length_cons] at htotal
          rw [List.length_drop, List.length_cons]
          omega
        exact scansAs_of_lexeme hgap hc hmatch (ih _ hshorter _ _ rfl)

/-! ## Only one way -/

namespace Text

/-- Blanks in front of a text that does not start with one are what is skipped. -/
theorem skip_gap {gap rest : List Char} (n : Nat) (hgap : allBlank gap = true)
    (hrest : ∀ c ∈ rest.head?, isBlank c = false) : Scanner.skip ⟨n, gap ++ rest⟩ = ⟨n + size gap, rest⟩ := by
  have hall := List.all_eq_true.1 hgap
  have hskip : skipBlanks (gap ++ rest) = rest := by
    rw [skipBlanks, List.dropWhile_append_of_pos hall]
    cases rest with
    | nil => rfl
    | cons c rest => exact List.dropWhile_cons_of_neg (by simp [hrest c rfl])
  rw [Scanner.skip, takeWhile_run hall hrest, hskip]

end Text

theorem ScansAs.reading_skip {n : Nat} {cs : List Char} {r : Reading} (h : ScansAs n cs r) :
    (Scanner.skip ⟨n, cs⟩).reading = r := by
  induction h with
  | stop hgap => exact Scanner.reading_eq_empty_iff.2 (List.dropWhile_eq_nil_iff.2 (List.all_eq_true.1 hgap))
  | @unknown n gap word after hgap hne hword hafter hmatch =>
    have hhead : ∀ c ∈ (word ++ after).head?, isBlank c = false := by
      intro c hc
      rw [List.head?_append_of_ne_nil _ hne] at hc
      exact hword c (List.mem_of_mem_head? hc)
    have hfirst : firstWord (word ++ after) = word :=
      Text.takeWhile_run (by simpa using hword) (by simpa using hafter)
    rw [Text.skip_gap n hgap hhead, Scanner.reading_of_unknown hmatch (by simp [hne]), Scanner.unknown, hfirst]
  | @token n gap part after k r hgap hpart hmatch _ ih =>
    have hpos := (Category.firstMatch?_bounds hmatch).1
    have hhead : ∀ c ∈ (part ++ after).head?, isBlank c = false := by
      intro c hc
      rw [List.head?_append_of_ne_nil _ (List.ne_nil_of_length_pos hpos)] at hc
      exact hpart c hc
    rw [Text.skip_gap n hgap hhead, Scanner.reading_of_lexeme hmatch, Scanner.after, Scanner.token]
    simp only [List.take_left, List.drop_left, ih]
    rfl

/-- **A text falls apart in one way**, which is how the scanner reads it. -/
theorem scansAs_iff {n : Nat} {cs : List Char} {r : Reading} :
    ScansAs n cs r ↔ (Scanner.skip ⟨n, cs⟩).reading = r :=
  ⟨ScansAs.reading_skip, fun h => h ▸ scansAs_skip n cs⟩

/-- A line that is no comment scans as its reading. -/
theorem scansAs_line_iff {line : List Char} {r : Reading} (h : isComment line = false) :
    ScansAs 0 line r ↔ readLine line = r := by
  rw [scansAs_iff, readLine, Scanner.ofLine, h]
  rfl

/-! ## Cutting a line -/

/-- The place behind three texts is that behind one after the other. -/
theorem Text.size_parts (n : Nat) (gap part after : List Char) :
    n + size (gap ++ (part ++ after)) = n + size gap + size part + size after := by
  rw [size_append, size_append, Nat.add_assoc, Nat.add_assoc]

/-- A text is cut behind one of its tokens: what is kept ends with the token and is read as the tokens up to there, and
the rest is read as the others. -/
theorem ScansAs.split {n : Nat} {cs : List Char} {r : Reading} (h : ScansAs n cs r) {t : Token} {ts us : List Token}
    (hts : r.tokens = ts ++ t :: us) : ∃ kept rest, cs = kept ++ rest ∧ ScansAs n kept ⟨ts ++ [t], none⟩ ∧
      ScansAs (n + size kept) rest ⟨us, r.failure⟩ ∧ n + size kept = t.span.offset + t.span.length ∧
      ∀ c ∈ kept.getLast?, isWordChar c = true → atWordEnd rest = true := by
  induction h generalizing ts with
  | stop _ | unknown _ _ _ _ _ =>
    obtain ⟨-, hnil⟩ := List.append_eq_nil_iff.1 hts.symm
    cases hnil
  | @token n gap part after k r hgap hpart hmatch hscan ih =>
    have hpos := (Category.firstMatch?_bounds hmatch).1
    have hlast : ∀ text : List Char, (gap ++ (part ++ text)).getLast? = (part ++ text).getLast? := fun text =>
      List.getLast?_append_of_ne_nil _ (by simp [List.ne_nil_of_length_pos hpos])
    cases ts with
    | nil =>
      obtain ⟨rfl, rfl⟩ := List.cons.inj hts
      have hends := Category.atWordEnd_of_firstMatch? hmatch
      have halone : Category.firstMatch? (part ++ []) = some (k, part.length) := by
        rw [List.append_nil]
        exact Category.firstMatch?_of_append hmatch (Nat.le_refl _) hends
      have hsize : n + size (gap ++ (part ++ [])) = n + size gap + size part := Text.size_parts n gap part []
      refine ⟨gap ++ (part ++ []), after, by simp, .token hgap hpart halone (.stop rfl), ?_, hsize, ?_⟩
      · rw [hsize]
        exact hscan
      · rw [hlast, List.append_nil]
        exact hends
    | cons u ts =>
      obtain ⟨rfl, htail⟩ := List.cons.inj hts
      obtain ⟨kept, rest, rfl, hkept, hrest, hend, hword⟩ := ih htail
      -- The last character that is kept is that of the last token.
      have hends : ∀ c ∈ (part ++ kept).getLast?, isWordChar c = true → atWordEnd rest = true := by
        cases kept with
        | nil =>
          rw [List.append_nil]
          exact Category.atWordEnd_of_firstMatch? hmatch
        | cons d kept =>
          rw [List.getLast?_append_of_ne_nil _ (List.cons_ne_nil d kept)]
          exact hword
      have hsize := Text.size_parts n gap part kept
      rw [← List.append_assoc] at hmatch
      have hfirst := Category.firstMatch?_of_append hmatch (by simp) hends
      refine ⟨gap ++ (part ++ kept), rest, by simp, .token hgap hpart hfirst hkept, ?_, hsize.trans hend, ?_⟩
      · rw [hsize]
        exact hrest
      · rw [hlast]
        exact hends

theorem isComment_of_append {kept rest : List Char} (h : isComment (kept ++ rest) = false) :
    isComment kept = false := by
  by_contra hcomment
  unfold isComment at hcomment
  split at hcomment
  · cases h
  · exact hcomment rfl

/-- **A line that is cut behind one of its tokens is read as the tokens up to there.** -/
theorem readLine_cut {line : List Char} {ts us : List Token} (h : (readLine line).tokens = ts ++ us) (hts : ts ≠ []) :
    ∃ kept rest, line = kept ++ rest ∧ readLine kept = ⟨ts, none⟩ := by
  have hcomment : isComment line = false := isComment_of_readLine (by rw [h]; simp [hts])
  obtain ⟨ts, t, rfl⟩ := ts.eq_nil_or_concat'.resolve_left hts
  rw [List.append_assoc] at h
  obtain ⟨kept, rest, rfl, hscan, -⟩ := ((scansAs_line_iff hcomment).2 rfl).split h
  exact ⟨kept, rest, rfl, (scansAs_line_iff (isComment_of_append hcomment)).1 hscan⟩

end BlockCheck
