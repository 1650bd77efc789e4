import BlockCheck.Proofs.Program.RejectionPlaces
import BlockCheck.Proofs.Program.WrittenSource

/-!
# The index of the lines

The lines of a text are the only ones that divide it: with their ends they are the text, and no newline is left in them
(`Line.divide_iff`). Their spans are those that one pass over the bytes of the text finds (`Line.scan_eq_spans`), though
it knows nothing of characters: a byte of a longer character is never that of a newline or of a carriage return
(`Text.le_of_mem_utf8EncodeChar`). `Source.lines_indexed` adds what the source says about a number: its line, its span
and its entries in the lists of numbered lines belong together.
-/

namespace BlockCheck

open Text (Span size)

/-! ## The bytes of a text -/

namespace Text

/-- The bytes of a text in UTF-8. -/
def bytes (cs : List Char) : List UInt8 := cs.flatMap String.utf8EncodeChar

theorem bytes_toList (s : String) : bytes s.toList = s.toUTF8.data.toList := by
  rw [String.toUTF8, ← String.utf8Encode_toList, List.utf8Encode, List.data_toByteArray]
  rfl

theorem bytes_append (cs cs' : List Char) : bytes (cs ++ cs') = bytes cs ++ bytes cs' := List.flatMap_append

/-- The size of a text is the number of its bytes. -/
theorem length_bytes (cs : List Char) : (bytes cs).length = size cs := by
  induction cs with
  | nil => rfl
  | cons c cs ih =>
    rw [bytes, List.flatMap_cons, List.length_append, String.length_utf8EncodeChar, ← bytes, ih, size_cons]

theorem bytes_eq_nil {cs : List Char} : bytes cs = [] ↔ cs = [] := by
  rw [← List.length_eq_zero_iff, length_bytes, size_eq_zero]

variable {b c : Char} {cs : List Char}

theorem utf8EncodeChar_of_lt (h : c.toNat < 128) : String.utf8EncodeChar c = [UInt8.ofNat c.toNat] := by
  rw [String.utf8EncodeChar]
  exact if_pos (Nat.le_of_lt_succ h)

/-- The bytes of a longer character are 128 or more. -/
theorem le_of_mem_utf8EncodeChar {byte : UInt8} (h : 128 ≤ c.toNat) (hbyte : byte ∈ String.utf8EncodeChar c) :
    128 ≤ byte.toNat := by
  have high {n : Nat} (hn : 128 ≤ n ∧ n < 256) : 128 ≤ (UInt8.ofNat n).toNat := by
    rw [UInt8.toNat_ofNat', Nat.mod_eq_of_lt hn.2]
    exact hn.1
  have hlong : ¬c.val.toNat ≤ 127 := Nat.not_le.2 h
  simp only [String.utf8EncodeChar, if_neg hlong] at hbyte
  -- two, three or four bytes
  split at hbyte
  · simp only [List.mem_cons, List.not_mem_nil, or_false] at hbyte
    rcases hbyte with rfl | rfl <;> exact high (by omega)
  · split at hbyte
    · simp only [List.mem_cons, List.not_mem_nil, or_false] at hbyte
      rcases hbyte with rfl | rfl | rfl <;> exact high (by omega)
    · simp only [List.mem_cons, List.not_mem_nil, or_false] at hbyte
      rcases hbyte with rfl | rfl | rfl | rfl <;> exact high (by omega)

/-- A byte below 128 stands for its character. -/
theorem mem_bytes_iff (hb : b.toNat < 128) : UInt8.ofNat b.toNat ∈ bytes cs ↔ b ∈ cs := by
  rw [bytes, List.mem_flatMap]
  constructor
  · rintro ⟨c, hc, hbyte⟩
    have hlow : (UInt8.ofNat b.toNat).toNat = b.toNat := by
      rw [UInt8.toNat_ofNat']
      omega
    by_cases h : c.toNat < 128
    · rw [utf8EncodeChar_of_lt h, List.mem_singleton, ← UInt8.toNat_inj, hlow, UInt8.toNat_ofNat',
        Nat.mod_eq_of_lt (by omega)] at hbyte
      rwa [Char.toNat_inj.1 hbyte]
    · have := le_of_mem_utf8EncodeChar (Nat.not_lt.1 h) hbyte
      omega
  · intro hmem
    exact ⟨b, hmem, utf8EncodeChar_of_lt hb ▸ List.mem_singleton_self _⟩

/-- A text whose last byte is below 128 ends with the character of this byte. -/
theorem getLast?_bytes (hb : b.toNat < 128) :
    (bytes cs).getLast? = some (UInt8.ofNat b.toNat) ↔ cs.getLast? = some b := by
  rcases List.eq_nil_or_concat cs with rfl | ⟨front, c, rfl⟩
  · exact ⟨nofun, nofun⟩
  · have hne : bytes [c] ≠ [] := mt bytes_eq_nil.1 (List.cons_ne_nil c [])
    rw [List.concat_eq_append, bytes_append, List.getLast?_append_of_ne_nil _ hne, List.getLast?_concat]
    constructor
    · intro hlast
      have hmem := (mem_bytes_iff hb).1 (List.mem_of_getLast? hlast)
      rw [List.mem_singleton.1 hmem]
    · rintro ⟨⟩
      rw [bytes, List.flatMap_singleton, utf8EncodeChar_of_lt hb]
      rfl

end Text

/-! ## The number of lines -/

namespace Line

/-- A newline ends one line, and so does the end of a text that has something behind the last newline. -/
theorem length_split (cs : List Char) :
    (split cs).length = cs.count '\n' + if cs ≠ [] ∧ cs.getLast? ≠ some '\n' then 1 else 0 := by
  induction cs using inductionOn with
  | nil => rfl
  | last cs hne h =>
    have hlast : cs.getLast? ≠ some '\n' := fun hlast => h (List.mem_of_getLast? hlast)
    rw [split_last hne h, List.count_eq_zero_of_not_mem h, if_pos ⟨hne, hlast⟩]
    rfl
  | line line rest h ih =>
    rw [split_append_newline h, List.length_cons, ih, List.count_append, List.count_eq_zero_of_not_mem h,
      List.count_cons_self, Nat.zero_add, Nat.add_right_comm]
    congr 1
    cases rest with
    | nil => simp
    | cons c rest => simp [List.getLast?_append]

/-! ## What divides a text -/

/-- The lines divide the text. -/
structure Divide (text : List Char) (lines : List Line) : Prop where
  /-- With their ends, the lines are the text. -/
  lossless : lines.flatMap Line.text = text
  newline_not_mem : ∀ l ∈ lines, '\n' ∉ l.chars
  /-- A carriage return in front of a newline is a part of the end. -/
  not_newline : ∀ l ∈ lines, l.chars.getLast? = some '\r' → l.ending ≠ .newline
  /-- Only the last line may end with the text. -/
  not_endOfText : ∀ l ∈ lines.dropLast, l.ending ≠ .endOfText
  /-- There is no empty line at the end of the text. -/
  ne_nil : ∀ l ∈ lines, l.ending = .endOfText → l.chars ≠ []

theorem ending_ofWritten (line : List Char) :
    (ofWritten line).ending ≠ .endOfText ∧
      ((ofWritten line).chars.getLast? = some '\r' → (ofWritten line).ending ≠ .newline) := by
  unfold ofWritten
  split
  · exact ⟨nofun, fun _ => nofun⟩
  · next hlast => exact ⟨nofun, fun h => absurd h hlast⟩

/-- A line with an end of its own in front of the lines of a text. -/
theorem Divide.cons {l : Line} {rest : List Char} {ls : List Line} (h : Divide rest ls) (hnewline : '\n' ∉ l.chars)
    (hreturn : l.chars.getLast? = some '\r' → l.ending ≠ .newline) (hend : l.ending ≠ .endOfText) :
    Divide (l.text ++ rest) (l :: ls) where
  lossless := by rw [List.flatMap_cons, h.lossless]
  newline_not_mem := List.forall_mem_cons.2 ⟨hnewline, h.newline_not_mem⟩
  not_newline := List.forall_mem_cons.2 ⟨hreturn, h.not_newline⟩
  not_endOfText := by
    cases ls with
    | nil => exact fun _ hl => absurd hl List.not_mem_nil
    | cons l' ls =>
      rw [List.dropLast_cons_of_ne_nil (List.cons_ne_nil l' ls)]
      exact List.forall_mem_cons.2 ⟨hend, h.not_endOfText⟩
  ne_nil := List.forall_mem_cons.2 ⟨fun h => absurd h hend, h.ne_nil⟩

theorem divide_split (cs : List Char) : Divide cs (split cs) := by
  induction cs using inductionOn with
  | nil => refine ⟨rfl, ?_, ?_, ?_, ?_⟩ <;> exact fun _ hl => absurd hl List.not_mem_nil
  | last cs hne h =>
    rw [split_last hne h]
    refine ⟨by simp [Line.text, LineEnd.chars], ?_, ?_, ?_, ?_⟩
    · exact List.forall_mem_singleton.2 h
    · exact List.forall_mem_singleton.2 fun _ hend => by cases hend
    · exact fun _ hl => absurd hl List.not_mem_nil
    · exact List.forall_mem_singleton.2 fun _ => hne
  | line line rest h ih =>
    have hchars : '\n' ∉ (ofWritten line).chars :=
      newline_not_mem_split (line ++ ['\n']) _ (split_append_newline h ▸ List.mem_cons_self)
    obtain ⟨hend, hreturn⟩ := ending_ofWritten line
    have hcons := ih.cons hchars hreturn hend
    rwa [text_ofWritten, List.append_assoc, List.singleton_append, ← split_append_newline h] at hcons

theorem Divide.tail {text : List Char} {l : Line} {ls : List Line} (h : Divide text (l :: ls)) :
    Divide (ls.flatMap Line.text) ls where
  lossless := rfl
  newline_not_mem := fun l' hl' => h.newline_not_mem l' (List.mem_cons_of_mem l hl')
  not_newline := fun l' hl' => h.not_newline l' (List.mem_cons_of_mem l hl')
  not_endOfText := fun l' hl' => by
    cases ls with
    | nil => exact absurd hl' List.not_mem_nil
    | cons l₂ ls =>
      refine h.not_endOfText l' ?_
      rw [List.dropLast_cons_of_ne_nil (List.cons_ne_nil l₂ ls)]
      exact List.mem_cons_of_mem l hl'
  ne_nil := fun l' hl' => h.ne_nil l' (List.mem_cons_of_mem l hl')

/-- **Only the lines of a text divide it.** -/
theorem divide_iff {text : List Char} {lines : List Line} : Divide text lines ↔ lines = split text := by
  refine ⟨fun h => ?_, fun h => h ▸ divide_split text⟩
  induction lines generalizing text with
  | nil => rw [← h.lossless]; rfl
  | cons l ls ih =>
    have hrest := ih h.tail
    have hnewline := h.newline_not_mem l List.mem_cons_self
    obtain ⟨chars, ending⟩ := l
    rw [← h.lossless, List.flatMap_cons]
    cases ending with
    | newline =>
      have hlast : chars.getLast? ≠ some '\r' := fun hlast => h.not_newline _ List.mem_cons_self hlast rfl
      have htext : Line.text ⟨chars, .newline⟩ ++ ls.flatMap Line.text = chars ++ '\n' :: ls.flatMap Line.text :=
        List.append_assoc ..
      rw [htext, split_append_newline hnewline, ofWritten_of_last hlast, ← hrest]
    | returnNewline =>
      have hchars : '\n' ∉ chars ++ ['\r'] := by simpa using hnewline
      have htext : Line.text ⟨chars, .returnNewline⟩ ++ ls.flatMap Line.text =
          (chars ++ ['\r']) ++ '\n' :: ls.flatMap Line.text := by simp [Line.text, LineEnd.chars]
      have hwritten : ofWritten (chars ++ ['\r']) = ⟨chars, .returnNewline⟩ := by simp [ofWritten]
      rw [htext, split_append_newline hchars, hwritten, ← hrest]
    | endOfText =>
      cases ls with
      | nil =>
        have htext : Line.text ⟨chars, .endOfText⟩ ++ [].flatMap Line.text = chars := by simp [Line.text, LineEnd.chars]
        rw [htext, split_last (h.ne_nil _ List.mem_cons_self rfl) hnewline]
      | cons l₂ ls => exact absurd rfl (h.not_endOfText ⟨chars, .endOfText⟩ List.mem_cons_self)

/-! ## The spans -/

/-- Where a line that started at `start` stops if the byte at `offset` is a newline: a carriage return before the
newline does not belong to the line. -/
def stop (start offset : Nat) (previous? : Option UInt8) : Nat :=
  if start < offset ∧ previous? = some (UInt8.ofNat '\r'.toNat) then offset - 1 else offset

/-- The spans of the lines that a pass over the bytes of a text finds. The line in progress starts at `start`, and
`offset` bytes are read, of which `previous?` is the last one. -/
def scan (start offset : Nat) (previous? : Option UInt8) : List UInt8 → List Span
  | [] => if start < offset then [⟨start, offset - start⟩] else []
  | byte :: rest =>
    if byte = UInt8.ofNat '\n'.toNat then
      ⟨start, stop start offset previous? - start⟩ :: scan (offset + 1) (offset + 1) (some byte) rest
    else
      scan start (offset + 1) (some byte) rest

theorem scan_append {start offset : Nat} {previous? : Option UInt8} {front rest : List UInt8}
    (h : UInt8.ofNat '\n'.toNat ∉ front) :
    scan start offset previous? (front ++ rest) =
      scan start (offset + front.length) (front.getLast?.or previous?) rest := by
  induction front generalizing offset previous? with
  | nil => rfl
  | cons byte front ih =>
    rw [List.mem_cons, not_or] at h
    rw [List.cons_append, scan, if_neg (Ne.symm h.1), ih h.2, List.length_cons, Nat.add_assoc, Nat.add_comm 1,
      List.getLast?_cons]
    cases front.getLast? <;> rfl

/-- The byte before a newline shows how long the line is. -/
theorem stop_eq (line : List Char) (start : Nat) (previous? : Option UInt8) :
    stop start (start + size line) ((Text.bytes line).getLast?.or previous?) = start + size (ofWritten line).chars := by
  rcases List.eq_nil_or_concat line with rfl | ⟨front, c, rfl⟩
  · -- the byte before belongs to an earlier line
    exact if_neg fun h => Nat.lt_irrefl start h.1
  · rw [List.concat_eq_append]
    have hlt : start < start + size (front ++ [c]) := by
      have := c.utf8Size_pos
      simp
      omega
    have hprevious : (Text.bytes (front ++ [c])).getLast?.or previous? = some (UInt8.ofNat '\r'.toNat) ↔ c = '\r' := by
      have hne : Text.bytes (front ++ [c]) ≠ [] := mt Text.bytes_eq_nil.1 (by simp)
      obtain ⟨byte, hbyte⟩ := Option.isSome_iff_exists.1 (List.getLast?_isSome.2 hne)
      rw [hbyte, Option.some_or, ← hbyte, Text.getLast?_bytes (by decide), List.getLast?_concat, Option.some.injEq]
    unfold stop ofWritten
    rw [List.getLast?_concat]
    by_cases hc : c = '\r'
    · subst hc
      rw [if_pos ⟨hlt, hprevious.2 rfl⟩, if_pos rfl, List.dropLast_concat, Text.size_append]
      rfl
    · rw [if_neg fun h => hc (hprevious.1 h.2), if_neg fun h => hc (Option.some.inj h)]

/-- **The spans of the lines are those that the bytes show.** -/
theorem scan_eq_spans (cs : List Char) (start : Nat) (previous? : Option UInt8) :
    scan start start previous? (Text.bytes cs) = spans start (split cs) := by
  have hbytes {cs : List Char} (h : '\n' ∉ cs) : UInt8.ofNat '\n'.toNat ∉ Text.bytes cs :=
    fun hmem => h ((Text.mem_bytes_iff (by decide)).1 hmem)
  induction cs using inductionOn generalizing start previous? with
  | nil => exact if_neg (Nat.lt_irrefl start)
  | last cs hne h =>
    have hlt : start < start + size cs := Nat.lt_add_of_pos_right (Nat.pos_of_ne_zero (mt Text.size_eq_zero.1 hne))
    rw [← List.append_nil (Text.bytes cs), scan_append (hbytes h), Text.length_bytes, scan, if_pos hlt,
      Nat.add_sub_cancel_left, split_last hne h]
    rfl
  | line line rest h ih =>
    have hnewline : Text.bytes ('\n' :: rest) = UInt8.ofNat '\n'.toNat :: Text.bytes rest := rfl
    rw [Text.bytes_append, hnewline, scan_append (hbytes h), Text.length_bytes, scan, if_pos rfl, stop_eq, ih,
      Nat.add_sub_cancel_left, split_append_newline h, spans, text_ofWritten, Text.size_append, ← Nat.add_assoc]
    rfl

theorem offset_le_of_mem_spans {ls : List Line} {offset : Nat} {span : Span} (h : span ∈ spans offset ls) :
    offset ≤ span.offset := by
  induction ls generalizing offset with
  | nil => cases h
  | cons l ls ih =>
    rcases List.mem_cons.1 h with rfl | h
    · exact Nat.le_refl offset
    · exact Nat.le_trans (Nat.le_add_right _ _) (ih h)

/-- The spans stand one behind the other, with the ends of the lines between them. -/
theorem pairwise_spans {ls : List Line} (offset : Nat) (h : ∀ l ∈ ls.dropLast, l.ending ≠ .endOfText) :
    (spans offset ls).Pairwise fun a b => a.offset + a.length < b.offset := by
  induction ls generalizing offset with
  | nil => exact .nil
  | cons l ls ih =>
    cases ls with
    | nil => exact List.pairwise_singleton _ _
    | cons l' ls =>
      rw [List.dropLast_cons_of_ne_nil (List.cons_ne_nil l' ls)] at h
      obtain ⟨hl, hls⟩ := List.forall_mem_cons.1 h
      refine .cons (fun span hspan => ?_) (ih _ hls)
      have hoffset := offset_le_of_mem_spans hspan
      have hend : 0 < size l.ending.chars := by
        cases hending : l.ending with
        | newline | returnNewline => decide
        | endOfText => exact absurd hending hl
      rw [text, Text.size_append] at hoffset
      show offset + size l.chars < span.offset
      omega

end Line

/-! ## What the source says about a number -/

namespace Source

variable {s : Source}

/-- There is a line for the numbers from 1 to the number of lines. -/
theorem line?_eq_none {n : Nat} : s.line? n = none ↔ n = 0 ∨ s.lineCount < n := by
  cases n with
  | zero => exact ⟨fun _ => .inl rfl, fun _ => rfl⟩
  | succ n =>
    rw [line?, Option.map_eq_none_iff, List.getElem?_eq_none_iff, lineCount]
    omega

/-- The span of a line marks the characters of the line. -/
theorem rel_lineSpan?_line? (s : Source) (n : Nat) :
    Option.Rel (fun span chars => span.Marks s.text.toList chars) (s.lineSpan? n) (s.line? n) := by
  cases hline : s.line? n with
  | none =>
    have hspan := s.isSome_lineSpan? n
    rw [hline, Option.isSome_none, Option.isSome_eq_false_iff, Option.isNone_iff_eq_none] at hspan
    rw [hspan]
    exact .none
  | some chars =>
    cases n with
    | zero => cases hline
    | succ n =>
      obtain ⟨l, hl, rfl⟩ := Option.map_eq_some_iff.1 hline
      obtain ⟨span, hspan, hmarks⟩ := s.marks_of_getElem? hl
      rw [hspan]
      exact .some hmarks

/-- The entry with a number is the line of this number. -/
theorem filter_number_linesFrom {m n : Nat} (h : m ≤ n) :
    (s.linesFrom m).filter (·.number = n) = (s.line? n).toList.map (NumberedLine.mk n) := by
  cases hline : s.line? n with
  | none =>
    refine List.filter_eq_nil_iff.2 fun l hl hn => ?_
    obtain ⟨before, after, hsplit⟩ := List.append_of_mem (List.mem_of_mem_drop hl)
    obtain ⟨-, hget, -⟩ := line_of_split hsplit
    rw [of_decide_eq_true hn, hline] at hget
    cases hget
  | some chars =>
    have hn : n ≠ 0 ∧ n ≤ s.lineCount := by
      have := mt line?_eq_none.2 (hline ▸ Option.some_ne_none chars)
      omega
    obtain ⟨before, line, after, hsplit, rfl⟩ := exists_split (Nat.pos_of_ne_zero hn.1) hn.2
    obtain ⟨hnumber, hget, -⟩ := line_of_split hsplit
    have hincreasing : (s.numberedLines.map NumberedLine.number).Pairwise (· < ·) := by
      rw [map_number_numberedLines]
      exact List.pairwise_lt_range'
    rw [hsplit, List.pairwise_map, List.pairwise_append, List.pairwise_cons] at hincreasing
    obtain ⟨-, ⟨hafter, -⟩, hbefore⟩ := hincreasing
    have hfrom : s.linesFrom m = before.drop (m - 1) ++ line :: after := by
      rw [linesFrom, hsplit, List.drop_append_of_le_length (by omega)]
    have hnone : (before.drop (m - 1)).filter (·.number = line.number) = [] :=
      List.filter_eq_nil_iff.2 fun l hl h => Nat.ne_of_lt
        (hbefore l (List.mem_of_mem_drop hl) line List.mem_cons_self) (of_decide_eq_true h)
    have hnone' : after.filter (·.number = line.number) = [] :=
      List.filter_eq_nil_iff.2 fun l hl h => Nat.ne_of_gt (hafter l hl) (of_decide_eq_true h)
    rw [hfrom, List.filter_append, hnone, List.filter_cons, if_pos (decide_eq_true rfl), hnone',
      ← Option.some.inj (hget.symm.trans hline)]
    rfl

/-- **The index of the lines is exact and lossless.** The lines are the only ones that divide the text. Their spans are
those that one pass over the bytes finds; they stand one behind the other, and that of a line marks its characters in
the text. There is a line for each newline, and one more if the text has something behind the last one. A number has a
line, a span and an entry in the lists of numbered lines, or none of these. -/
theorem lines_indexed (s : Source) :
    (∀ lines, Line.Divide s.text.toList lines ↔ lines = s.lines) ∧
      Line.scan 0 0 none s.text.toUTF8.data.toList = Line.spans 0 s.lines ∧
      (Line.spans 0 s.lines).Pairwise (fun a b => a.offset + a.length < b.offset) ∧
      s.lineCount = s.text.toList.count '\n' +
        (if s.text.toList ≠ [] ∧ s.text.toList.getLast? ≠ some '\n' then 1 else 0) ∧
      ∀ n, (s.line? n = none ↔ n = 0 ∨ s.lineCount < n) ∧
        Option.Rel (fun span chars => span.Marks s.text.toList chars) (s.lineSpan? n) (s.line? n) ∧
        s.numberedLines.filter (·.number = n) = (s.line? n).toList.map (NumberedLine.mk n) ∧
        ∀ m ≤ n, (s.linesFrom m).filter (·.number = n) = (s.line? n).toList.map (NumberedLine.mk n) := by
  have hdivide : Line.Divide s.text.toList s.lines := s.lines_eq ▸ Line.divide_split s.text.toList
  refine ⟨fun lines => ?_, ?_, Line.pairwise_spans 0 hdivide.not_endOfText, ?_, fun n => ?_⟩
  · rw [Line.divide_iff, s.lines_eq]
  · rw [← Text.bytes_toList, Line.scan_eq_spans, s.lines_eq]
  · rw [lineCount, s.lines_eq, Line.length_split]
  · exact ⟨line?_eq_none, s.rel_lineSpan?_line? n, filter_number_linesFrom (Nat.zero_le n),
      fun m hm => filter_number_linesFrom hm⟩

end Source

end BlockCheck
