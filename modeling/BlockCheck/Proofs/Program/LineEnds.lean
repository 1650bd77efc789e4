import BlockCheck.Proofs.Program.Correspondence
import BlockCheck.Proofs.Program.WrittenSource

/-!
# How lines end does not matter

A line may end with a newline or with a carriage return and a newline, and the last one with the text
(`LineEndsChanged`). The lines have the same characters whatever their ends are (`Line.split_of_lineEndsChanged`), so
the verdict is the same (`check_of_lineEndsChanged`). Only the places in the text move, by the carriage returns that
stand before them: inside of a line there is none.
-/

namespace BlockCheck

open Text (size Span)

/-- The second text has the lines of the first one with other ends: some newlines have a carriage return in front of
them, and if the last line is not empty, it may have got an end or lost its newline. -/
inductive LineEndsChanged : List Char → List Char → Prop
  | nil : LineEndsChanged [] []
  | char (c : Char) {cs cs' : List Char} : LineEndsChanged cs cs' → LineEndsChanged (c :: cs) (c :: cs')
  | newline {cs cs' : List Char} : LineEndsChanged cs cs' → LineEndsChanged ('\n' :: cs) ('\r' :: '\n' :: cs')
  | added {c : Char} (e : LineEnd) : c ≠ '\n' → LineEndsChanged [c] (c :: e.chars)
  | dropped {c : Char} : c ≠ '\n' → LineEndsChanged [c, '\n'] [c]

theorem LineEndsChanged.append (line : List Char) {cs cs' : List Char} (h : LineEndsChanged cs cs') :
    LineEndsChanged (line ++ cs) (line ++ cs') := by
  induction line with
  | nil => exact h
  | cons c line ih => exact .char c ih

/-! ## The lines -/

namespace Line

/-- The lines have the same characters. The ends of the last ones may be any; of the others, the first has a newline. -/
inductive SameChars : List Line → List Line → Prop
  | nil : SameChars [] []
  | last {chars : List Char} (e e' : LineEnd) : SameChars [⟨chars, e⟩] [⟨chars, e'⟩]
  | line {chars : List Char} {e' : LineEnd} {ls ls' : List Line} : '\r' ∉ chars → e' ≠ .endOfText → SameChars ls ls' →
      SameChars (⟨chars, .newline⟩ :: ls) (⟨chars, e'⟩ :: ls')

namespace SameChars

variable {ls ls' : List Line}

theorem extendFirst {c : Char} (hc : c ≠ '\r') (h : SameChars ls ls') :
    SameChars (Line.extendFirst c ls) (Line.extendFirst c ls') := by
  cases h with
  | nil => exact .last _ _
  | last e e' => exact .last e e'
  | line hchars he' hrest => exact .line (by simp [hc.symm, hchars]) he' hrest

theorem map_chars (h : SameChars ls ls') : ls'.map chars = ls.map chars := by
  induction h with
  | nil | last => rfl
  | line _ _ _ ih => exact congrArg (List.cons _) ih

end SameChars

/-- **The lines of a text do not depend on how they end.** -/
theorem split_of_lineEndsChanged {cs cs' : List Char} (h : LineEndsChanged cs cs') (hreturn : '\r' ∉ cs) :
    SameChars (split cs) (split cs') := by
  induction h with
  | nil => exact .nil
  | @char c cs cs' _ ih =>
    rw [List.mem_cons, not_or] at hreturn
    obtain ⟨hc, hcs⟩ := hreturn
    by_cases hnewline : c = '\n'
    · subst hnewline
      exact .line List.not_mem_nil nofun (ih hcs)
    · rw [split_cons_of_ne hnewline fun h => absurd h.symm hc, split_cons_of_ne hnewline fun h => absurd h.symm hc]
      exact (ih hcs).extendFirst (Ne.symm hc)
  | newline _ ih => exact .line List.not_mem_nil nofun (ih fun h => hreturn (List.mem_cons_of_mem _ h))
  | @added c e hc =>
    have hc' : c ≠ '\r' := fun h => hreturn (h ▸ List.mem_cons_self)
    have hsplit : ∀ cs, split (c :: cs) = extendFirst c (split cs) := fun _ =>
      split_cons_of_ne hc fun h => absurd h hc'
    rw [hsplit, hsplit]
    cases e <;> exact .last _ _
  | @dropped c hc =>
    have hc' : c ≠ '\r' := fun h => hreturn (h ▸ List.mem_cons_self)
    have hsplit : ∀ cs, split (c :: cs) = extendFirst c (split cs) := fun _ =>
      split_cons_of_ne hc fun h => absurd h hc'
    rw [hsplit, hsplit]
    exact .last _ _

/-- A line that ends with a newline has a byte less than one that ends with a carriage return as well. -/
theorem size_text_of_ending {chars : List Char} (hchars : '\r' ∉ chars) {e : LineEnd} (he : e ≠ .endOfText) :
    size (text ⟨chars, e⟩) = (text ⟨chars, e⟩).count '\r' + size (text ⟨chars, .newline⟩) := by
  have hcount : (text ⟨chars, e⟩).count '\r' = e.chars.count '\r' := by
    rw [text, List.count_append, List.count_eq_zero_of_not_mem hchars, Nat.zero_add]
  rw [hcount, text, text, Text.size_append, Text.size_append]
  cases e with
  | newline => exact (Nat.zero_add _).symm
  | returnNewline => exact Nat.add_left_comm (size chars) 1 1
  | endOfText => exact absurd rfl he

/-- **A line moves by the carriage returns in front of it.** -/
theorem spans_of_sameChars {ls ls' : List Line} (h : SameChars ls ls') (moved offset n : Nat) :
    (spans (moved + offset) ls')[n]? =
      (spans offset ls)[n]?.map (Span.shift (moved + ((ls'.take n).flatMap text).count '\r')) := by
  induction h generalizing moved offset n with
  | nil => rfl
  | last => cases n <;> rfl
  | @line chars e' ls ls' hchars he' _ ih =>
    cases n with
    | zero => rfl
    | succ n =>
      have hsize : moved + offset + size (text ⟨chars, e'⟩) =
          moved + (text ⟨chars, e'⟩).count '\r' + (offset + size (text ⟨chars, .newline⟩)) := by
        rw [size_text_of_ending hchars he']
        omega
      show (spans (moved + offset + size (text ⟨chars, e'⟩)) ls')[n]? = _
      rw [hsize, ih, List.take_succ_cons, List.flatMap_cons, List.count_append, Nat.add_assoc]
      rfl

end Line

/-! ## The verdict -/

/-- The number of carriage returns before line `n`. -/
def Source.returnsBefore (s : Source) (n : Nat) : Nat := ((s.lines.take (n - 1)).flatMap Line.text).count '\r'

section Verdict

variable {source source' : Source}

theorem Source.lineSpan?_of_sameChars (h : Line.SameChars source.lines source'.lines) {n : Nat} (hn : 1 ≤ n) :
    source'.lineSpan? n = (source.lineSpan? n).map (Span.shift (source'.returnsBefore n)) := by
  obtain ⟨k, rfl⟩ := Nat.exists_eq_add_of_le' hn
  have hspans := Line.spans_of_sameChars h 0 0 k
  rw [Nat.add_zero, Nat.zero_add] at hspans
  exact hspans

/-- A fault on a line is reported where the line has moved to. -/
theorem Rejection.on_of_sameChars (h : Line.SameChars source.lines source'.lines) {line : NumberedLine}
    (hline : line ∈ source.numberedLines) (f : LineFault) :
    on source' line.number f = { on source line.number f with
      span := (on source line.number f).span.shift (source'.returnsBefore line.number) } := by
  obtain ⟨before, after, hsplit⟩ := List.append_of_mem hline
  have hpos : 1 ≤ line.number := by
    have := (Source.number_bounds hsplit).1
    omega
  obtain ⟨span, hspan, -⟩ := Source.lineSpan?_marks hline
  unfold on
  rw [Source.lineSpan?_of_sameChars h hpos, hspan]
  cases hplace : f.span? with
  | none => rfl
  | some place =>
    show Rejection.mk line.number ⟨_ + span.offset + place.offset, place.length⟩ f = _
    rw [Nat.add_assoc]
    rfl

/-- **Line ends do not matter.** The report is the same, and so is a fault and its line; its place has moved by the
carriage returns before the line. -/
theorem check_of_lineEndsChanged (hreturn : '\r' ∉ source.text.toList)
    (h : LineEndsChanged source.text.toList source'.text.toList) :
    check source' = (check source).mapError fun r =>
      { r with span := r.span.shift (source'.returnsBefore r.line) } := by
  have hsame : Line.SameChars source.lines source'.lines := by
    rw [source.lines_eq, source'.lines_eq]
    exact Line.split_of_lineEndsChanged h hreturn
  have hlines : List.Forall₂ (Interchangeable (· = ·)) (source.lines.map Line.chars)
      (source'.lines.map Line.chars) := by
    rw [hsame.map_chars]
    exact List.forall₂_same.2 fun line _ => .refl (fun _ => rfl) line
  refine ((check_matched_of_lines (fun _ => rfl) hlines).weaken ?_ fun _ _ => id).eq_mapError
  rintro _ _ ⟨line, hline, f, _, rfl, rfl, rfl⟩
  exact Rejection.on_of_sameChars hsame hline f

/-- Three of five newlines get a carriage return, an empty line keeps its own, and the last line gets an end. The fault
on it has moved by three bytes. -/
theorem check_of_lineEndsChanged_mixed : ∃ source source' : Source, '\r' ∉ source.text.toList ∧
    LineEndsChanged source.text.toList source'.text.toList ∧
    check source = .error ⟨6, ⟨38, 1⟩, .ofRule (.undeclaredVariable "d" ⟨8, 1⟩)⟩ ∧
    check source' = .error ⟨6, ⟨41, 1⟩, .ofRule (.undeclaredVariable "d" ⟨8, 1⟩)⟩ := by
  let source : Source := { name := "ends.sjava", text := "int a;\n\nvoid f() \x7b\n return;\n\x7d\nint c = d;" }
  let source' : Source :=
    { name := "ends.sjava", text := "int a;\r\n\nvoid f() \x7b\r\n return;\n\x7d\r\nint c = d;\r\n" }
  have hreturn : '\r' ∉ source.text.toList := by decide
  have htext : source.text.toList = "int a;".toList ++ '\n' :: ("\nvoid f() \x7b".toList ++ '\n' ::
      (" return;\n\x7d".toList ++ '\n' :: ("int c = d".toList ++ [';']))) := by decide
  have htext' : source'.text.toList = "int a;".toList ++ '\r' :: '\n' :: ("\nvoid f() \x7b".toList ++ '\r' :: '\n' ::
      (" return;\n\x7d".toList ++ '\r' :: '\n' :: ("int c = d".toList ++ ';' :: LineEnd.returnNewline.chars))) := by
    decide
  have hends : LineEndsChanged source.text.toList source'.text.toList := by
    rw [htext, htext']
    exact .append _ (.newline (.append _ (.newline (.append _ (.newline (.append _ (.added _ (by decide))))))))
  have hcheck : check source = .error ⟨6, ⟨38, 1⟩, .ofRule (.undeclaredVariable "d" ⟨8, 1⟩)⟩ := by decide +kernel
  have hmoved : source'.returnsBefore 6 = 3 := by decide +kernel
  refine ⟨source, source', hreturn, hends, hcheck, ?_⟩
  rw [check_of_lineEndsChanged hreturn hends, hcheck]
  show Except.error (Rejection.mk 6 (Span.shift (source'.returnsBefore 6) _) _) = _
  rw [hmoved]
  rfl

end Verdict

end BlockCheck
