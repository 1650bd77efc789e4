import BlockCheck.Source

/-!
# Sources written line by line

Lines are written out with a newline after each of them (`Source.ofLines`). If no line holds a newline, they can be told
apart again, except that a carriage return at the end of a line is taken for a part of its end
(`Source.lines_ofLines_of_newline`); if there is none, they are the lines of the source (`Source.lines_ofLines`). Any
text can be taken apart in this way, one line after another (`Line.inductionOn`).
-/

namespace BlockCheck

/-- The lines can be told apart once they are written out. -/
def Writable (lines : List (List Char)) : Prop := ∀ line ∈ lines, '\n' ∉ line ∧ line.getLast? ≠ some '\r'

/-- The lines with a newline after each of them. -/
def writtenOut (lines : List (List Char)) : List Char := lines.flatMap (· ++ ['\n'])

namespace Line

theorem split_cons_of_ne {c : Char} {cs : List Char} (hc : c ≠ '\n') (hcr : c = '\r' → cs.head? ≠ some '\n') :
    split (c :: cs) = extendFirst c (split cs) := by
  rw [split]
  · exact hc
  · rintro rest rfl rfl
    exact hcr rfl rfl

/-- The line that is read where the given one is written with a newline after it: a carriage return at its end belongs
to the end of the line. -/
def ofWritten (line : List Char) : Line :=
  if line.getLast? = some '\r' then ⟨line.dropLast, .returnNewline⟩ else ⟨line, .newline⟩

theorem ofWritten_of_last {line : List Char} (h : line.getLast? ≠ some '\r') : ofWritten line = ⟨line, .newline⟩ :=
  if_neg h

theorem ofWritten_cons (c : Char) {line : List Char} (h : c ≠ '\r' ∨ line ≠ []) :
    ofWritten (c :: line) = ⟨c :: (ofWritten line).chars, (ofWritten line).ending⟩ := by
  cases line with
  | nil => exact ofWritten_of_last fun hlast => h.elim (· (Option.some.inj hlast)) (· rfl)
  | cons d line =>
    unfold ofWritten
    rw [List.getLast?_cons_cons, List.dropLast_cons_of_ne_nil (List.cons_ne_nil d line)]
    split <;> rfl

/-- The first line ends at its newline. -/
theorem split_append_newline {line rest : List Char} (hnewline : '\n' ∉ line) :
    split (line ++ '\n' :: rest) = ofWritten line :: split rest := by
  induction line with
  | nil => rfl
  | cons c cs ih =>
    rw [List.mem_cons, not_or] at hnewline
    obtain ⟨hc, hcs⟩ := hnewline
    by_cases hreturn : c = '\r' ∧ cs = []
    · obtain ⟨rfl, rfl⟩ := hreturn
      rfl
    · have hnext : c = '\r' → (cs ++ '\n' :: rest).head? ≠ some '\n' := by
        rintro rfl
        cases cs with
        | nil => exact absurd ⟨rfl, rfl⟩ hreturn
        | cons c' cs' => exact fun h => hcs (Option.some.inj h ▸ List.mem_cons_self)
      rw [List.cons_append, split_cons_of_ne (Ne.symm hc) hnext, ih hcs,
        ofWritten_cons c (Decidable.not_and_iff_not_or_not.1 hreturn)]
      rfl

/-- The written line, with its newline, is what is read. -/
theorem text_ofWritten (line : List Char) : (ofWritten line).text = line ++ ['\n'] := by
  unfold ofWritten
  split
  · next hlast =>
    obtain ⟨front, rfl⟩ := List.getLast?_eq_some_iff.1 hlast
    rw [List.dropLast_concat, text, List.append_assoc]
    rfl
  · rfl

/-- What holds of every text: of the empty one, of a last line, and of a line with its newline and what follows if it
holds of what follows. -/
@[elab_as_elim]
theorem inductionOn {motive : List Char → Prop} (cs : List Char) (nil : motive [])
    (last : ∀ cs, cs ≠ [] → '\n' ∉ cs → motive cs)
    (line : ∀ line rest, '\n' ∉ line → motive rest → motive (line ++ '\n' :: rest)) : motive cs := by
  by_cases hmem : '\n' ∈ cs
  · obtain ⟨first, rest, hcs, hfirst⟩ := List.eq_append_cons_of_mem hmem
    exact hcs ▸ line first rest hfirst (inductionOn rest nil last line)
  · by_cases hnil : cs = []
    · exact hnil ▸ nil
    · exact last cs hnil hmem
termination_by cs.length
decreasing_by
  rw [hcs, List.length_append, List.length_cons]
  omega

theorem split_last {cs : List Char} (hne : cs ≠ []) (h : '\n' ∉ cs) : split cs = [⟨cs, .endOfText⟩] := by
  induction cs with
  | nil => exact absurd rfl hne
  | cons c cs ih =>
    rw [List.mem_cons, not_or] at h
    obtain ⟨hc, hcs⟩ := h
    have hnext : c = '\r' → cs.head? ≠ some '\n' := fun _ hhead => hcs (List.mem_of_head? hhead)
    rw [split_cons_of_ne (Ne.symm hc) hnext]
    cases cs with
    | nil => rfl
    | cons d cs => rw [ih (List.cons_ne_nil d cs) hcs, extendFirst]

theorem split_writtenOut {lines : List (List Char)} (h : ∀ line ∈ lines, '\n' ∉ line) :
    split (writtenOut lines) = lines.map ofWritten := by
  induction lines with
  | nil => rfl
  | cons line lines ih =>
    obtain ⟨hline, hlines⟩ := List.forall_mem_cons.1 h
    rw [writtenOut, List.flatMap_cons, List.append_assoc, List.singleton_append, split_append_newline hline]
    exact congrArg _ (ih hlines)

end Line

namespace Source

/-- The source with the given lines. -/
def ofLines (name : String) (lines : List (List Char)) : Source where
  name
  text := String.ofList (writtenOut lines)

theorem lines_ofLines_of_newline {name : String} {lines : List (List Char)} (h : ∀ line ∈ lines, '\n' ∉ line) :
    (ofLines name lines).lines = lines.map Line.ofWritten := by
  rw [(ofLines name lines).lines_eq, ofLines, String.toList_ofList]
  exact Line.split_writtenOut h

theorem lines_ofLines {name : String} {lines : List (List Char)} (h : Writable lines) :
    (ofLines name lines).lines = lines.map (⟨·, .newline⟩) := by
  rw [lines_ofLines_of_newline fun line hline => (h line hline).1]
  exact List.map_congr_left fun line hline => Line.ofWritten_of_last (h line hline).2

theorem chars_ofLines {name : String} {lines : List (List Char)} (h : Writable lines) :
    (ofLines name lines).lines.map Line.chars = lines := by
  rw [lines_ofLines h, List.map_map]
  exact List.map_id lines

theorem lineCount_ofLines_of_newline {name : String} {lines : List (List Char)} (h : ∀ line ∈ lines, '\n' ∉ line) :
    (ofLines name lines).lineCount = lines.length := by
  rw [lineCount, lines_ofLines_of_newline h, List.length_map]

theorem lineCount_ofLines {name : String} {lines : List (List Char)} (h : Writable lines) :
    (ofLines name lines).lineCount = lines.length := lineCount_ofLines_of_newline fun line hline => (h line hline).1

end Source

end BlockCheck
