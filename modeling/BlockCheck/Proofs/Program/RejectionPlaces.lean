import BlockCheck.Proofs.Program.Depth
import BlockCheck.Proofs.Program.NestingAgreement

/-!
# Where rejections point

A rejection names a line of the program, and its span lies in that line (`rejection_shows`). The span is the place of
the fault in the line, shifted by what stands before the line in the text, and so it shows in the text what the fault
shows in the line. Faults of the block structure have no place of their own and point to the whole line.
-/

namespace BlockCheck

open Text (Span size)

/-! ## Lines in the text -/

/-- The spans of lines mark the lines, in a text that may have something in front. -/
theorem Line.marks_of_spans {lines : List Line} (before : List Char) {n : Nat} {l : Line} (h : lines[n]? = some l) :
    ∃ span, (spans (size before) lines)[n]? = some span ∧ span.Marks (before ++ lines.flatMap text) l.chars := by
  induction lines generalizing before n with
  | nil => cases h
  | cons l' lines ih =>
    cases n with
    | zero =>
      cases h
      refine ⟨_, rfl, before, l.ending.chars ++ lines.flatMap text, ?_, rfl⟩
      rw [List.flatMap_cons, text, List.append_assoc]
    | succ n =>
      obtain ⟨span, hspan, hmarks⟩ := ih (before ++ l'.text) h
      rw [Text.size_append] at hspan
      rw [List.append_assoc] at hmarks
      exact ⟨span, hspan, hmarks⟩

/-- The span of a line marks its characters in the text. -/
theorem Source.marks_of_getElem? (s : Source) {n : Nat} {l : Line} (h : s.lines[n]? = some l) :
    ∃ span, s.lineSpan? (n + 1) = some span ∧ span.Marks s.text.toList l.chars := by
  obtain ⟨span, hspan, hmarks⟩ := Line.marks_of_spans [] h
  rw [List.nil_append, s.lines_eq, Line.flatMap_text_split] at hmarks
  exact ⟨span, hspan, hmarks⟩

theorem Source.lineSpan?_marks {s : Source} {line : NumberedLine} (h : line ∈ s.numberedLines) :
    ∃ span, s.lineSpan? line.number = some span ∧ span.Marks s.text.toList line.chars := by
  obtain ⟨⟨l, n⟩, hmem, rfl⟩ := List.mem_map.1 h
  exact s.marks_of_getElem? (List.mem_zipIdx_iff_getElem?.1 hmem)

/-! ## From the line to the text -/

theorem LineFault.pointsInto_ofBlock (line : List Char) (b : BlockFault) : (ofBlock b).PointsInto line := nofun

/-- A fault without a place names nothing. -/
theorem LineFault.names_nothing {f : LineFault} (h : f.span? = none) : f.part? = none ∧ f.category? = none := by
  cases f with
  | ofSyntax f =>
    cases f with
    | unexpectedToken expected found span => cases h; exact ⟨rfl, rfl⟩
    | unknownToken | unknownStatement => cases h
  | ofRule f => cases f <;> first | exact ⟨rfl, rfl⟩ | cases h
  | ofBlock b => exact ⟨rfl, rfl⟩

/-- The span of a rejection lies in its line, and shows in the text what the fault shows in the line. -/
theorem Rejection.shows_of_pointsInto {source : Source} {n : Nat} {chars : List Char} {lineSpan : Span} {f : LineFault}
    (hspan : source.lineSpan? n = some lineSpan) (hmarks : lineSpan.Marks source.text.toList chars)
    (hf : f.PointsInto chars) :
    lineSpan.offset ≤ (on source n f).span.offset ∧
      (on source n f).span.offset + (on source n f).span.length ≤ lineSpan.offset + lineSpan.length ∧
      (f.span? = none → (on source n f).span = lineSpan) ∧
      (on source n f).span.Shows source.text.toList f.part? f.category? := by
  have hon : (on source n f).span = f.span?.elim lineSpan (Span.shift lineSpan.offset) := by
    rw [on, hspan]
    rfl
  rw [hon]
  cases hplace : f.span? with
  | none =>
    obtain ⟨hpart, hcategory⟩ := LineFault.names_nothing hplace
    refine ⟨Nat.le_refl _, Nat.le_refl _, fun _ => rfl, chars, hmarks, ?_, ?_⟩
    · rw [hpart]
      exact nofun
    · rw [hcategory]
      exact nofun
  | some span =>
    obtain ⟨part, hpart, hshown⟩ := hf span hplace
    have hbounds := hpart.bounds
    have hlength : lineSpan.length = size chars := by
      obtain ⟨_, _, -, rfl⟩ := hmarks
      rfl
    refine ⟨Nat.le_add_right _ _, ?_, nofun, part, hmarks.shift hpart, hshown⟩
    show lineSpan.offset + span.offset + span.length ≤ _
    omega

/-! ## The line of a rejection -/

section Lines

variable {source : Source} {r : Rejection}

/-- The first pass rejects a line for a fault that points into it. -/
theorem line_of_readGlobals (h : (readGlobals source).outcome = .error r) :
    ∃ line ∈ source.numberedLines, ∃ f : LineFault, r = .on source line.number f ∧ f.PointsInto line.chars := by
  rcases GlobalPass.outcome_readGlobals_eq_error h with ⟨before, line, after, p, f, hsplit, -, hstep, rfl⟩ |
    ⟨p, hsteps, hopen, rfl⟩
  · refine ⟨line, by simp [hsplit], f, rfl, ?_⟩
    rcases GlobalPass.step_eq_error hstep with hf | rfl
    · exact hf.2
    · exact LineFault.pointsInto_ofBlock _ _
  · have hpos : 0 < source.lineCount := by
      rw [← Source.length_numberedLines]
      refine List.length_pos_iff.2 fun hnil => hopen ?_
      rw [hnil] at hsteps
      cases hsteps
      rfl
    obtain ⟨before, line, after, hsplit, hnumber⟩ := Source.exists_split hpos (Nat.le_refl _)
    refine ⟨line, by simp [hsplit], .ofBlock .mismatchedBraces, by rw [hnumber], ?_⟩
    exact LineFault.pointsInto_ofBlock _ _

/-- The second pass rejects a line for a fault that points into it. -/
theorem line_of_checkMethod {g : GlobalPass} {ordinal n : Nat} (hg : (readGlobals source).outcome = .ok g)
    (hn : g.headers[ordinal]? = some n) (h : (checkMethod source g.scopes ordinal n).outcome = .error r) :
    ∃ line ∈ source.numberedLines, ∃ f : LineFault, r = .on source line.number f ∧ f.PointsInto line.chars := by
  have hlines : ∀ line ∈ source.linesFrom (n + 1), line ∈ source.numberedLines := fun _ => List.mem_of_mem_drop
  obtain ⟨p, ⟨⟨name, m, header, hmethod, hheader, henter, -⟩, htracker⟩, hstep⟩ := startsAt_of_header hg hn
  have hinside : p.tracker.isGlobal = false := by rw [htracker]; rfl
  rcases outcome_checkMethod_eq_error hmethod hheader henter h with hfail | ⟨hopen, -⟩ | ⟨closing, q, hrun, -, rfl⟩
  · rcases MethodPass.outcome_run source p (source.linesFrom (n + 1)) with ⟨_, -, hrun⟩ |
      ⟨before, line, after, p', hsplit, hbefore, ⟨_, -, -, hrun⟩ | ⟨f, hfault, hrun⟩⟩
    · cases hrun.symm.trans hfail
    · cases hrun.symm.trans hfail
    · cases hrun.symm.trans hfail
      obtain ⟨-, -, -, hf⟩ := MethodPass.step_eq_error (hbefore.inside hinside) hfault
      exact ⟨line, hlines line (by simp [hsplit]), f, rfl, hf.2⟩
  · rcases hstep.closed with ⟨_, _, hrun, -⟩ | ⟨_, _, _, _, _, _, -, -, -, -, -, hrun⟩
    · cases hrun.symm.trans hopen
    · cases hrun.symm.trans hopen
  · rcases MethodPass.outcome_run source p (source.linesFrom (n + 1)) with ⟨_, -, hrun'⟩ |
      ⟨before, line, after, p', hsplit, -, ⟨_, -, -, hrun'⟩ | ⟨_, -, hrun'⟩⟩
    · cases hrun'.symm.trans hrun
    · cases hrun'.symm.trans hrun
      exact ⟨line, hlines line (by simp [hsplit]), _, rfl, LineFault.pointsInto_ofBlock _ _⟩
    · cases hrun'.symm.trans hrun

/-- **A rejection points at what it names.** Its line is one of the program and its span lies in this line, from one
character to another; it is the whole line if the fault has no place in it. If the fault carries a name, or text that
is no token, this is what stands there in the text. If it carries the category of a token that was found, what stands
there is one token of this category when it is read alone. -/
theorem rejection_shows (h : check source = .error r) : 1 ≤ r.line ∧ r.line ≤ source.lineCount ∧
    ∃ lineSpan, source.lineSpan? r.line = some lineSpan ∧ lineSpan.offset ≤ r.span.offset ∧
      r.span.offset + r.span.length ≤ lineSpan.offset + lineSpan.length ∧ (r.cause.span? = none → r.span = lineSpan) ∧
      ∃ part, (∀ chars, r.span.Marks source.text.toList chars ↔ chars = part) ∧
        (∀ name, r.cause.part? = some name → part = name.toList) ∧
        ∀ k, r.cause.category? = some k → ∃ t, readLine part = ⟨[t], none⟩ ∧ t.category = k := by
  obtain ⟨line, hmem, f, rfl, hf⟩ : ∃ line ∈ source.numberedLines, ∃ f : LineFault,
      r = .on source line.number f ∧ f.PointsInto line.chars := by
    rcases check_eq_error h with hread | ⟨g, i, n, hg, hn, hmethod⟩
    · exact line_of_readGlobals hread
    · exact line_of_checkMethod hg hn hmethod
  obtain ⟨before, after, hsplit⟩ := List.append_of_mem hmem
  obtain ⟨hnumber, hle⟩ := Source.number_bounds hsplit
  refine ⟨?_, hle, ?_⟩
  · show 1 ≤ line.number
    omega
  obtain ⟨lineSpan, hspan, hmarks⟩ := Source.lineSpan?_marks hmem
  obtain ⟨hstart, hend, hwhole, part, hpart, hshown⟩ := Rejection.shows_of_pointsInto hspan hmarks hf
  exact ⟨lineSpan, hspan, hstart, hend, hwhole, part, fun _ => ⟨fun h => h.unique hpart, fun h => h ▸ hpart⟩, hshown⟩

/-- A letter of two bytes behind a line that ends with two characters: it is no token, and the span is exactly where it
stands. -/
theorem rejection_shows_letter : ∃ (source : Source) (r : Rejection), check source = .error r ∧ r.line = 2 ∧
    r.span = ⟨16, 2⟩ ∧ r.span.Marks source.text.toList ['ü'] := by
  let source : Source := { name := "letter.sjava", text := "int ok;\r\n  ok = ü ;\n" }
  have hcheck : check source = .error ⟨2, ⟨16, 2⟩, .ofSyntax (.unknownToken "ü" ⟨7, 2⟩)⟩ := by decide +kernel
  obtain ⟨-, -, _, -, -, -, -, part, hmarks, hpart, -⟩ := rejection_shows hcheck
  have hletter : part = ['ü'] := hpart "ü" rfl
  exact ⟨source, _, hcheck, rfl, rfl, (hmarks _).2 hletter.symm⟩

end Lines

end BlockCheck
