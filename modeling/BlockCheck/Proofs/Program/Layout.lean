import BlockCheck.Proofs.Line.Layout
import BlockCheck.Proofs.Program.Correspondence
import BlockCheck.Proofs.Program.WrittenSource

/-!
# The layout of a program is not checked

A program may be laid out anew: every line is replaced by its tokens with a blank between them, so that comments become
empty lines (`Source.respaced`). If every line can be read to its end, the new program has the same verdict
(`check_respaced`): the report is the same, or a fault of the same kind is on the same line. What the fault points at
is of course at another place.
-/

namespace BlockCheck

/-- A line may be laid out anew. -/
theorem interchangeable_respaced {line : List Char} (hline : '\n' ∉ line) (h : (readLine line).failure = none) :
    Interchangeable (SameKind LineFault.kind) line (respaced line) := by
  obtain ⟨ts, hread', halike⟩ := readLine_respaced line
  have hread : readLine line = ⟨(readLine line).tokens, none⟩ := by rw [← h]
  obtain ⟨hopens, hcloses⟩ := braces_respaced hline h
  exact ⟨hopens, hcloses, fun c placement => c.checkLineAt_matched hread hread' halike placement⟩

namespace Source

/-- The source with all lines laid out anew and a newline after each of them. -/
def respaced (s : Source) : Source := .ofLines s.name (s.lines.map fun l => BlockCheck.respaced l.chars)

/-- The lines of the new source are the lines laid out anew. -/
theorem chars_respaced (s : Source) :
    s.respaced.lines.map Line.chars = (s.lines.map Line.chars).map BlockCheck.respaced := by
  have hwritable : Writable (s.lines.map fun l => BlockCheck.respaced l.chars) := by
    rintro _ hmem
    obtain ⟨l, hl, rfl⟩ := List.mem_map.1 hmem
    have hnewline : '\n' ∉ l.chars := Line.newline_not_mem_split _ l (s.lines_eq ▸ hl)
    refine ⟨newline_not_mem_respaced hnewline, fun hreturn => ?_⟩
    have hblank := last_respaced l.chars '\r' hreturn
    cases hblank
  rw [respaced, chars_ofLines hwritable, List.map_map]
  rfl

theorem line?_respaced (s : Source) (n : Nat) : s.respaced.line? n = (s.line? n).map BlockCheck.respaced := by
  cases n with
  | zero => rfl
  | succ n =>
    show s.respaced.lines[n]?.map Line.chars = (s.lines[n]?.map Line.chars).map BlockCheck.respaced
    rw [← List.getElem?_map, ← List.getElem?_map, ← List.getElem?_map, chars_respaced]

end Source

/-- **Layout does not matter.** A program all of whose lines can be read to their end has the same report when it is
laid out anew, or a fault of the same kind is on the same line. No new line is a comment, and the same braces count. -/
theorem check_respaced (source : Source)
    (h : ∀ line ∈ source.numberedLines, (readLine line.chars).failure = none) :
    Matched (fun r r' => r'.line = r.line ∧ r'.kind = r.kind) (· = ·) (check source) (check source.respaced) ∧
      ∀ n line, source.line? n = some line → source.respaced.line? n = some (respaced line) ∧
        isComment (respaced line) = false ∧ opensBlock (respaced line) = opensBlock line ∧
          closesBlock (respaced line) = closesBlock line := by
  have hread : ∀ line ∈ source.lines.map Line.chars, '\n' ∉ line ∧ (readLine line).failure = none := by
    intro line hline
    rw [← Source.map_chars_numberedLines] at hline
    obtain ⟨l, hl, rfl⟩ := List.mem_map.1 hline
    exact ⟨Source.newline_not_mem hl, h l hl⟩
  constructor
  · have hlines : List.Forall₂ (Interchangeable (SameKind LineFault.kind)) (source.lines.map Line.chars)
        (source.respaced.lines.map Line.chars) := by
      rw [Source.chars_respaced, List.forall₂_map_right_iff, List.forall₂_same]
      exact fun line hline => interchangeable_respaced (hread line hline).1 (hread line hline).2
    refine (check_matched_of_lines (SameKind.refl _) hlines).weaken ?_ fun _ _ => id
    rintro _ _ ⟨line, -, f, f', hkind, rfl, rfl⟩
    exact ⟨rfl, hkind⟩
  · intro n line hline
    have hmem : line ∈ source.lines.map Line.chars := by
      cases n with
      | zero => cases hline
      | succ n =>
        obtain ⟨l, hl, rfl⟩ := Option.map_eq_some_iff.1 hline
        exact List.mem_map_of_mem (List.mem_of_getElem? hl)
    refine ⟨by rw [Source.line?_respaced, hline]; rfl, isComment_respaced line, ?_⟩
    exact braces_respaced (hread line hmem).1 (hread line hmem).2

/-- Tokens without blanks between them, tabs, and a comment with a brace: the call of a method that is not declared is
found on the fourth line of either program. -/
theorem check_respaced_call : ∃ (source : Source) (r r' : Rejection),
    (∀ line ∈ source.numberedLines, (readLine line.chars).failure = none) ∧
    source.respaced.line? 3 = some "while ( a || true && -1.5 ) \x7b".toList ∧
    check source = .error r ∧ check source.respaced = .error r' ∧ r'.line = 4 ∧ r'.kind = r.kind := by
  -- The equation stands for the definition: comparing the two programs must not run the checker.
  obtain ⟨source, hsource⟩ : ∃ source : Source, source =
      { name := "layout.sjava"
        text := "// void \x7b\r\nvoid f(final int  a)\x7b\n\twhile(a||true&&-1.5)\x7b\n g  (a) ; \n\x7d\nreturn;\n\x7d" } :=
    ⟨_, rfl⟩
  have hread : ∀ line ∈ source.numberedLines, (readLine line.chars).failure = none := by
    rw [hsource]
    decide +kernel
  have hcheck : check source = .error ⟨4, ⟨57, 1⟩, .ofRule (.undeclaredMethod "g" ⟨1, 1⟩)⟩ := by
    rw [hsource]
    decide +kernel
  have hline : source.line? 3 = some "\twhile(a||true&&-1.5)\x7b".toList := by
    rw [hsource]
    decide +kernel
  have hrespaced : respaced "\twhile(a||true&&-1.5)\x7b".toList = "while ( a || true && -1.5 ) \x7b".toList := by
    decide +kernel
  obtain ⟨hsame, hlines⟩ := check_respaced source hread
  obtain ⟨r', hcheck', hnumber, hkind⟩ := hsame.of_error hcheck
  exact ⟨source, _, r', hread, (hlines 3 _ hline).1.trans (congrArg some hrespaced), hcheck, hcheck', hnumber, hkind⟩

end BlockCheck
