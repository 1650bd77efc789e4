import BlockCheck.Proofs.Program.Correspondence
import BlockCheck.Proofs.Program.WrittenSource

/-!
# The first fault outside of methods

Text that is added behind a newline adds lines and changes none that are there, neither their characters
(`Line.split_append`) nor their places (`Line.spans_append`). So a run of the first pass that fails on a line fails on
it in the same way whatever follows (`check_of_fault_before`): no later line, and no body of a method, can hide the
first fault outside of methods.
-/

namespace BlockCheck

open Text (size Span)

namespace Line

/-- **The lines of a text that ends with a newline** stay what they are when text is added. -/
theorem split_append (cs rest : List Char) : split (cs ++ '\n' :: rest) = split (cs ++ ['\n']) ++ split rest := by
  induction cs using inductionOn with
  | nil => rfl
  | last cs _ h =>
    rw [split_append_newline h, split_append_newline h]
    rfl
  | line line cs h ih =>
    rw [List.append_assoc, List.append_assoc, List.cons_append, List.cons_append, split_append_newline h,
      split_append_newline h, ih]
    rfl

theorem spans_append (offset : Nat) (ls ls' : List Line) :
    spans offset (ls ++ ls') = spans offset ls ++ spans (offset + size (ls.flatMap text)) ls' := by
  induction ls generalizing offset with
  | nil => rfl
  | cons l ls ih =>
    rw [List.cons_append, spans, ih, List.flatMap_cons, Text.size_append, Nat.add_assoc]
    rfl

end Line

/-- A rejection depends on the source only through the place of its line. -/
theorem Rejection.on_of_lineSpan {source source' : Source} {n : Nat} (h : source'.lineSpan? n = source.lineSpan? n)
    (hline : (source.lineSpan? n).isSome = true) (f : LineFault) : on source' n f = on source n f := by
  obtain ⟨span, hspan⟩ := Option.isSome_iff_exists.1 hline
  unfold on
  rw [h, hspan]
  rfl

section Continuation

variable {source source' : Source} {more : List Line}

theorem Source.lineSpan?_of_append (h : source'.lines = source.lines ++ more) {l : NumberedLine}
    (hl : l ∈ source.numberedLines) :
    source'.lineSpan? l.number = source.lineSpan? l.number ∧ (source.lineSpan? l.number).isSome = true := by
  obtain ⟨⟨line, i⟩, hmem, rfl⟩ := List.mem_map.1 hl
  obtain ⟨span, hspan, -⟩ := Line.marks_of_spans [] (List.mem_zipIdx_iff_getElem?.1 hmem)
  have hspan : source.lineSpan? (i + 1) = some span := hspan
  refine ⟨?_, by rw [hspan]; rfl⟩
  obtain ⟨hlt, -⟩ := List.getElem?_eq_some_iff.1 hspan
  show (Line.spans 0 source'.lines)[i]? = (Line.spans 0 source.lines)[i]?
  rw [h, Line.spans_append, List.getElem?_append_left hlt]

/-- A fault that the first pass finds on a line is found there if lines are added. -/
theorem check_of_fault_of_append (h : source'.lines = source.lines ++ more) {r : Rejection}
    (hfault : (GlobalPass.run source {} source.numberedLines).outcome = .error r) : check source' = .error r := by
  obtain ⟨before, line, after, p, f, hsplit, hbefore, hstep, rfl⟩ := GlobalPass.outcome_run_eq_error hfault
  obtain ⟨hspan, hline⟩ := Source.lineSpan?_of_append h (l := line) (by rw [hsplit]; simp)
  have hsplit' : source'.numberedLines =
      before ++ line :: (after ++ numberFrom (1 + source.lines.length) (more.map Line.chars)) := by
    rw [Source.numberedLines_eq, h, List.map_append, numberFrom_append, List.length_map, ← Source.numberedLines_eq,
      hsplit, List.append_assoc]
    rfl
  rw [← Rejection.on_of_lineSpan hspan hline]
  refine check_of_readGlobals_error (readGlobals_of_run_error ?_)
  rw [hsplit']
  exact GlobalPass.outcome_run_of_fault hbefore hstep

/-- **The first fault outside of methods stays the first one.** If the first pass fails on a line of a text that ends
with a newline, every text that starts with it is rejected for the same fault, on the same line, at the same place. -/
theorem check_of_fault_before {rest : String} {r : Rejection} (htext : source'.text = source.text ++ rest)
    (hend : source.text.toList.getLast? = some '\n')
    (hfault : (GlobalPass.run source {} source.numberedLines).outcome = .error r) : check source' = .error r := by
  obtain ⟨front, hfront⟩ := List.getLast?_eq_some_iff.1 hend
  have hlines : source'.lines = source.lines ++ Line.split rest.toList := by
    rw [source'.lines_eq, source.lines_eq, htext, String.toList_append, hfront, List.append_assoc]
    exact Line.split_append front rest.toList
  exact check_of_fault_of_append hlines hfault

/-- A second declaration of a variable, behind a method: what follows it, a declaration that is wrong as well and a brace
too many, is never reported. -/
theorem check_of_fault_before_more : ∃ (source source' : Source) (rest : String) (r : Rejection),
    source'.text = source.text ++ rest ∧ source.text.toList.getLast? = some '\n' ∧
      (GlobalPass.run source {} source.numberedLines).outcome = .error r ∧ r.line = 5 ∧ check source' = .error r := by
  let rest := "int c = d;\n\x7d\n"
  let source : Source := { name := "start.sjava", text := "int a;\r\nvoid f() \x7b\n a = b;\n\x7d\nint a;\n" }
  let source' : Source := { name := "whole.sjava", text := source.text ++ rest }
  have hfault : (GlobalPass.run source {} source.numberedLines).outcome =
      .error ⟨5, ⟨33, 1⟩, .ofRule (.variableAlreadyDeclared "a" ⟨4, 1⟩)⟩ := by decide +kernel
  have hend : source.text.toList.getLast? = some '\n' := by decide
  exact ⟨source, source', rest, _, rfl, hend, hfault, rfl, check_of_fault_before rfl hend hfault⟩

end Continuation

end BlockCheck
