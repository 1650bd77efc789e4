import BlockCheck.Proofs.Program.Correspondence
import BlockCheck.Proofs.Program.WrittenSource

/-!
# Blank lines change nothing

A line that is blank or a comment may be inserted anywhere (`check_insert_blank`). The verdict is the same, and so is
the report, but for the number of lines. A fault is the same, on its line, which has moved if it stands behind the
inserted one; braces that are open at the end are reported on the new last line.
-/

namespace BlockCheck

open Text (allBlank)

/-- The number of a line after another one has been inserted behind the first `n` lines. -/
def movedBehind (n line : Nat) : Nat := if line ≤ n then line else line + 1

namespace Line

/-- What is read of a blank line is blank. -/
theorem isBlankLine_ofWritten {line : List Char} (h : isBlankLine line = true) :
    isBlankLine (ofWritten line).chars = true := by
  unfold ofWritten
  split
  · next hlast =>
    rw [isBlankLine_iff] at h ⊢
    rcases h with hcomment | hblank
    · left
      -- The two slashes are in front of the carriage return.
      unfold isComment at hcomment
      split at hcomment
      · next rest =>
        cases rest with
        | nil => cases hlast
        | cons c rest => rfl
      · cases hcomment
    · exact .inr (List.all_eq_true.2 fun c hc => List.all_eq_true.1 hblank c ((List.dropLast_sublist line).subset hc))
  · exact h

end Line

/-- Lines before and behind an inserted one correspond to those of the text without it. -/
theorem corresponds_of_insert (before after : List (List Char)) {blank : List Char} (h : isBlankLine blank = true) :
    Corresponds (· = ·) (movedBehind before.length) (numberFrom 1 (before ++ after))
      (numberFrom 1 (before ++ blank :: after)) := by
  have hsame : ∀ lines : List (List Char), List.Forall₂ (Interchangeable (· = ·)) lines lines := fun lines =>
    List.forall₂_same.2 fun line _ => .refl (fun _ => rfl) line
  rw [numberFrom_append, numberFrom_append]
  refine (corresponds_numberFrom (d := 0) (hsame before) fun k _ hk => if_pos (by omega)).append (.blank h ?_)
  exact corresponds_numberFrom (d := 1) (hsame after) fun k hk _ => if_neg (by omega)

/-- **A blank line or a comment may be inserted anywhere.** The report counts one line more. A fault has the same cause,
on its own line; a program that ends with an open block is rejected on its last line. -/
theorem check_insert_blank (name : String) (before after : List (List Char)) (blank : List Char)
    (hlines : ∀ line ∈ before ++ blank :: after, '\n' ∉ line) (hblank : allBlank blank = true ∨ isComment blank = true) :
    check (.ofLines name (before ++ blank :: after)) =
        ((check (.ofLines name (before ++ after))).map fun report => { report with lines := report.lines + 1 }).mapError
          (fun r => .on (.ofLines name (before ++ blank :: after))
            (if endsOpen (.ofLines name (before ++ after)) then before.length + after.length + 1
              else movedBehind before.length r.line) r.cause) ∧
      (endsOpen (.ofLines name (before ++ after)) = true → check (.ofLines name (before ++ after)) =
        .error (.on (.ofLines name (before ++ after)) (before.length + after.length) (.ofBlock .mismatchedBraces))) := by
  have hlines' : ∀ line ∈ before ++ after, '\n' ∉ line := fun line hline => hlines line (by
    rw [List.mem_append] at hline ⊢
    exact hline.imp_right (List.mem_cons_of_mem _))
  have hcount : (Source.ofLines name (before ++ after)).lineCount = before.length + after.length := by
    rw [Source.lineCount_ofLines_of_newline hlines', List.length_append]
  have hcount' : (Source.ofLines name (before ++ blank :: after)).lineCount = before.length + after.length + 1 := by
    rw [Source.lineCount_ofLines_of_newline hlines, List.length_append, List.length_cons, Nat.add_assoc]
  have hcorresponds : Corresponds (· = ·) (movedBehind before.length)
      (Source.ofLines name (before ++ after)).numberedLines
      (Source.ofLines name (before ++ blank :: after)).numberedLines := by
    have hinsert := corresponds_of_insert (before.map (Line.chars ∘ Line.ofWritten))
      (after.map (Line.chars ∘ Line.ofWritten)) (Line.isBlankLine_ofWritten (isBlankLine_iff.2 hblank.symm))
    rw [List.length_map] at hinsert
    rw [Source.numberedLines_eq, Source.numberedLines_eq, Source.lines_ofLines_of_newline hlines,
      Source.lines_ofLines_of_newline hlines']
    simpa using hinsert
  refine ⟨?_, fun hopen => hcount ▸ check_of_endsOpen hopen⟩
  rw [check_eq_of_corresponds hcorresponds, hcount', ← hcount]
  cases hcheck : check (.ofLines name (before ++ after)) with
  | ok report =>
    obtain ⟨g, -, -, rfl⟩ := check_eq_ok.1 hcheck
    rfl
  | error r =>
    show Except.error (Rejection.on _ (placeIn _ _ _ r.line) r.cause) = _
    rw [placeIn, hcount', hcount]
    rfl

/-- A comment with braces in it stands between the return of a method and its closing brace: the fault behind the method
is reported one line below. -/
theorem check_insert_comment_after_return : ∃ (before after : List (List Char)) (comment : List Char) (r : Rejection),
    (∀ line ∈ before ++ comment :: after, '\n' ∉ line) ∧ isComment comment = true ∧
      check (.ofLines "comment.sjava" (before ++ after)) = .error r ∧ r.line = 4 ∧
      check (.ofLines "comment.sjava" (before ++ comment :: after)) =
        .error (.on (.ofLines "comment.sjava" (before ++ comment :: after)) 5 r.cause) := by
  let before := ["void f() \x7b".toList, " return;".toList]
  let after := ["\x7d".toList, "int a = b;".toList]
  let comment := "// if (true) \x7b \x7d\r".toList
  have hlines : ∀ line ∈ before ++ comment :: after, '\n' ∉ line := by decide +kernel
  have hcheck : check (.ofLines "comment.sjava" (before ++ after)) =
      .error ⟨4, ⟨30, 1⟩, .ofRule (.undeclaredVariable "b" ⟨8, 1⟩)⟩ := by decide +kernel
  have hclosed : endsOpen (.ofLines "comment.sjava" (before ++ after)) = false := by decide +kernel
  refine ⟨before, after, comment, _, hlines, rfl, hcheck, rfl, ?_⟩
  rw [(check_insert_blank "comment.sjava" before after comment hlines (.inr rfl)).1, hcheck, hclosed]
  rfl

end BlockCheck
