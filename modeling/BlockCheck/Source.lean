import BlockCheck.Text.Span

/-!
# Sources and their lines

A source is a named text. Its lines are numbered from 1; a line ends at a newline or at a carriage return followed by
a newline, and the last line may end with the text. `Line.split` cuts the text and keeps how each line ended, so that
nothing is lost (`flatMap_text_split`). `line?`, `lineSpan?` and `linesFrom` read the same list of lines.
-/

namespace BlockCheck

open Text (Span size)

/-! ## Cutting a text into lines -/

/-- What ends a line. -/
inductive LineEnd
  | newline
  | returnNewline
  /-- The text ends first. -/
  | endOfText
  deriving DecidableEq, Repr

/-- The characters that end the line. -/
def LineEnd.chars : LineEnd → List Char
  | .newline => ['\n']
  | .returnNewline => ['\r', '\n']
  | .endOfText => []

/-- A line: its characters, and what ends it. -/
structure Line where
  chars : List Char
  ending : LineEnd
  deriving DecidableEq, Repr

namespace Line

/-- The line together with its end. -/
def text (l : Line) : List Char := l.chars ++ l.ending.chars

/-- The lines of a text that has the character `c` in front of the given lines; `c` ends no line. -/
def extendFirst (c : Char) : List Line → List Line
  | [] => [⟨[c], .endOfText⟩]
  | l :: ls => ⟨c :: l.chars, l.ending⟩ :: ls

/-- The lines of a text. A text that ends with a newline has no empty line after it. -/
def split : List Char → List Line
  | [] => []
  | '\n' :: cs => ⟨[], .newline⟩ :: split cs
  | '\r' :: '\n' :: cs => ⟨[], .returnNewline⟩ :: split cs
  | c :: cs => extendFirst c (split cs)

/-- The spans of the lines' characters, when `offset` bytes stand before the first line. -/
def spans (offset : Nat) : List Line → List Span
  | [] => []
  | l :: ls => ⟨offset, size l.chars⟩ :: spans (offset + size l.text) ls

theorem flatMap_text_extendFirst (c : Char) (ls : List Line) :
    (extendFirst c ls).flatMap text = c :: ls.flatMap text := by
  cases ls <;> simp [extendFirst, text, LineEnd.chars]

/-- **No character is lost**: the lines with their ends are the text. -/
theorem flatMap_text_split (cs : List Char) : (split cs).flatMap text = cs := by
  fun_induction split cs with
  | case1 => rfl
  | case2 cs ih => simp [text, LineEnd.chars, ih]
  | case3 cs ih => simp [text, LineEnd.chars, ih]
  | case4 c cs _ _ ih => rw [flatMap_text_extendFirst, ih]

theorem length_spans (offset : Nat) (ls : List Line) : (spans offset ls).length = ls.length := by
  induction ls generalizing offset with
  | nil => rfl
  | cons l ls ih => simp [spans, ih]

end Line

/-! ## Sources -/

/-- A named text and its lines. -/
structure Source where
  /-- What diagnostics and the log call the text, usually a path. -/
  name : String
  text : String
  lines : List Line := Line.split text.toList
  lines_eq : lines = Line.split text.toList := by rfl

/-- The characters of a line, and the line's number. -/
structure NumberedLine where
  number : Nat
  chars : List Char
  deriving DecidableEq, Repr

namespace Source

variable (s : Source)

def lineCount : Nat := s.lines.length

/-- The size of the text in bytes. -/
def byteSize : Nat := size s.text.toList

/-- The characters of line `n`; there is no line 0 and none beyond the last. -/
def line? : Nat → Option (List Char)
  | 0 => none
  | n + 1 => s.lines[n]?.map Line.chars

/-- Where the characters of line `n` stand in the text. -/
def lineSpan? : Nat → Option Span
  | 0 => none
  | n + 1 => (Line.spans 0 s.lines)[n]?

/-- All lines with their numbers. -/
def numberedLines : List NumberedLine := s.lines.zipIdx.map fun (l, i) => ⟨i + 1, l.chars⟩

/-- The lines from number `n` on; 0 counts as 1. -/
def linesFrom (n : Nat) : List NumberedLine := s.numberedLines.drop (n - 1)

theorem length_numberedLines : s.numberedLines.length = s.lineCount := by
  simp [numberedLines, lineCount]

/-- A line and its span are there for the same numbers. -/
theorem isSome_lineSpan? (n : Nat) : (s.lineSpan? n).isSome = (s.line? n).isSome := by
  cases n with
  | zero => rfl
  | succ n =>
    rw [Bool.eq_iff_iff]
    simp [lineSpan?, line?, Line.length_spans]

end Source

end BlockCheck
