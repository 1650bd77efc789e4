/-!
# Blank characters

The characters with the property `White_Space`, and the three ways a line is cut at them: `skipBlanks` drops the
leading ones, `trim` those at both ends, and `firstWord` keeps what stands before the first of them.
-/

namespace BlockCheck.Text

/-- The character separates words: it has the property `White_Space`. -/
def isBlank (c : Char) : Bool :=
  let n := c.toNat
  (0x09 ≤ n && n ≤ 0x0D) || n == 0x20 || n == 0x85 || n == 0xA0 || n == 0x1680 || (0x2000 ≤ n && n ≤ 0x200A) ||
    n == 0x2028 || n == 0x2029 || n == 0x202F || n == 0x205F || n == 0x3000

/-- The text holds blank characters only. -/
def allBlank (cs : List Char) : Bool := cs.all isBlank

/-- The text from its first character that is not blank. -/
def skipBlanks (cs : List Char) : List Char := cs.dropWhile isBlank

/-- The text without blank characters at its end. -/
def trimEnd (cs : List Char) : List Char := (skipBlanks cs.reverse).reverse

/-- The text without blank characters at either end. -/
def trim (cs : List Char) : List Char := trimEnd (skipBlanks cs)

/-- The longest beginning of the text that holds no blank character. -/
def firstWord (cs : List Char) : List Char := cs.takeWhile fun c => !isBlank c

/-- What `skipBlanks` leaves is empty or starts with a character that is not blank. -/
theorem isBlank_head_skipBlanks {cs rest : List Char} {c : Char} (h : skipBlanks cs = c :: rest) :
    isBlank c = false := by
  induction cs with
  | nil => simp [skipBlanks] at h
  | cons d ds ih =>
    cases hd : isBlank d with
    | true => exact ih (by simpa [skipBlanks, hd] using h)
    | false =>
      simp only [skipBlanks, List.dropWhile, hd, List.cons.injEq] at h
      exact h.1 ▸ hd

end BlockCheck.Text
