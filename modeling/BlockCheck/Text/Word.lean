import BlockCheck.Text.WordTable

/-!
# Word characters

A word is a run of letters, digits, marks, connector punctuation and joiners of any script. A keyword or a number
ends at the end of its word (`atWordEnd`), so no word character may follow it.
-/

namespace BlockCheck.Text

/-- A decimal digit of some script. -/
def isDigit (c : Char) : Bool := inRanges c.toNat digitRanges

/-- A character that may stand inside a word. -/
def isWordChar (c : Char) : Bool :=
  inRanges c.toNat letterRanges || isDigit c || inRanges c.toNat highLetterRanges

/-- No word goes on at the beginning of the text. -/
def atWordEnd : List Char → Bool
  | [] => true
  | c :: _ => !isWordChar c

/-- The number of digits at the beginning of the text. -/
def digitRun (cs : List Char) : Nat := (cs.takeWhile isDigit).length

/-- The number of word characters at the beginning of the text. -/
def wordRun (cs : List Char) : Nat := (cs.takeWhile isWordChar).length

theorem isWordChar_of_isDigit {c : Char} (h : isDigit c = true) : isWordChar c = true := by
  simp [isWordChar, h]

theorem digitRun_le_length (cs : List Char) : digitRun cs ≤ cs.length :=
  (List.takeWhile_sublist _).length_le

theorem wordRun_le_length (cs : List Char) : wordRun cs ≤ cs.length :=
  (List.takeWhile_sublist _).length_le

/-- A word run ends where the word does. -/
theorem atWordEnd_drop_wordRun (cs : List Char) : atWordEnd (cs.drop (wordRun cs)) = true := by
  induction cs with
  | nil => rfl
  | cons c cs ih =>
    cases h : isWordChar c with
    | true => simpa [wordRun, List.takeWhile, h] using ih
    | false => simp [wordRun, List.takeWhile, h, atWordEnd]

end BlockCheck.Text
