/-!
# Byte sizes and spans

A text is a list of characters, and its size is counted in UTF-8 bytes (`size`). A `Span` is a run of bytes given by
its first byte and its length; `Span.shift` moves it, so that a span inside a line becomes a span inside the whole
text. Sizes add up over concatenation (`size_append`).
-/

namespace BlockCheck.Text

/-- The number of UTF-8 bytes of a text. -/
def size : List Char → Nat
  | [] => 0
  | c :: cs => c.utf8Size + size cs

@[simp] theorem size_nil : size [] = 0 := rfl

@[simp] theorem size_cons (c : Char) (cs : List Char) : size (c :: cs) = c.utf8Size + size cs := rfl

@[simp] theorem size_append (as bs : List Char) : size (as ++ bs) = size as + size bs := by
  induction as with
  | nil => simp
  | cons a as ih => simp [ih, Nat.add_assoc]

/-- A text has at least as many bytes as characters. -/
theorem length_le_size (cs : List Char) : cs.length ≤ size cs := by
  induction cs with
  | nil => simp
  | cons c cs ih =>
    have := c.utf8Size_pos
    simp only [List.length_cons, size_cons]
    omega

/-- A text without bytes has no characters. -/
theorem size_eq_zero {cs : List Char} : size cs = 0 ↔ cs = [] := by
  cases cs with
  | nil => simp
  | cons c cs => have := c.utf8Size_pos; simp; omega

/-- A run of bytes of a text. -/
structure Span where
  /-- The number of bytes before the run. -/
  offset : Nat
  /-- The number of bytes of the run. -/
  length : Nat
  deriving DecidableEq, Repr

/-- The same run in a text that has `n` more bytes in front. -/
def Span.shift (n : Nat) (s : Span) : Span := ⟨n + s.offset, s.length⟩

end BlockCheck.Text
