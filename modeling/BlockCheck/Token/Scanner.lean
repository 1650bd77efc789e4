import BlockCheck.Text.Blank
import BlockCheck.Token.Fault
import BlockCheck.Token.Lexeme

/-!
# Reading a line token by token

A `Scanner` is what is left of a line. `Scanner.next?` takes the next token off it: the lexeme of the first category
in priority order that matches, after which blank characters are skipped. Where none matches the scanner gives up the
rest of the line. A line that starts with two slashes is a comment and holds no token.

`Scanner.reading` collects all tokens of a line at once; it is characterised by `reading_eq`.
-/

namespace BlockCheck

open Text (Span size skipBlanks firstWord isBlank)

/-- A token of a line. -/
structure Token where
  category : Category
  /-- The token's text, kept where tokens of the category differ in it. -/
  text : Option String
  span : Span
  deriving DecidableEq, Repr

/-- The name that the token stands for; a token without text has the empty name. -/
def Token.name (t : Token) : String := t.text.getD ""

/-- The line is a comment: it starts with two slashes. Slashes after a blank start no comment. -/
def isComment : List Char → Bool
  | '/' :: '/' :: _ => true
  | _ => false

/-- What is left of a line. -/
structure Scanner where
  /-- The number of bytes read. -/
  offset : Nat
  rest : List Char
  deriving DecidableEq, Repr

namespace Scanner

/-- Skips the blank characters in front. -/
def skip (s : Scanner) : Scanner := ⟨s.offset + size (s.rest.takeWhile isBlank), skipBlanks s.rest⟩

/-- Nothing is left after the given number of bytes. -/
def atEnd (offset : Nat) : Scanner := ⟨offset, []⟩

def ofLine (line : List Char) : Scanner :=
  if isComment line then atEnd (size line) else skip ⟨0, line⟩

/-- The token of category `k` that takes the next `n` characters. -/
def token (s : Scanner) (k : Category) (n : Nat) : Token where
  category := k
  text := if k.keepsText then some (String.ofList (s.rest.take n)) else none
  span := ⟨s.offset, size (s.rest.take n)⟩

/-- The scanner after the next `n` characters and the blanks that follow them. -/
def after (s : Scanner) (n : Nat) : Scanner := skip ⟨s.offset + size (s.rest.take n), s.rest.drop n⟩

/-- Names the text up to the next blank as no token of the language. -/
def unknown (s : Scanner) : SyntaxFault :=
  .unknownToken (String.ofList (firstWord s.rest)) ⟨s.offset, size (firstWord s.rest)⟩

/-- The next token, or why there is none, and what is left after it. `none` at the end of the line. -/
def next? (s : Scanner) : Option (Except SyntaxFault Token × Scanner) :=
  if s.rest.isEmpty then none
  else
    match Category.firstMatch? s.rest with
    | none => some (.error s.unknown, atEnd (s.offset + size s.rest))
    | some (k, n) => some (.ok (s.token k n), s.after n)

theorem next?_atEnd (offset : Nat) : (atEnd offset).next? = none := rfl

theorem length_rest_skip_le (s : Scanner) : s.skip.rest.length ≤ s.rest.length :=
  (List.dropWhile_sublist _).length_le

theorem length_rest_after_lt {s : Scanner} {n : Nat} (hn : 0 < n) (hs : n ≤ s.rest.length) :
    (s.after n).rest.length < s.rest.length := by
  have h := length_rest_skip_le ⟨s.offset + size (s.rest.take n), s.rest.drop n⟩
  rw [List.length_drop] at h
  exact Nat.lt_of_le_of_lt h (by omega)

/-- Each item takes something off the line. -/
theorem length_rest_lt_of_next? {s s' : Scanner} {item : Except SyntaxFault Token} (h : s.next? = some (item, s')) :
    s'.rest.length < s.rest.length := by
  unfold next? at h
  split at h
  · cases h
  · next hne =>
    have hpos : 0 < s.rest.length := by
      cases hr : s.rest with
      | nil => simp [hr] at hne
      | cons => simp
    split at h
    · simp only [Option.some.injEq, Prod.mk.injEq] at h
      obtain ⟨_, rfl⟩ := h
      exact hpos
    · next k n hk =>
      simp only [Option.some.injEq, Prod.mk.injEq] at h
      obtain ⟨_, rfl⟩ := h
      exact length_rest_after_lt (Category.firstMatch?_bounds hk).1 (Category.firstMatch?_bounds hk).2

end Scanner

/-! ## All tokens of a line -/

/-- The tokens of a line, and why it could not be read to its end. -/
structure Reading where
  tokens : List Token
  failure : Option SyntaxFault
  deriving DecidableEq, Repr

namespace Reading

def empty : Reading := ⟨[], none⟩

/-- The reading with one more token in front. -/
def cons (t : Token) (r : Reading) : Reading := ⟨t :: r.tokens, r.failure⟩

/-- The reading with its next item in front. -/
def push : Except SyntaxFault Token → Reading → Reading
  | .ok t, r => r.cons t
  | .error f, _ => ⟨[], some f⟩

end Reading

namespace Scanner

/-- The first `n` items of the rest of the line. -/
def readItems : Nat → Scanner → Reading
  | 0, _ => .empty
  | n + 1, s =>
    match s.next? with
    | none => .empty
    | some (item, s') => .push item (readItems n s')

/-- The tokens of the rest of the line. There are no more of them than characters. -/
def reading (s : Scanner) : Reading := s.readItems s.rest.length

theorem next?_eq_none_of_rest {s : Scanner} (h : s.rest.length = 0) : s.next? = none := by
  simp [next?, List.length_eq_zero_iff.1 h]

/-- Any bound that is large enough gives the same reading. -/
theorem readItems_eq_reading {n : Nat} {s : Scanner} (h : s.rest.length ≤ n) : s.readItems n = s.reading := by
  suffices H : ∀ m n (s : Scanner), s.rest.length ≤ m → s.rest.length ≤ n → s.readItems m = s.readItems n from
    H _ _ s h (Nat.le_refl _)
  intro m
  induction m with
  | zero =>
    intro n s hm _
    have hs := next?_eq_none_of_rest (Nat.le_zero.1 hm)
    cases n <;> simp [readItems, hs]
  | succ m ih =>
    intro n s hm hn
    cases n with
    | zero => simp [readItems, next?_eq_none_of_rest (Nat.le_zero.1 hn)]
    | succ n =>
      simp only [readItems]
      split
      · rfl
      · next item s' hs =>
        have := length_rest_lt_of_next? hs
        rw [ih n s' (by omega) (by omega)]

/-- **The reading of a line**, item by item. -/
theorem reading_eq (s : Scanner) :
    s.reading = match s.next? with
      | none => .empty
      | some (item, s') => .push item s'.reading := by
  rw [← readItems_eq_reading (Nat.le_succ s.rest.length), readItems]
  split
  · rfl
  · next item s' hs => rw [readItems_eq_reading (Nat.le_of_lt (length_rest_lt_of_next? hs))]

end Scanner

/-- The tokens of a line. -/
def readLine (line : List Char) : Reading := (Scanner.ofLine line).reading

end BlockCheck
