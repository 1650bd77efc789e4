import BlockCheck.Token.Scanner

/-!
# The cursor

A `Cursor` stands on a token of a line and knows the one after it. It is built on the first token and reads one token
ahead, so text that is no token is reported when it would become the next token. Every step that takes a token is
`takeIf`, which leaves the cursor alone when the next token fails the test (`takeIf_none`, `takeIf_of_not`) and
advances it otherwise (`takeIf_of_pass`).
-/

namespace BlockCheck

open Text (Span)

/-- The next token if there is one, and what is left after it. -/
def Scanner.pull (s : Scanner) : Except SyntaxFault (Option Token) × Scanner :=
  match s.next? with
  | none => (.ok none, s)
  | some (.ok t, rest) => (.ok (some t), rest)
  | some (.error f, rest) => (.error f, rest)

structure Cursor where
  /-- The token taken last; at first the first token of the line. -/
  current : Option Token
  /-- The token to be taken next. -/
  next : Option Token
  /-- What follows the next token. -/
  scanner : Scanner
  deriving DecidableEq, Repr

/-- Steps of a cursor. A step that fails may have moved the cursor. -/
abbrev CursorM := EStateM SyntaxFault Cursor

namespace Cursor

/-- The cursor on the first token of what is left of a line. -/
def ofScanner (s : Scanner) : Except SyntaxFault Cursor :=
  match s.pull with
  | (.error f, _) => .error f
  | (.ok current, s) =>
    match s.pull with
    | (.error f, _) => .error f
    | (.ok next, s) => .ok ⟨current, next, s⟩

def ofLine (line : List Char) : Except SyntaxFault Cursor := ofScanner (.ofLine line)

def nextCategory (c : Cursor) : Option Category := c.next.map Token.category

/-- The fault that the next token is not what is expected. -/
def unexpected (c : Cursor) (expected : Expected) : SyntaxFault :=
  .unexpectedToken expected c.nextCategory (c.next.map Token.span)

/-- A number of steps that no line has tokens for. -/
def bound (c : Cursor) : Nat := c.scanner.rest.length + 2

/-! ## Steps -/

/-- Moves onto the next token. If the text after it is no token, the cursor has moved and has no next token. -/
def advance : CursorM Unit := fun c =>
  match c.scanner.pull with
  | (.ok next, rest) => .ok () ⟨c.next, next, rest⟩
  | (.error f, rest) => .error f ⟨c.next, none, rest⟩

/-- Takes the next token if its category passes the test. -/
def takeIf (test : Category → Bool) : CursorM (Option Token) := do
  match (← get).next with
  | some t => if test t.category then (fun _ => some t) <$> advance else pure none
  | none => pure none

/-- Takes the next token if it is of one of the categories. -/
def advanceIfAny (ks : List Category) : CursorM (Option Token) := takeIf ks.contains

/-- Takes the next token if it is of category `k`, and says whether it did. -/
def advanceIf (k : Category) : CursorM Bool := Option.isSome <$> advanceIfAny [k]

/-- Takes the next token, which must be of one of the categories. -/
def require (ks : List Category) (expected : Expected) : CursorM Token := do
  match ← advanceIfAny ks with
  | some t => return t
  | none => throw ((← get).unexpected expected)

def expect (k : Category) : CursorM Token := require [k] (.category k)

def expectOneOf (ks : List Category) : CursorM Token := require ks (.oneOf ks)

/-- No token may be left. -/
def finish : CursorM Unit := do
  let c ← get
  if c.next.isSome then throw (c.unexpected .endOfStatement)

theorem takeIf_none {test : Category → Bool} {c : Cursor} (h : c.next = none) : takeIf test c = .ok none c := by
  cases c; cases h; rfl

theorem takeIf_of_not {test : Category → Bool} {c : Cursor} {t : Token} (h : c.next = some t)
    (ht : test t.category = false) : takeIf test c = .ok none c := by
  cases c; cases h
  show (if test t.category then _ else pure none : CursorM _) _ = _
  rw [ht]; rfl

theorem takeIf_of_pass {test : Category → Bool} {c : Cursor} {t : Token} (h : c.next = some t)
    (ht : test t.category = true) : takeIf test c = ((fun _ => some t) <$> advance : CursorM _) c := by
  cases c; cases h
  show (if test t.category then _ else pure none : CursorM _) _ = _
  rw [ht]; rfl

end Cursor

end BlockCheck
