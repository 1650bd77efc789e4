/-!
# Token categories

The 36 lexical categories of sJava. A category is spelled in one of seven ways (`Category.shape`): as a fixed sign, as
a keyword that must end its word, as one of the two kinds of number, as quoted text or a quoted character, or as a
name. `Category.priority` is the order in which the scanner tries them; every category occurs in it (`mem_priority`).
-/

namespace BlockCheck

inductive Category
  | lbrace | rbrace | lparen | rparen | lbracket | rbracket | comma | semicolon | dot
  | andAnd | orOr | assign
  | doubleLiteral | intLiteral
  | plus | minus | star | slash | less | greater | bang
  | kwFinal | kwInt | kwDouble | kwBoolean | kwChar | kwString | kwVoid | kwTrue | kwFalse | kwIf | kwWhile | kwReturn
  | stringLiteral | charLiteral | identifier
  deriving DecidableEq, Repr

/-- How the tokens of a category are spelled. -/
inductive Shape
  /-- Exactly these characters, whatever follows. -/
  | sign (spelling : String)
  /-- These characters, and no word character after them. -/
  | keyword (spelling : String)
  /-- Digits, a point and digits, with an optional minus in front. -/
  | decimal
  /-- Digits, with an optional minus in front. -/
  | integer
  /-- Text between double quotes, without quotes, commas and backslashes. -/
  | quotedText
  /-- One character between single quotes, neither quote nor backslash. -/
  | quotedChar
  /-- A letter and word characters, or an underscore and at least one word character. -/
  | name
  deriving DecidableEq, Repr

/-- The one spelling of a sign or a keyword. -/
def Shape.spelling? : Shape → Option String
  | .sign spelling | .keyword spelling => some spelling
  | .decimal | .integer | .quotedText | .quotedChar | .name => none

namespace Category

/-- All categories, in the order in which the scanner tries them. -/
def priority : List Category :=
  [.lbrace, .rbrace, .lparen, .rparen, .lbracket, .rbracket, .comma, .semicolon, .dot, .andAnd, .orOr, .assign,
    .doubleLiteral, .intLiteral, .plus, .minus, .star, .slash, .less, .greater, .bang, .kwFinal, .kwInt, .kwDouble,
    .kwBoolean, .kwChar, .kwString, .kwVoid, .kwTrue, .kwFalse, .kwIf, .kwWhile, .kwReturn, .stringLiteral,
    .charLiteral, .identifier]

def shape : Category → Shape
  | .lbrace => .sign "\x7b"
  | .rbrace => .sign "\x7d"
  | .lparen => .sign "("
  | .rparen => .sign ")"
  | .lbracket => .sign "["
  | .rbracket => .sign "]"
  | .comma => .sign ","
  | .semicolon => .sign ";"
  | .dot => .sign "."
  | .andAnd => .sign "&&"
  | .orOr => .sign "||"
  | .assign => .sign "="
  | .doubleLiteral => .decimal
  | .intLiteral => .integer
  | .plus => .sign "+"
  | .minus => .sign "-"
  | .star => .sign "*"
  | .slash => .sign "/"
  | .less => .sign "<"
  | .greater => .sign ">"
  | .bang => .sign "!"
  | .kwFinal => .keyword "final"
  | .kwInt => .keyword "int"
  | .kwDouble => .keyword "double"
  | .kwBoolean => .keyword "boolean"
  | .kwChar => .keyword "char"
  | .kwString => .keyword "String"
  | .kwVoid => .keyword "void"
  | .kwTrue => .keyword "true"
  | .kwFalse => .keyword "false"
  | .kwIf => .keyword "if"
  | .kwWhile => .keyword "while"
  | .kwReturn => .keyword "return"
  | .stringLiteral => .quotedText
  | .charLiteral => .quotedChar
  | .identifier => .name

/-- What diagnostics call a token of the category. -/
def description (k : Category) : String :=
  match k.shape with
  | .sign spelling | .keyword spelling => "`" ++ spelling ++ "`"
  | .decimal => "double literal"
  | .integer => "integer literal"
  | .quotedText => "string literal"
  | .quotedChar => "char literal"
  | .name => "identifier"

/-- The tokens of the category differ in their text, so a token keeps it. -/
def keepsText (k : Category) : Bool := k.shape.spelling?.isNone

/-- The categories that can stand where a value is needed. -/
def values : List Category :=
  [.intLiteral, .doubleLiteral, .stringLiteral, .charLiteral, .kwTrue, .kwFalse, .identifier]

theorem mem_priority (k : Category) : k ∈ priority := by cases k <;> decide

theorem spelling?_ne_nil {k : Category} {w : String} (h : k.shape.spelling? = some w) : w.toList ≠ [] := by
  cases k <;> simp only [shape, Shape.spelling?, Option.some.injEq, reduceCtorEq] at h <;> subst h <;> decide

end Category

end BlockCheck
