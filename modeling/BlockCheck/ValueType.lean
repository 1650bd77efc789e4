import BlockCheck.Token.Category

/-!
# Value types

The five types of variables, their keywords, and which values fit a variable of a type: the categories of tokens that
may be written (`assignable`) and the types of variables that may be read (`sources`). Both only widen: an integer
fits where a double or a boolean is needed, a double where a boolean is.
-/

namespace BlockCheck

inductive ValueType
  | int
  | double
  | boolean
  | char
  | string
  deriving DecidableEq, Repr

namespace ValueType

def all : List ValueType := [.int, .double, .boolean, .char, .string]

/-- The type as programs and diagnostics write it. -/
def name : ValueType → String
  | .int => "int"
  | .double => "double"
  | .boolean => "boolean"
  | .char => "char"
  | .string => "String"

def keyword : ValueType → Category
  | .int => .kwInt
  | .double => .kwDouble
  | .boolean => .kwBoolean
  | .char => .kwChar
  | .string => .kwString

def ofKeyword? : Category → Option ValueType
  | .kwInt => some .int
  | .kwDouble => some .double
  | .kwBoolean => some .boolean
  | .kwChar => some .char
  | .kwString => some .string
  | _ => none

/-- The keywords that name a type. -/
def keywords : List Category := all.map keyword

/-- The categories of tokens that may be assigned to a variable of the type. A name always may; whether the variable
it names fits is a matter of `sources`. -/
def assignable : ValueType → List Category
  | .int => [.intLiteral, .identifier]
  | .double => [.intLiteral, .doubleLiteral, .identifier]
  | .boolean => [.intLiteral, .doubleLiteral, .kwTrue, .kwFalse, .identifier]
  | .char => [.charLiteral, .identifier]
  | .string => [.stringLiteral, .identifier]

/-- The types of variables whose values may go into a variable of the type. -/
def sources : ValueType → List ValueType
  | .int => [.int]
  | .double => [.int, .double]
  | .boolean => [.int, .double, .boolean]
  | .char => [.char]
  | .string => [.string]

theorem ofKeyword?_eq_some_iff {k : Category} {t : ValueType} : ofKeyword? k = some t ↔ k = t.keyword := by
  cases k <;> cases t <;> simp [ofKeyword?, keyword]

theorem mem_assignable_identifier (t : ValueType) : Category.identifier ∈ t.assignable := by cases t <;> decide

end ValueType

end BlockCheck
