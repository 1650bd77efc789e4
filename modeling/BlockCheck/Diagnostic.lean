import BlockCheck.Text.Span

/-!
# Diagnostics

What a reader is told about a fault: a message, the code of its kind, advice if there is any, and labelled places.
Each type of fault has one function into this type, so its whole wording stands in one place.
-/

namespace BlockCheck

open Text (Span)

/-- A remark on a place of the text. -/
structure Label where
  text : String
  span : Span
  deriving DecidableEq, Repr

structure Diagnostic where
  message : String
  /-- The name of the kind of fault, such as `sjava::syntax::unknown_token`. -/
  code : String
  help : Option String
  labels : List Label
  deriving DecidableEq, Repr

/-- A name or a piece of program text, set off from the words around it. -/
def quoted (text : String) : String := "`" ++ text ++ "`"

end BlockCheck
