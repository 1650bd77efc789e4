import BlockCheck.Diagnostic
import BlockCheck.Token.Category

/-!
# Syntax faults

Why a line cannot be read as tokens or does not fit a statement form. The spans are relative to the line.
-/

namespace BlockCheck

open Text (Span)

/-- What a statement form needs at the place where a line stops fitting it. -/
inductive Expected
  | category (k : Category)
  | oneOf (ks : List Category)
  /-- A literal or a name. -/
  | value
  | endOfStatement
  deriving DecidableEq, Repr

def Expected.description : Expected → String
  | .category k => k.description
  | .oneOf ks => "one of " ++ ", ".intercalate (ks.map Category.description)
  | .value => "a value"
  | .endOfStatement => "end of statement"

inductive SyntaxFault
  /-- No category has a token at this place, or the token is a name that may not be used here. -/
  | unknownToken (text : String) (span : Span)
  /-- No statement starts with these tokens. -/
  | unknownStatement (first : Category) (second : Option Category) (span : Span)
  /-- The statement form needs something else; where the line has ended, nothing is found. -/
  | unexpectedToken (expected : Expected) (found : Option Category) (span : Option Span)
  deriving DecidableEq, Repr

namespace SyntaxFault

/-- The place of the fault in its line; a line that ends too early has none. -/
def span? : SyntaxFault → Option Span
  | .unknownToken _ span => some span
  | .unknownStatement _ _ span => some span
  | .unexpectedToken _ _ span => span

def diagnostic : SyntaxFault → Diagnostic
  | .unknownToken text span =>
    { message := "Unknown token " ++ quoted text
      code := "sjava::syntax::unknown_token"
      help := none
      labels := [⟨"not a token of the language", span⟩] }
  | .unknownStatement first _ span =>
    { message := "Unknown statement starting with " ++ first.description
      code := "sjava::syntax::unknown_statement"
      help := some ("Statements are declarations, assignments, calls, `if`/`while` blocks, `return;` or " ++
        "a closing brace")
      labels := [⟨"cannot start a statement here", span⟩] }
  | .unexpectedToken expected found span =>
    { message := "Unexpected " ++ found.elim "end of line" Category.description ++ ", expected " ++
        expected.description
      code := "sjava::syntax::unexpected_token"
      help := none
      labels := span.toList.map fun s => ⟨"unexpected here", s⟩ }

end SyntaxFault

end BlockCheck
