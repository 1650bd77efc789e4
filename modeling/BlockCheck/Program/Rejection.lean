import BlockCheck.Line.Fault
import BlockCheck.Source

/-!
# Rejections

The first fault of a program with the line it is on. Its span is a place of the whole text: that of the token at fault
if the fault has one, and else that of the line.
-/

namespace BlockCheck

open Text (Span)

structure Rejection where
  line : Nat
  span : Span
  cause : LineFault
  deriving DecidableEq, Repr

namespace Rejection

/-- The fault on a line of a source. A line that does not exist has the empty span at the end of the text. -/
def on (source : Source) (line : Nat) (cause : LineFault) : Rejection :=
  let lineSpan := (source.lineSpan? line).getD ⟨source.byteSize, 0⟩
  { line, cause, span := cause.span?.elim lineSpan (Span.shift lineSpan.offset) }

def kind (r : Rejection) : FaultKind := r.cause.kind

def message (r : Rejection) : String := s!"Line {r.line}: " ++ r.cause.diagnostic.message

end Rejection

end BlockCheck
