import BlockCheck.Program.Check

/-!
# Checking a file

A file is read as UTF-8 text, named by its path, and checked. `checkFile` is given what the file holds, so that it is
a function of its input.
-/

namespace BlockCheck

/-- Why a file gets no report. -/
inductive FileFault
  /-- There is no such file, or it holds no UTF-8 text. -/
  | unreadable (path : String)
  | rejected (path : String) (rejection : Rejection)
  deriving DecidableEq, Repr

namespace FileFault

def diagnostic : FileFault → Diagnostic
  | .unreadable path =>
    { message := "Failed to read source file " ++ path
      code := "sjava::source::io"
      help := some "Make sure the path exists, has proper permissions and contains UTF-8 text"
      labels := [] }
  | .rejected path r =>
    { message := path ++ " is not a valid sJava program"
      code := "sjava::cli::rejected"
      help := some (r.kind.name ++ s!" on line {r.line}")
      labels := [⟨r.cause.diagnostic.message, r.span⟩] }

/-- The exit code of a run that ends with the fault. -/
def exitCode : FileFault → UInt32
  | .rejected _ _ => 1
  | .unreadable _ => 2

end FileFault

/-- Checks the file at a path that holds the given bytes; `none` stands for a file that cannot be read. -/
def checkFile (path : String) (content : Option ByteArray) : Logged FileFault Report :=
  match content.bind String.fromUTF8? with
  | none => .fail (.unreadable path)
  | some text => do
    let source : Source := { name := path, text }
    .tell .debug ("Loaded " ++ path ++ s!" ({source.lineCount} lines)")
    (run source).mapError (.rejected path)

end BlockCheck
