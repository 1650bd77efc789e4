import BlockCheck.CommandLine

/-!
# The program

Reads the arguments and the file they name, prints the answer, and exits with its code.
-/

open BlockCheck

/-- What the file at a path holds, if it can be read. -/
def readContent (path : String) : IO (Option ByteArray) := do
  try
    return some (← IO.FS.readBinFile path)
  catch _ =>
    return none

/-- Checks the file that the arguments name. -/
def main (arguments : List String) : IO UInt32 := do
  let answer ← match Command.ofArguments arguments with
    | .error f => pure (Answer.ofUsageFault f)
    | .ok .help => pure Answer.help
    | .ok (.check rank path) => Answer.ofFile rank path <$> readContent path
  answer.output.forM IO.println
  answer.errors.forM IO.eprintln
  return answer.exitCode
