import Kql.CommandLine.Run

/-!
The command-line program.
-/

namespace Kql.CommandLine

/-- The bytes of the standard input, if it is not a terminal. -/
def standardInput : IO (Option ByteArray) := do
  let stdin ← IO.getStdin
  if ← stdin.isTty then return none
  return some (← stdin.readBinToEnd)

/-! The words for a text that is not JSON and for a misuse are chosen here; nothing hangs on them. -/

def explainFault (_ : String) : Json.Fault → String
  | .endOfInput => "the text ends too early"
  | .malformed => "the text is malformed"

def usage : String := "usage: kusto (render | set | literal) [options]"

/-- Runs the program and leaves its outcome behind. The standard input is read only if it is
needed. -/
def runProgram (arguments : List String) : IO UInt32 := do
  let request := Request.ofArguments? arguments
  let stdin ← if request.any Request.needsInput then standardInput else pure none
  let outcome := run explainFault usage request stdin
  (← IO.getStdout).putStr outcome.stdout
  (← IO.getStderr).putStr outcome.stderr
  return outcome.code

end Kql.CommandLine

def main (arguments : List String) : IO UInt32 := Kql.CommandLine.runProgram arguments
