/-
# The command line

Runs the program on the files of the system. What it says goes to the standard
output, and what has gone wrong to the standard error.
-/
import UltimateTicTacToe.Command.Program

namespace UltimateTicTacToe

/-- The files of the system. -/
def fileSystem : System IO where
  read file := do
    match ← (IO.FS.readFile file).toBaseIO with
    | .ok text => return .ok text
    | .error e => return .error e.toString
  write file text := do
    match ← (IO.FS.writeFile file text).toBaseIO with
    | .ok () => return .ok ()
    | .error e => return .error e.toString

/-- What is said about a failure. -/
def troubleText (attempt : String) : Option String → String
  | some cause => "Error: " ++ attempt ++ "\n\nCaused by:\n    " ++ cause
  | none => "Error: " ++ attempt

end UltimateTicTacToe

open UltimateTicTacToe in
/-- Runs the program. -/
def main (arguments : List String) : IO UInt32 := do
  let exit ← Program.run fileSystem arguments
  IO.print exit.output
  match exit.trouble with
  | some (attempt, cause) => IO.eprintln (troubleText attempt cause)
  | none => if exit.code = 2 then IO.eprintln "error: the command line makes no sense"
  return .ofNat exit.code
