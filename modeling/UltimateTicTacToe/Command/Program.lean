/-
# The program

The program reads its command line, does what it asks for and ends with a code: 0
if that was possible, 1 if it was not, 2 if the command line makes no sense. All
that it needs of the system is to read a file and to write one; what it says comes
last, so nothing is said when a file could not be written.

Key definitions: `System`, `Command.perform`, `Exit`, `Program.run`.
-/
import UltimateTicTacToe.Command.Arguments
import UltimateTicTacToe.Command.LogFilter

namespace UltimateTicTacToe

/-- What the program needs of the system. A refusal comes with the system's
words. -/
structure System (m : Type → Type) where
  /-- Reads the content of a file. -/
  read : String → m (Except String String)
  /-- Writes a file: its path and its content. -/
  write : String → String → m (Except String Unit)

/-- How the program ends. -/
structure Exit where
  code : Nat
  /-- What it says. -/
  output : String
  /-- What it was about to do when it failed, and why that was not possible. -/
  trouble : Option (String × Option String)
  deriving DecidableEq, Repr

/-- Does what a command asks for, and gives what it has to say. -/
def Command.perform {m : Type → Type} [Monad m] (system : System m) (c : Command) :
    m (Except Failure String) := do
  let content ← match c.source? with
    | some file => system.read file
    | none => pure (.ok "")
  match c.run content with
  | .error failure => return .error failure
  | .ok ⟨output, none⟩ => return .ok output
  | .ok ⟨output, some (file, text)⟩ =>
    match ← system.write file text with
    | .ok () => return .ok output
    | .error words => return .error (.unwritten file words)

namespace Program

/-- The name and version of the program. -/
def version : String := "uttt 0.2.0\n"

/-- Runs the program on a command line. -/
def run {m : Type → Type} [Monad m] (system : System m) (arguments : List String) : m Exit := do
  match Request.parse? none arguments with
  | none => return ⟨2, "", none⟩
  | some .version => return ⟨0, version, none⟩
  | some (.run filter command) =>
    match filter.bind LogFilter.fault? with
    | some fault => return ⟨1, "", some (fault.message, none)⟩
    | none =>
      match ← command.perform system with
      | .ok output => return ⟨0, output, none⟩
      | .error failure => return ⟨1, "", some (failure.attempt, some failure.obstacle.message)⟩

end Program
end UltimateTicTacToe
