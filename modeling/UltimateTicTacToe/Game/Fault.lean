/-
# What a game refuses

Every operation on a game either succeeds or names one cause. An event that
contradicts the position it meets is a `Conflict`; the other causes are found
before the position is asked.

Key definitions: `Conflict`, `Fault`, `Fault.message`.
-/
import UltimateTicTacToe.Game.Event

namespace UltimateTicTacToe

/-- Why an event cannot be applied to a position, or taken back from it. -/
inductive Conflict where
  /-- The game has ended, so nothing more can happen. -/
  | gameOver (outcome : Outcome) (event : Event)
  /-- The tile has an owner already. -/
  | tileTaken (placement : Placement) (owner : Player)
  /-- The sub-board has an outcome already. -/
  | gridDecided (grid : Nat) (outcome : Outcome)
  /-- The tile is not the last mover's, so that move cannot be taken back. -/
  | tileNotOwnedBy (placement : Placement) (player : Player)
  /-- No earlier constraint is left to go back to. -/
  | noEarlierTarget
  /-- The sub-board does not have this outcome. -/
  | gridNotDecidedAs (grid : Nat) (outcome : Outcome)
  /-- The game does not have this outcome. -/
  | gameNotEndedAs (outcome : Outcome)
  deriving DecidableEq, Repr

/-- Why an operation on a game is refused. -/
inductive Fault where
  /-- An outcome came before any placement could have caused it. -/
  | orphanOutcome
  /-- The game has no such position; `length` is its number of moves. -/
  | noSuchPosition (position : Int) (length : Nat)
  /-- Going to a position has ended at another one. -/
  | strayed (expected actual : Int)
  /-- The event contradicts the position. -/
  | conflict (cause : Conflict)
  /-- A number names no place on the board. -/
  | offBoard (placement : Placement)
  /-- The rules do not allow the placement. -/
  | illegalMove (placement : Placement)
  /-- An earlier position is on view, and moves are played at the end only. -/
  | reviewing
  deriving DecidableEq, Repr

/-- What the conflict is, in words. -/
def Conflict.message : Conflict → String
  | .gameOver o e =>
    "game already decided (" ++ toString o.letter ++ "), cannot apply " ++ e.spelling.text
  | .tileTaken p owner => "tile " ++ p.label ++ " already owned by " ++ toString owner.letter
  | .gridDecided g o =>
    "sub-board " ++ toString g ++ " already decided (" ++ toString o.letter ++ ")"
  | .tileNotOwnedBy p player =>
    "tile " ++ p.label ++ " was not placed by " ++ toString player.letter
  | .noEarlierTarget => "no previous next-grid to restore"
  | .gridNotDecidedAs g o =>
    "sub-board " ++ toString g ++ " is not recorded as " ++ toString o.letter
  | .gameNotEndedAs o => "game is not recorded as " ++ toString o.letter

/-- What the fault is, in words. -/
def Fault.message : Fault → String
  | .orphanOutcome => "Outcome event arrived before any tile placement"
  | .noSuchPosition position length =>
    "Position " ++ toString position ++ " out of bounds (timeline has " ++
      toString length ++ " moves)"
  | .strayed expected actual =>
    "Navigation ended at " ++ toString actual ++ ", expected " ++ toString expected
  | .conflict cause => "Invalid transition: " ++ cause.message
  | .offBoard p =>
    "Grid/tile index out of range: grid " ++ toString p.grid ++ ", tile " ++ toString p.tile
  | .illegalMove p => "Illegal move: grid " ++ toString p.grid ++ ", tile " ++ toString p.tile
  | .reviewing => "Cannot play while reviewing history"

end UltimateTicTacToe
