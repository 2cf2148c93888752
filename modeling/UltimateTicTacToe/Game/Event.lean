/-
# Game events

A game is recorded as a sequence of events of three kinds: a player takes a tile,
a sub-board is decided, the game is decided. The record says neither who moved
nor where the next move has to go; that follows from the events before.

Key definitions: `Placement`, `Event`, `Event.spelling`.
-/
import UltimateTicTacToe.Board
import UltimateTicTacToe.Text.Spelling

namespace UltimateTicTacToe

/-- A tile of a sub-board. Nothing keeps the two numbers on the board: a record
may name any, and what receives it checks. -/
structure Placement where
  grid : Nat
  tile : Nat
  deriving DecidableEq, Repr, Inhabited

namespace Placement

/-- Whether both numbers lie on the board. -/
def onBoard (p : Placement) : Bool := isIndex p.grid && isIndex p.tile

/-- The characters of a placement's label. -/
def labelChars (p : Placement) : List Char :=
  Nat.toDigits 10 p.grid ++ ' ' :: Nat.toDigits 10 p.tile

/-- The placement in a list of moves: `4 0` is tile 0 of sub-board 4. -/
def label (p : Placement) : String := String.ofList p.labelChars

/-- The placement as messages spell it. -/
def spelling (p : Placement) : Spelling :=
  .record "TilePlacement" [("grid", .number p.grid), ("tile", .number p.tile)]

end Placement

/-- The outcome as messages spell it. -/
def Outcome.spelling (o : Outcome) : Spelling := .word o.label

/-- One entry of a game's record. -/
inductive Event where
  /-- The player to move takes a tile. -/
  | placed (placement : Placement)
  /-- Sub-board `grid` is decided. -/
  | decided (grid : Nat) (outcome : Outcome)
  /-- The game is decided. -/
  | ended (outcome : Outcome)
  deriving DecidableEq, Repr, Inhabited

namespace Event

/-- The tile that the event takes, if it takes one. -/
def placement? : Event → Option Placement
  | .placed p => some p
  | _ => none

/-- Whether the event takes a tile; any other records an outcome. -/
def isPlacement (e : Event) : Bool := e.placement?.isSome

/-- The event as messages spell it. -/
def spelling : Event → Spelling
  | .placed p => .wrap "TilePlaced" p.spelling
  | .decided grid outcome =>
    .record "SubBoardWon" [("grid", .number grid), ("winner", outcome.spelling)]
  | .ended outcome => .record "OverallWon" [("winner", outcome.spelling)]

end Event

end UltimateTicTacToe
