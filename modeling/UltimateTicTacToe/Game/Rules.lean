/-
# The rules of play

All that a player may do, and all that a placement decides, follows from the
position. A player who is sent to an undecided sub-board plays there, and
otherwise in any undecided sub-board, on an empty tile. A placement decides at
most what `Position.findWins` lists: it goes through the sub-boards in ascending
order, reports every one that its tiles decide and that is not recorded, and
stops as soon as the game is decided.

Key definitions: `Position.playableGrids`, `Position.playableTiles`,
`Position.isPlayable`, `Position.findWins`.
-/
import UltimateTicTacToe.Game.Position

namespace UltimateTicTacToe
namespace Position

/-- The undecided sub-boards, in ascending order. -/
def openGrids (s : Position) : List Nat :=
  (List.range 9).filter fun g => s.decided.get g = none

/-- The sub-boards that the next player may play in, in ascending order. A
player who is sent to a decided sub-board has a free choice. -/
def playableGrids (s : Position) : List Nat :=
  if s.isOver then []
  else
    match s.target with
    | some g => if s.decided.get g = none then [g] else s.openGrids
    | none => s.openGrids

/-- The empty tiles of sub-board `g`, in ascending order. -/
def emptyTiles (s : Position) (g : Nat) : List Nat :=
  (List.range 9).filter fun t => s.tile g t = none

/-- Every legal placement, ascending by sub-board and then by tile. -/
def playableTiles (s : Position) : List Placement :=
  s.playableGrids.flatMap fun g => (s.emptyTiles g).map fun t => ⟨g, t⟩

/-- Whether a placement is legal. -/
def isPlayable (s : Position) (p : Placement) : Bool :=
  p.onBoard && (s.owner p).isNone && s.playableGrids.contains p.grid

/-! ### What a placement has decided -/

/-- The outcomes found on the sub-boards `grids`, given those recorded so far:
each newly decided sub-board, and the end of the game once it is decided. -/
def newOutcomes (s : Position) (decided : Cells Outcome) : List Nat → List Event
  | [] => []
  | g :: grids =>
    match decided.get g, subBoardOutcome (s.board g) with
    | none, some o =>
      let decided := decided.put g (some o)
      match overallOutcome decided with
      | some overall => [.decided g o, .ended overall]
      | none => .decided g o :: s.newOutcomes decided grids
    | _, _ => s.newOutcomes decided grids

/-- The outcomes that the tiles show and the position does not record yet, in
the order in which they are to be recorded. -/
def findWins (s : Position) : List Event :=
  if s.isOver then [] else s.newOutcomes s.decided (List.range 9)

end Position
end UltimateTicTacToe
