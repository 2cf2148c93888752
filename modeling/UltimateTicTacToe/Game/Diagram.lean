/-
# Diagrams

Texts that show a position or a game: the board, the line above it, the
sub-boards that are decided, and the list of moves.

The board is eleven lines. Three of them make a row of sub-boards, and a rule
stands between the rows. Tile `t` of sub-board `g` stands in line
`4 * (g / 3) + t / 3`, at column `8 * (g % 3) + 2 * (t % 3)`, both counted
from 0.

Key definitions: `Diagram.boardLines`, `Diagram.board`, `Diagram.status`,
`Diagram.outcomes`, `Diagram.moveList`.
-/
import UltimateTicTacToe.Game.Timeline

namespace UltimateTicTacToe
namespace Diagram

/-- A tile: its owner's letter, or a dot. -/
def tile : Option Player → Char
  | some p => p.letter
  | none => '.'

/-- Row `row` of sub-board `g`. -/
def gridRow (s : Position) (g row : Nat) : List Char :=
  [' '].intercalate ((List.range 3).map fun column => [tile (s.tile g (column + 3 * row))])

/-- Row `row` of the three sub-boards in row `bigRow` of the board. -/
def boardRow (s : Position) (bigRow row : Nat) : List Char :=
  [' ', '|', ' '].intercalate
    ((List.range 3).map fun bigColumn => gridRow s (bigColumn + 3 * bigRow) row)

/-- The three lines of a row of sub-boards. -/
def bandLines (s : Position) (bigRow : Nat) : List (List Char) :=
  (List.range 3).map (boardRow s bigRow)

/-- The rule between two rows of sub-boards. -/
def rule : List Char := "------+-------+------".toList

/-- The lines of the board. -/
def boardLines (s : Position) : List (List Char) :=
  [rule].intercalate ((List.range 3).map (bandLines s))

/-- Lines as one text, each with its line end. -/
def textOfLines (lines : List (List Char)) : List Char := lines.flatMap (· ++ ['\n'])

/-- The board. -/
def board (s : Position) : String := String.ofList (textOfLines (boardLines s))

/-- The constraint on the next move: a sub-board, or any. -/
def constraint (s : Position) : String :=
  match s.target with
  | some g => toString g
  | none => "any"

/-- One line on how far the game is: the moves on view, the player to move, the
constraint, the outcome. -/
def status (t : Timeline) : String :=
  "Move " ++ toString t.shown ++ "/" ++ toString t.length ++
    "  Next: " ++ toString t.view.turn.letter ++
    "  Grid: " ++ constraint t.view ++
    "  Winner: " ++ (match t.view.winner with | some o => o.label | none => "-")

/-- The decided sub-boards with their outcomes, such as `0:R 4:S`. -/
def outcomes (s : Position) : String :=
  " ".intercalate ((List.range 9).filterMap fun g =>
    (s.decided.get g).map fun o => toString g ++ ":" ++ toString o.letter)

/-! ### Move lists -/

/-- Line `n` of a list of moves, with one or two placements. -/
def moveLine (n : Nat) (labels : List (List Char)) : List Char :=
  Nat.toDigits 10 n ++ '.' :: ' ' :: [' ', ' '].intercalate labels

/-- The lines of a list of moves, two placements to a line, numbered from
`n`. -/
def moveLines (n : Nat) : List Placement → List (List Char)
  | [] => []
  | [p] => [moveLine n [p.labelChars]]
  | p :: q :: rest => moveLine n [p.labelChars, q.labelChars] :: moveLines (n + 1) rest

/-- The list of moves. -/
def moveList (placements : List Placement) : String :=
  String.ofList (textOfLines (moveLines 1 placements))

end Diagram
end UltimateTicTacToe
