/-
# The three by three board

Ultimate tic-tac-toe is played on a board of nine sub-boards of nine tiles, and
both levels are the same thing: nine cells in reading order, cell `x + 3 * y` in
column `x` and row `y`, each empty or holding a mark. The marks are players on a
sub-board and outcomes on the board of sub-boards. A line of equal marks decides
either of them, and so does the lack of an empty cell.

Key definitions: `Player`, `Outcome`, `Cells`, `lines`, `Cells.lineOwner`,
`Cells.verdict`.
-/
namespace UltimateTicTacToe

/-- The two sides. Red moves first in every game. -/
inductive Player where
  | red
  | blue
  deriving DecidableEq, Repr, Inhabited

/-- How a sub-board, or the game, has ended. -/
inductive Outcome where
  | red
  | blue
  | stalemate
  deriving DecidableEq, Repr, Inhabited

namespace Player

/-- The player who moves first in every game. -/
def first : Player := .red

/-- The other player. -/
def opponent : Player → Player
  | .red => .blue
  | .blue => .red

/-- The player's letter in texts. -/
def letter : Player → Char
  | .red => 'R'
  | .blue => 'B'

/-- The outcome in which this player has won. -/
def outcome : Player → Outcome
  | .red => .red
  | .blue => .blue

end Player

namespace Outcome

/-- The player who has won, none after a stalemate. -/
def player? : Outcome → Option Player
  | .red => some .red
  | .blue => some .blue
  | .stalemate => none

/-- Whether nobody has won. -/
def isStalemate (o : Outcome) : Bool := o.player?.isNone

/-- The outcome's letter in texts. -/
def letter : Outcome → Char
  | .red => 'R'
  | .blue => 'B'
  | .stalemate => 'S'

/-- The outcome's name in result lines. -/
def label : Outcome → String
  | .red => "Red"
  | .blue => "Blue"
  | .stalemate => "Stalemate"

end Outcome

/-- Whether `i` names a sub-board, or a tile of one. -/
def isIndex (i : Nat) : Bool := i < 9

/-- The nine cells of a board in reading order, none where the cell is empty. -/
structure Cells (α : Type) where
  marks : Vector (Option α) 9
  deriving DecidableEq, Repr

/-- The eight lines: three rows, three columns and two diagonals. -/
def lines : List (Nat × Nat × Nat) :=
  [(0, 1, 2), (3, 4, 5), (6, 7, 8),
   (0, 3, 6), (1, 4, 7), (2, 5, 8),
   (0, 4, 8), (2, 4, 6)]

namespace Cells

variable {α : Type}

/-- The board with nothing on it. -/
def empty : Cells α := ⟨Vector.replicate 9 none⟩

instance : Inhabited (Cells α) := ⟨empty⟩

/-- What cell `i` holds; a place off the board holds nothing. -/
def get (cells : Cells α) (i : Nat) : Option α := cells.marks[i]?.join

/-- The board with cell `i` changed to `mark`. A place off the board is left
alone. -/
def put (cells : Cells α) (i : Nat) (mark : Option α) : Cells α :=
  ⟨cells.marks.setIfInBounds i mark⟩

/-- The cells one by one, in reading order. -/
def toList (cells : Cells α) : List (Option α) := cells.marks.toList

/-- Whether no cell is empty. -/
def isFull (cells : Cells α) : Bool := (List.range 9).all fun i => (cells.get i).isSome

/-- The mark that stands on all three cells of the line, if one does. -/
def ownerOf [DecidableEq α] (cells : Cells α) : Nat × Nat × Nat → Option α
  | (a, b, c) =>
    if cells.get a = cells.get b ∧ cells.get b = cells.get c then cells.get a else none

/-- The mark of the first complete line. -/
def lineOwner [DecidableEq α] (cells : Cells α) : Option α := lines.findSome? cells.ownerOf

/-- How a board has ended, if it has: for the mark of its first complete line,
and in a stalemate once it is full without one. `won` says which outcome a mark
stands for. -/
def verdict [DecidableEq α] (won : α → Outcome) (cells : Cells α) : Option Outcome :=
  match cells.lineOwner with
  | some mark => some (won mark)
  | none => if cells.isFull then some .stalemate else none

end Cells

/-- How the tiles of a sub-board decide it. -/
def subBoardOutcome (tiles : Cells Player) : Option Outcome := tiles.verdict Player.outcome

/-- How the outcomes of the sub-boards decide the game. Stalemates form lines as
wins do: three of them in a row end the game as a stalemate. -/
def overallOutcome (decided : Cells Outcome) : Option Outcome := decided.verdict id

end UltimateTicTacToe
