/-
# The score of a match

A match is a series of games between two players A and B, who change colours.
The score counts the games that each has won and the draws; a game without a
winner is a draw. Counts are of 32 bits.

Key definitions: `Score`, `Score.tally`, `Score.share`.
-/
import UltimateTicTacToe.Board
import UltimateTicTacToe.Json.Fields
import UltimateTicTacToe.Number.Binary
import UltimateTicTacToe.Text.Spelling

namespace UltimateTicTacToe

/-- The games of a match by who has won them. -/
structure Score where
  aWins : UInt32
  bWins : UInt32
  draws : UInt32
  deriving DecidableEq, Repr

namespace Score

/-- No games. -/
def zero : Score := ⟨0, 0, 0⟩

instance : Inhabited Score := ⟨zero⟩

/-- The number of games. -/
def total (s : Score) : UInt32 := s.aWins + s.bWins + s.draws

/-- The score with one more game. A wins with its own colour and loses with the
other; a game without an outcome is a draw. -/
def tally (s : Score) (winner : Option Outcome) (aIsRed : Bool) : Score :=
  match winner, aIsRed with
  | some .red, true => { s with aWins := s.aWins + 1 }
  | some .blue, false => { s with aWins := s.aWins + 1 }
  | some .red, false => { s with bWins := s.bWins + 1 }
  | some .blue, true => { s with bWins := s.bWins + 1 }
  | some .stalemate, _ => { s with draws := s.draws + 1 }
  | none, _ => { s with draws := s.draws + 1 }

/-- What percentage `count` is of all the games, as a floating-point number of 64
bits; zero where there are no games. A hundred times a count has an exact
representation, so the quotient is the only step that rounds. -/
def share (s : Score) (count : UInt32) : Binary :=
  let f := FloatFormat.double
  if s.total = 0 then f.zero
  else (f.round (100 * count.toNat) s.total.toNat).getD f.zero

/-- The score. -/
def toJson (s : Score) : Json :=
  .object [("a_wins", .nat s.aWins.toNat), ("b_wins", .nat s.bWins.toNat),
    ("draws", .nat s.draws.toNat)]

/-- Reads a score. -/
def ofJson? (j : Json) : Option Score :=
  match j.fields? ["a_wins", "b_wins", "draws"] 3 with
  | some [some a, some b, some d] => do
    return ⟨← a.word?, ← b.word?, ← d.word?⟩
  | _ => none

/-- The score as messages spell it. -/
def spelling (s : Score) : Spelling :=
  .record "Scores" [("a_wins", .number s.aWins.toNat), ("b_wins", .number s.bWins.toNat),
    ("draws", .number s.draws.toNat)]

end Score
end UltimateTicTacToe
