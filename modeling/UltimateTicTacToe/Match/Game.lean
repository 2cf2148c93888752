/-
# Games of a match

Two agents play a game to its end, Red moving first. The game stops early when an
agent has no choice, and fails when one chooses a placement that is not legal. A
game of a match is between the players A and B, who take turns at being Red, and
keeps its number in the match.

Key definitions: `playOut`, `playGame`, `PlayedGame`, `PlayedGame.random`.
-/
import UltimateTicTacToe.Agent.Basic
import UltimateTicTacToe.Archive.Feed
import UltimateTicTacToe.Game.Progress

namespace UltimateTicTacToe

/-- Plays on from the end of a timeline, the agent choosing for both players,
until the game is decided or the agent has no choice. Every move takes a tile, so
there is an end to it. -/
def playOut {σ : Type} (agent : Agent σ) (memory : σ) (t : Timeline) :
    Except Fault Timeline × σ :=
  if t.view.isOver then (.ok t, memory)
  else
    match agent.choose memory t.view with
    | (none, memory) => (.ok t, memory)
    | (some p, memory) =>
      match _h : t.play p with
      | (u, .ok _) => playOut agent memory u
      | (_, .error f) => (.error f, memory)
termination_by t.final.emptyCount
decreasing_by exact Timeline.emptyCount_play_lt _h

/-- A whole game between two agents, and what they remember afterwards. -/
def playGame {σ τ : Type} (red : Agent σ) (blue : Agent τ) (r : σ) (b : τ) :
    Except Fault Timeline × σ × τ :=
  playOut (red.versus blue) (r, b) .empty

/-- A game of a match that has been played. -/
structure PlayedGame where
  /-- Its number in the match, counted from 0. -/
  index : Nat
  events : List Event
  /-- Its outcome, none if the game has stopped early. -/
  winner : Option Outcome
  /-- Whether A has played Red. -/
  aIsRed : Bool
  deriving DecidableEq, Repr

namespace PlayedGame

/-- The colour of A. -/
def colourOfA (g : PlayedGame) : Player := if g.aIsRed then .red else .blue

/-- The player who has won. -/
def winningPlayer (g : PlayedGame) : Option Player := g.winner.bind Outcome.player?

/-- Whether A has won. -/
def aWins (g : PlayedGame) : Bool := g.winningPlayer = some g.colourOfA

/-- Whether B has won. -/
def bWins (g : PlayedGame) : Bool := g.winningPlayer = some g.colourOfA.opponent

/-- Whether nobody has won. -/
def isDraw (g : PlayedGame) : Bool := g.winningPlayer = none

/-- The number of placements. -/
def moves (g : PlayedGame) : Nat := g.events.countP Event.isPlacement

/-- The game as it is kept in a record. -/
def history (g : PlayedGame) : History := ⟨g.events, g.winner⟩

/-- Plays game number `index` between two random agents. A has the given seed and
B the next one. -/
def random (index : Nat) (aIsRed : Bool) (seed : UInt64) : Except Fault PlayedGame :=
  let a := Generator.ofSeed seed
  let b := Generator.ofSeed (seed + 1)
  let game := if aIsRed then playGame .random .random a b else playGame .random .random b a
  game.1.map fun t => { index, events := t.events, winner := t.view.winner, aIsRed }

/-- A played game. -/
def toJson (g : PlayedGame) : Json :=
  .object [("index", .nat g.index), ("events", .list Event.toJson g.events),
    ("overall_winner", .option Outcome.toJson g.winner), ("a_is_red", .bool g.aIsRed)]

/-- Reads a played game. -/
def ofJson (j : Json) : Except Misread PlayedGame :=
  match j.fields? ["index", "events", "overall_winner", "a_is_red"] 4 with
  | some [some index, some es, winner, some aIsRed] => do
    let index ← Misread.ofOption index.index?
    let events ← Event.listOfJson false es
    let winner ← Misread.ofOption (Json.optional? (Outcome.ofJson? false) winner)
    let aIsRed ← Misread.ofOption aIsRed.bool?
    return { index, events, winner, aIsRed }
  | _ => .error .form

end PlayedGame
end UltimateTicTacToe
