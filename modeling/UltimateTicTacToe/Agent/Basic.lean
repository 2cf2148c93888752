/-
# Agents

An agent chooses a placement for the player to move. It may remember things from
one move to the next, in a memory of whatever type it likes, and may answer that
it has no choice. Nothing obliges it to choose a legal placement.

Key definitions: `Agent`, `Agent.random`, `Agent.versus`, `Bot`.
-/
import UltimateTicTacToe.Game.Rules
import UltimateTicTacToe.Random.Generator

namespace UltimateTicTacToe

/-- Something that chooses placements, with a memory of type `σ`. -/
structure Agent (σ : Type) where
  /-- The name it goes by. -/
  name : String
  /-- The placement it chooses in a position, and what it remembers then. -/
  choose : σ → Position → Option Placement × σ
  /-- What it remembers when a new game begins. -/
  reset : σ → σ

namespace Agent

/-- Chooses among the legal placements, all of them equally likely. A new game
goes on with the same stream of words. -/
def random : Agent Generator where
  name := "random"
  choose g s := g.choose s.playableTiles
  reset g := g

/-- Two agents as one, which answers for either player. -/
def versus {σ τ : Type} (red : Agent σ) (blue : Agent τ) : Agent (σ × τ) where
  name := red.name ++ " against " ++ blue.name
  choose m s :=
    match s.turn with
    | .red =>
      let (choice, r) := red.choose m.1 s
      (choice, r, m.2)
    | .blue =>
      let (choice, b) := blue.choose m.2 s
      (choice, m.1, b)
  reset m := (red.reset m.1, blue.reset m.2)

end Agent

/-- The memory of an agent of one of four kinds. -/
inductive Bot where
  /-- Chooses at random. -/
  | random (generator : Generator)
  /-- Takes the first legal placement. -/
  | first
  /-- Takes the last legal placement. -/
  | last
  /-- Follows a list of placements, legal or not, of which `left` are to come. -/
  | script (all left : List Placement)
  deriving DecidableEq, Repr

namespace Bot

/-- The placement that a bot chooses, and the bot afterwards. -/
def choose (b : Bot) (s : Position) : Option Placement × Bot :=
  match b with
  | .random g =>
    let (choice, g) := Agent.random.choose g s
    (choice, .random g)
  | .first => (s.playableTiles.head?, .first)
  | .last => (s.playableTiles.getLast?, .last)
  | .script all left => (left.head?, .script all left.tail)

/-- The bot at the start of a new game. Only a script starts again. -/
def reset : Bot → Bot
  | .script all _ => .script all all
  | b => b

/-- The agent whose memory is a bot. -/
def agent : Agent Bot := ⟨"bot", choose, reset⟩

end Bot
end UltimateTicTacToe
