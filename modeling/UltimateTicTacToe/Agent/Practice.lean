/-
# Practice games

A practice game is a game between a person and an agent. The agent answers every
placement of the person until the game is decided; it may also open the game. If
its answer is refused, what the person has placed stays.

Key definitions: `Practice`, `Practice.start`, `Practice.place`,
`Practice.reset`.
-/
import UltimateTicTacToe.Agent.Basic
import UltimateTicTacToe.Game.Timeline
import UltimateTicTacToe.Json.Fields

namespace UltimateTicTacToe

/-- How a practice game is set up. -/
structure PracticeConfig where
  /-- Whether the agent opens the game, as the first player. -/
  agentFirst : Bool
  deriving DecidableEq, Repr

namespace PracticeConfig

/-- The agent opens the game unless something else is asked for. -/
def standard : PracticeConfig := ⟨true⟩

instance : Inhabited PracticeConfig := ⟨standard⟩

/-- The person's colour. -/
def human (c : PracticeConfig) : Player :=
  if c.agentFirst then Player.first.opponent else .first

/-- The set-up. -/
def toJson (c : PracticeConfig) : Json := .object [("agent_plays_first", .bool c.agentFirst)]

/-- Reads a set-up. -/
def ofJson? (j : Json) : Option PracticeConfig :=
  match j.fields? ["agent_plays_first"] 1 with
  | some [some b] => b.bool?.map PracticeConfig.mk
  | _ => none

end PracticeConfig

/-- A practice game: its record, and what the agent remembers. -/
structure Practice (σ : Type) where
  config : PracticeConfig
  timeline : Timeline
  memory : σ
  deriving Repr

namespace Practice

variable {σ : Type}

/-- Lets the agent play, if it has a choice. The result is what was recorded. -/
def agentTurn (agent : Agent σ) (g : Practice σ) : Practice σ × Except Fault (List Event) :=
  match agent.choose g.memory g.timeline.view with
  | (none, memory) => ({ g with memory }, .ok [])
  | (some p, memory) =>
    match g.timeline.play p with
    | (timeline, .ok outcomes) => ({ g with memory, timeline }, .ok (.placed p :: outcomes))
    | (timeline, .error f) => ({ g with memory, timeline }, .error f)

/-- Opens the game, if that is up to the agent. -/
def opening (agent : Agent σ) (g : Practice σ) : Practice σ × Except Fault Unit :=
  if g.config.agentFirst then
    match g.agentTurn agent with
    | (g, .ok _) => (g, .ok ())
    | (g, .error f) => (g, .error f)
  else (g, .ok ())

/-- A new game. -/
def start (agent : Agent σ) (memory : σ) (config : PracticeConfig) :
    Except Fault (Practice σ) :=
  match opening agent ⟨config, .empty, memory⟩ with
  | (g, .ok ()) => .ok g
  | (_, .error f) => .error f

/-- Starts over with an empty board. -/
def reset (agent : Agent σ) (g : Practice σ) : Practice σ × Except Fault Unit :=
  opening agent { g with timeline := .empty, memory := agent.reset g.memory }

/-- Places a tile for the person, and lets the agent answer unless that decides
the game. The result is all that was recorded, in order. -/
def place (agent : Agent σ) (g : Practice σ) (p : Placement) :
    Practice σ × Except Fault (List Event) :=
  if !g.timeline.atEnd then (g, .error .reviewing)
  else
    match g.timeline.play p with
    | (timeline, .error f) => ({ g with timeline }, .error f)
    | (timeline, .ok outcomes) =>
      let g := { g with timeline }
      if timeline.view.isOver then (g, .ok (.placed p :: outcomes))
      else
        match g.agentTurn agent with
        | (g, .ok answer) => (g, .ok (.placed p :: outcomes ++ answer))
        | (g, .error f) => (g, .error f)

end Practice
end UltimateTicTacToe
