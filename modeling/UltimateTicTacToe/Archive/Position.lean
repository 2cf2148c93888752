/-
# Positions and moves in JSON

A position is written with all its fields, boards as arrays of nine. What the
constraint has been before each placement is written in the order of the game.

Key definitions: `Position.toJson`, `Position.ofJson?`, `Position.parse?`,
`Move.toJson`, `Move.ofJson`.
-/
import UltimateTicTacToe.Archive.Event
import UltimateTicTacToe.Game.Timeline
import UltimateTicTacToe.Json.Reader

namespace UltimateTicTacToe

/-- Nine values. -/
def Json.nine? {α : Type} (read : Json → Option α) : Json → Option (Vector α 9)
  | .array items =>
    match readAll? read items with
    | some values =>
      if h : values.length = 9 then some ⟨values.toArray, by simpa using h⟩ else none
    | none => none
  | _ => none

namespace Cells

variable {α : Type}

/-- The cells in reading order, `null` where they are empty. -/
def toJson (encode : α → Json) (cells : Cells α) : Json :=
  .list (.option encode) cells.toList

/-- Nine cells. -/
def ofJson? (read : Json → Option α) (j : Json) : Option (Cells α) :=
  (j.nine? (Json.nullable? read)).map Cells.mk

end Cells

namespace Position

/-- A position with all its fields. -/
def toJson (s : Position) : Json :=
  .object [
    ("winner", .option Outcome.toJson s.winner),
    ("next_player", s.turn.toJson),
    ("next_grid", .option .nat s.target),
    ("past_next_grids", .list (.option .nat) s.pastTargets.reverse),
    ("sub_grids_won", s.decided.toJson Outcome.toJson),
    ("sub_grids", .list (Cells.toJson Player.toJson) s.boards.toList)]

/-- A list of constraints, in the order of the game. -/
def targetsOfJson? : Json → Option (List (Option Nat))
  | .array items => Json.readAll? (Json.nullable? Json.index?) items
  | _ => none

/-- Reads a position. -/
def ofJson? (j : Json) : Option Position :=
  match j.fields? ["winner", "next_player", "next_grid", "past_next_grids", "sub_grids_won",
    "sub_grids"] 6 with
  | some [winner, some turn, target, some past, some decided, some boards] => do
    let winner ← Json.optional? (Outcome.ofJson? false) winner
    let turn ← Player.ofJson? turn
    let target ← Json.optional? Json.index? target
    let past ← targetsOfJson? past
    let decided ← Cells.ofJson? (Outcome.ofJson? false) decided
    let boards ← boards.nine? (Cells.ofJson? Player.ofJson?)
    return { winner, turn, target, pastTargets := past.reverse, decided, boards }
  | _ => none

/-- Reads a text that is a position. -/
def parse? (text : String) : Option Position := (Json.parse? text).bind ofJson?

end Position

namespace Move

/-- A move. -/
def toJson (m : Move) : Json :=
  .object [("placement", m.placement.toJson), ("outcomes", .list Event.toJson m.outcomes)]

/-- Reads a move. -/
def ofJson (j : Json) : Except Misread Move :=
  match j.fields? ["placement", "outcomes"] 2 with
  | some [some p, some es] => do
    let placement ← Misread.ofOption (Placement.ofJson? p)
    let outcomes ← Event.listOfJson false es
    return { placement, outcomes }
  | _ => .error .form

end Move
end UltimateTicTacToe
