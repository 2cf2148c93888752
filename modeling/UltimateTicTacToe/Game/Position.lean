/-
# Positions

A position is all that a game has come to: who has won it, whose turn it is, the
sub-board that the next player is sent to, the sub-boards that are decided, and
the owner of every tile. `Position.apply` takes one event into account and
`Position.undo` takes it back. A placement overwrites the constraint it was made
under, so a position keeps the earlier ones on a stack; with it, `undo` restores
exactly the position before.

Key definitions: `Position`, `Position.start`, `Position.apply`,
`Position.undo`, `Position.replay`, `Position.unwind`.
-/
import UltimateTicTacToe.Game.Fault

namespace UltimateTicTacToe

/-- One position of a game. -/
structure Position where
  /-- How the game has ended, if it has. -/
  winner : Option Outcome
  /-- The player to move. -/
  turn : Player
  /-- The sub-board that the player to move is sent to, none for any. -/
  target : Option Nat
  /-- The values of `target` before each placement so far, the latest first. -/
  pastTargets : List (Option Nat)
  /-- The outcomes of the sub-boards that are recorded as decided. -/
  decided : Cells Outcome
  /-- The owners of the tiles, sub-board by sub-board. -/
  boards : Vector (Cells Player) 9
  deriving DecidableEq, Repr

namespace Position

/-- The empty board: the first player moves, and may move anywhere. -/
def start : Position where
  winner := none
  turn := .first
  target := none
  pastTargets := []
  decided := .empty
  boards := Vector.replicate 9 .empty

instance : Inhabited Position := ⟨start⟩

/-- Whether the game has ended. -/
def isOver (s : Position) : Bool := s.winner.isSome

/-- The tiles of sub-board `g`; a sub-board off the board is empty. -/
def board (s : Position) (g : Nat) : Cells Player := s.boards[g]?.getD .empty

/-- The owner of tile `t` of sub-board `g`. -/
def tile (s : Position) (g t : Nat) : Option Player := (s.board g).get t

/-- The owner of a placement's tile. -/
def owner (s : Position) (p : Placement) : Option Player := s.tile p.grid p.tile

/-- The position with the tile of `p` given to `owner`, and nothing else
changed. -/
def setOwner (s : Position) (p : Placement) (owner : Option Player) : Position :=
  { s with boards := s.boards.setIfInBounds p.grid ((s.board p.grid).put p.tile owner) }

/-- The number of tiles that have an owner. -/
def placedCount (s : Position) : Nat :=
  (s.boards.toList.flatMap Cells.toList).countP Option.isSome

/-! ### Events forwards -/

/-- The position after the player to move has taken the tile of `p`. The next
player is sent to the sub-board that the tile points at, unless that one is
decided. -/
def place (s : Position) (p : Placement) : Position :=
  { s.setOwner p (some s.turn) with
    turn := s.turn.opponent
    target := if s.decided.get p.tile = none then some p.tile else none
    pastTargets := s.target :: s.pastTargets }

/-- The position after an event. Nothing may follow the end of the game, a tile
is taken once, and a sub-board is decided once. -/
def apply (s : Position) (e : Event) : Except Fault Position :=
  match s.winner with
  | some o => .error (.conflict (.gameOver o e))
  | none =>
    match e with
    | .placed p =>
      if p.onBoard then
        match s.owner p with
        | some owner => .error (.conflict (.tileTaken p owner))
        | none => .ok (s.place p)
      else .error (.offBoard p)
    | .decided g o =>
      if isIndex g then
        match s.decided.get g with
        | some recorded => .error (.conflict (.gridDecided g recorded))
        | none => .ok { s with decided := s.decided.put g (some o) }
      else .error (.offBoard ⟨g, 0⟩)
    | .ended o => .ok { s with winner := some o }

/-- The position after a list of events, if every one of them can be applied. -/
def replay (s : Position) : List Event → Except Fault Position
  | [] => .ok s
  | e :: es =>
    match s.apply e with
    | .ok t => t.replay es
    | .error f => .error f

/-! ### Events backwards -/

/-- The position before an event that has led to `s`. -/
def undo (s : Position) (e : Event) : Except Fault Position :=
  match e with
  | .placed p =>
    if p.onBoard then
      if s.owner p = some s.turn.opponent then
        match s.pastTargets with
        | [] => .error (.conflict .noEarlierTarget)
        | target :: pastTargets =>
          .ok { s.setOwner p none with turn := s.turn.opponent, target, pastTargets }
      else .error (.conflict (.tileNotOwnedBy p s.turn.opponent))
    else .error (.offBoard p)
  | .decided g o =>
    if isIndex g then
      if s.decided.get g = some o then .ok { s with decided := s.decided.put g none }
      else .error (.conflict (.gridNotDecidedAs g o))
    else .error (.offBoard ⟨g, 0⟩)
  | .ended o =>
    if s.winner = some o then .ok { s with winner := none }
    else .error (.conflict (.gameNotEndedAs o))

/-- The position before a list of events, the latest given first. -/
def unwind (s : Position) : List Event → Except Fault Position
  | [] => .ok s
  | e :: es =>
    match s.undo e with
    | .ok t => t.unwind es
    | .error f => .error f

end Position

end UltimateTicTacToe
