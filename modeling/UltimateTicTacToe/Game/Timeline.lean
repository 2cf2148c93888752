/-
# Timelines

A timeline is the record of one game, open at some position. Its events are
grouped into moves, a placement with the outcomes it has caused, and a cursor
says how many of the moves are on view. New events always join the end of the
record and are checked there, wherever the cursor is; the cursor follows them
only when it stood at the end. Going forwards applies whole moves to the position
on view, and going back takes whole moves back.

An operation that can stop half-way gives back the timeline it has reached
together with its result; one that either succeeds or changes nothing gives an
`Except`.

Key definitions: `Move`, `Timeline`, `Timeline.addEvent`, `Timeline.play`,
`Timeline.next`, `Timeline.previous`, `Timeline.goTo`.
-/
import UltimateTicTacToe.Game.Rules

namespace UltimateTicTacToe

/-- A placement and the outcomes it has caused. -/
structure Move where
  placement : Placement
  outcomes : List Event
  deriving DecidableEq, Repr

namespace Move

/-- The events of the move in the order of the record. -/
def events (m : Move) : List Event := .placed m.placement :: m.outcomes

/-- The moves with one more event at their end. A placement opens a move, and
any other event joins the latest one; there has to be one. -/
def record : List Move → Event → Option (List Move)
  | [], .placed p => some [⟨p, []⟩]
  | [], _ => none
  | [m], .placed p => some [m, ⟨p, []⟩]
  | [m], e => some [{ m with outcomes := m.outcomes ++ [e] }]
  | m :: ms, e => (record ms e).map (m :: ·)

end Move

/-- The record of a game, with one of its positions on view. -/
structure Timeline where
  /-- The moves, the first one first. -/
  moves : List Move
  /-- How many of the moves are on view. -/
  shown : Nat
  /-- The position after the moves on view. -/
  view : Position
  /-- The position after all the moves. -/
  final : Position
  deriving DecidableEq, Repr

namespace Timeline

/-- A game in which nothing has happened. -/
def empty : Timeline := ⟨[], 0, .start, .start⟩

instance : Inhabited Timeline := ⟨empty⟩

/-- The number of moves. -/
def length (t : Timeline) : Nat := t.moves.length

/-- Whether nothing is recorded. -/
def isEmpty (t : Timeline) : Bool := t.moves.isEmpty

/-- The number of the last move on view, counted from 0; `-1` on the empty
board. -/
def position (t : Timeline) : Int := t.shown - 1

/-- Whether all the moves are on view. -/
def atEnd (t : Timeline) : Bool := t.shown == t.moves.length

/-- The placements, one for each move. -/
def placements (t : Timeline) : List Placement := t.moves.map (·.placement)

/-- Every recorded event in order. -/
def events (t : Timeline) : List Event := t.moves.flatMap Move.events

/-! ### Recording -/

/-- The timeline with one more event. It has to apply to the end of the record;
a refused event changes nothing. -/
def addEvent (t : Timeline) (e : Event) : Except Fault Timeline :=
  match Move.record t.moves e with
  | none => .error .orphanOutcome
  | some moves =>
    match t.final.apply e with
    | .error f => .error f
    | .ok final =>
      if t.atEnd then .ok { moves, shown := moves.length, view := final, final }
      else .ok { t with moves, final }

/-- The timeline with more events, up to the first that is refused. -/
def addEvents (t : Timeline) : List Event → Timeline × Except Fault Unit
  | [] => (t, .ok ())
  | e :: es =>
    match t.addEvent e with
    | .ok u => u.addEvents es
    | .error f => (t, .error f)

/-- The timeline of a whole record, with its last position on view. -/
def ofEvents (es : List Event) : Except Fault Timeline :=
  match empty.addEvents es with
  | (t, .ok ()) => .ok t
  | (_, .error f) => .error f

/-- Plays a legal placement at the end of the record, and records what it has
decided. The result is that list of outcomes. -/
def play (t : Timeline) (p : Placement) : Timeline × Except Fault (List Event) :=
  if !t.atEnd then (t, .error .reviewing)
  else if !t.view.isPlayable p then (t, .error (.illegalMove p))
  else
    match t.addEvent (.placed p) with
    | .error f => (t, .error f)
    | .ok u =>
      let wins := u.view.findWins
      match u.addEvents wins with
      | (v, .ok ()) => (v, .ok wins)
      | (v, .error f) => (v, .error f)

/-! ### Going through the record -/

/-- The same record with the empty board on view. -/
def rewind (t : Timeline) : Timeline := { t with shown := 0, view := .start }

/-- One more move on view; none if all of them are. -/
def next (t : Timeline) : Except Fault (Option Timeline) :=
  match t.moves[t.shown]? with
  | none => .ok none
  | some m =>
    match t.view.replay m.events with
    | .ok view => .ok (some { t with shown := t.shown + 1, view })
    | .error f => .error f

/-- One move less on view; none if the empty board is. -/
def previous (t : Timeline) : Except Fault (Option Timeline) :=
  match t.shown with
  | 0 => .ok none
  | k + 1 =>
    match t.moves[k]? with
    | none => .ok none
    | some m =>
      match t.view.unwind m.events.reverse with
      | .ok view => .ok (some { t with shown := k, view })
      | .error f => .error f

/-- Repeats a step at most `n` times, until there is no further step. -/
def walk (step : Timeline → Except Fault (Option Timeline)) :
    Nat → Timeline → Timeline × Except Fault Unit
  | 0, t => (t, .ok ())
  | n + 1, t =>
    match step t with
    | .ok (some u) => walk step n u
    | .ok none => (t, .ok ())
    | .error f => (t, .error f)

/-- All the moves on view. -/
def goToEnd (t : Timeline) : Timeline × Except Fault Unit :=
  walk next (t.moves.length - t.shown) t

/-- Puts the position with the given number on view, by the shorter way: when it
is nearer to the empty board than to the position on view, the walk starts from
the empty board. -/
def goTo (t : Timeline) (position : Int) : Timeline × Except Fault Unit :=
  if position < -1 ∨ (t.moves.length : Int) ≤ position then
    (t, .error (.noSuchPosition position t.moves.length))
  else
    let goal := (position + 1).toNat
    let arrived :=
      if t.shown ≤ goal then walk next (goal - t.shown) t
      else if goal < t.shown - goal then walk next goal t.rewind
      else walk previous (t.shown - goal) t
    match arrived with
    | (u, .error f) => (u, .error f)
    | (u, .ok ()) =>
      if u.shown = goal then (u, .ok ()) else (u, .error (.strayed position u.position))

end Timeline

end UltimateTicTacToe
