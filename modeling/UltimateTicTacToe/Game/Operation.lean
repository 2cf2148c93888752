/-
# Operations on a timeline

Everything that can be done to a timeline, as a value. `Timeline.perform` does
one operation and gives its answer or the fault, together with the timeline that
it leaves; `Timeline.perform` on a list of them is `Timeline.run`.

Key definitions: `Operation`, `Answer`, `Timeline.perform`, `Timeline.run`.
-/
import UltimateTicTacToe.Game.Timeline

namespace UltimateTicTacToe

/-- Something to do to a timeline. -/
inductive Operation where
  | addEvent (event : Event)
  | addEvents (events : List Event)
  | play (placement : Placement)
  | clear
  | next
  | previous
  | goToBeginning
  | goToEnd
  | goTo (position : Int)
  deriving DecidableEq, Repr

/-- What an operation answers. -/
inductive Answer where
  | done
  /-- Whether there was a further step. -/
  | moved (hasMoved : Bool)
  /-- The outcomes that a move has had. -/
  | decided (outcomes : List Event)
  deriving DecidableEq, Repr

namespace Timeline

/-- Answers for an operation that changes nothing when it fails. -/
def settle (t : Timeline) : Except Fault Timeline → Timeline × Except Fault Answer
  | .ok u => (u, .ok .done)
  | .error f => (t, .error f)

/-- Answers for a step. -/
def settleStep (t : Timeline) : Except Fault (Option Timeline) → Timeline × Except Fault Answer
  | .ok (some u) => (u, .ok (.moved true))
  | .ok none => (t, .ok (.moved false))
  | .error f => (t, .error f)

/-- Does one operation. -/
def perform (t : Timeline) : Operation → Timeline × Except Fault Answer
  | .addEvent e => t.settle (t.addEvent e)
  | .addEvents es => ((t.addEvents es).1, (t.addEvents es).2.map fun _ => .done)
  | .play p => ((t.play p).1, (t.play p).2.map .decided)
  | .clear => (empty, .ok .done)
  | .next => t.settleStep t.next
  | .previous => t.settleStep t.previous
  | .goToBeginning => (t.rewind, .ok .done)
  | .goToEnd => (t.goToEnd.1, t.goToEnd.2.map fun _ => .done)
  | .goTo position => ((t.goTo position).1, (t.goTo position).2.map fun _ => .done)

/-- The timeline after operations, whether they succeed or not. -/
def run (t : Timeline) : List Operation → Timeline
  | [] => t
  | o :: os => (t.perform o).1.run os

end Timeline
end UltimateTicTacToe
