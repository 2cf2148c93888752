/-
# The course of a match

`MatchConfig.play` says what a match comes to; here is how it gets there. A game is taken
up, it is played, and it is finished. When the games of a match are played one after the
other, a game is taken up when all those before it are finished. When they are played at
the same time, any game may be taken up next, and any of those that are being played may
be the next to finish. Each game is reported when it is finished.

A game that fails has no result, and the first fault becomes the fault of the match. What
has not been taken up by then may be dropped; what is being played is still played on.

The order in which things happen is nobody's choice, so a course is a relation and not a
function. What is said of the result does not depend on it: games have their places by
their plans, wherever they came in time.

Key definitions: `Stage`, `Course`, `Course.start`, `Course.Step`, `Course.result?`.
-/
import UltimateTicTacToe.Match.Basic

namespace UltimateTicTacToe

/-- How far a game of a match has come. -/
inductive Stage where
  | waiting
  | playing
  | finished (game : PlayedGame)
  /-- It has failed, or it was dropped when another game had. -/
  | abandoned
  deriving DecidableEq, Repr

namespace Stage

/-- The game, once it is finished. -/
def game? : Stage → Option PlayedGame
  | .finished g => some g
  | _ => none

/-- Whether nothing more will happen to the game. -/
def isSettled : Stage → Bool
  | .waiting => false
  | .playing => false
  | _ => true

end Stage

/-- A match at some moment. -/
structure Course where
  /-- The games in the order of their plans. -/
  games : List (GamePlan × Stage)
  /-- The games that have been reported, the first one first. -/
  reported : List PlayedGame
  /-- The first fault. -/
  fault : Option Fault
  deriving DecidableEq, Repr

namespace Course

/-- The match before its first game. -/
def start (c : MatchConfig) : Course := ⟨c.plans.map fun p => (p, .waiting), [], none⟩

/-- What can happen next. -/
inductive Step (parallel : Bool) : Course → Course → Prop
  /-- A game is taken up; if games are not played at the same time, all those before it
  have to be finished. -/
  | takeUp {before after : List (GamePlan × Stage)} {p : GamePlan} {reported : List PlayedGame}
      {fault : Option Fault} :
      (parallel = true ∨ ∀ q ∈ before, q.2.game?.isSome = true) →
      Step parallel ⟨before ++ (p, .waiting) :: after, reported, fault⟩
        ⟨before ++ (p, .playing) :: after, reported, fault⟩
  /-- A game is finished and reported. -/
  | finish {before after : List (GamePlan × Stage)} {p : GamePlan} {g : PlayedGame}
      {reported : List PlayedGame} {fault : Option Fault} :
      p.play = .ok g →
      Step parallel ⟨before ++ (p, .playing) :: after, reported, fault⟩
        ⟨before ++ (p, .finished g) :: after, reported ++ [g], fault⟩
  /-- A game fails. -/
  | fail {before after : List (GamePlan × Stage)} {p : GamePlan} {f : Fault}
      {reported : List PlayedGame} {fault : Option Fault} :
      p.play = .error f →
      Step parallel ⟨before ++ (p, .playing) :: after, reported, fault⟩
        ⟨before ++ (p, .abandoned) :: after, reported, fault.or (some f)⟩
  /-- A game is dropped after another one has failed. -/
  | drop {before after : List (GamePlan × Stage)} {p : GamePlan} {f : Fault}
      {reported : List PlayedGame} :
      Step parallel ⟨before ++ (p, .waiting) :: after, reported, some f⟩
        ⟨before ++ (p, .abandoned) :: after, reported, some f⟩

/-- Whether all games are settled. -/
def isOver (r : Course) : Bool := r.games.all fun q => q.2.isSettled

/-- The games that are finished, in the order of their plans. -/
def finished (r : Course) : List PlayedGame := r.games.filterMap fun q => q.2.game?

/-- What the match has come to, once it is over. -/
def result? (r : Course) : Option (Except Fault MatchResult) :=
  if r.isOver then
    match r.fault with
    | some f => some (.error f)
    | none => some (.ok (.ofGames r.finished))
  else none

end Course

end UltimateTicTacToe
