/-
# Matches

A match is `2 * gamesPerSide` games between two random agents A and B, who change
colours after every game. Game `i` has the seeds `base + 2 * i` and
`base + 2 * i + 1`, so no two agents of a match share one. The games have nothing
to do with each other; played one after the other or all at once, they come out
the same.

Key definitions: `MatchConfig`, `MatchConfig.plans`, `MatchConfig.play`,
`MatchResult`.
-/
import UltimateTicTacToe.Archive.Record
import UltimateTicTacToe.Match.Game

namespace UltimateTicTacToe

/-- How a match is set up. -/
structure MatchConfig where
  /-- The number of games in which A plays Red, and B as many. -/
  gamesPerSide : Nat
  /-- The base of the seeds, if one is asked for. -/
  seed : Option UInt64
  /-- Whether games are played at the same time. -/
  parallel : Bool
  deriving DecidableEq, Repr

/-- What is known of a game before it is played. -/
structure GamePlan where
  index : Nat
  aIsRed : Bool
  seed : UInt64
  deriving DecidableEq, Repr

namespace MatchConfig

/-- A match for which nothing is asked. -/
def standard : MatchConfig := ⟨20, none, true⟩

instance : Inhabited MatchConfig := ⟨standard⟩

/-- The number of games. -/
def totalGames (c : MatchConfig) : Nat := c.gamesPerSide * 2

/-- The base of the seeds. -/
def baseSeed (c : MatchConfig) : UInt64 := c.seed.getD 42

/-- The plan of game number `index`. A is Red in the games with even numbers. -/
def plan (c : MatchConfig) (index : Nat) : GamePlan :=
  { index, aIsRed := index % 2 = 0, seed := c.baseSeed + .ofNat (2 * index) }

/-- The plans of all the games in order. -/
def plans (c : MatchConfig) : List GamePlan := (List.range c.totalGames).map c.plan

end MatchConfig

/-- Plays the game of a plan. -/
def GamePlan.play (p : GamePlan) : Except Fault PlayedGame :=
  PlayedGame.random p.index p.aIsRed p.seed

/-- A match that has been played, with its games in order. -/
structure MatchResult where
  score : Score
  games : List PlayedGame
  deriving DecidableEq, Repr

namespace MatchResult

/-- The result of these games. -/
def ofGames (games : List PlayedGame) : MatchResult :=
  ⟨games.foldl (fun s g => s.tally g.winner g.aIsRed) .zero, games⟩

/-- The number of games. -/
def played (r : MatchResult) : Nat := r.games.length

/-- The number of placements in all the games. -/
def totalMoves (r : MatchResult) : Nat := (r.games.flatMap (·.events)).countP Event.isPlacement

/-- The average number of placements in a game, as a floating-point number of 32
bits; zero where there are no games. The two numbers are rounded before they are
divided. -/
def averageMoves (r : MatchResult) : Binary :=
  let f := FloatFormat.single
  if r.games.isEmpty then f.zero
  else
    match f.round r.totalMoves 1, f.round r.games.length 1 with
    | some sum, some count => (f.div sum count).getD f.zero
    | _, _ => f.zero

/-- The outcome of each game; one that has stopped early counts as a
stalemate. -/
def winners (r : MatchResult) : List Outcome := r.games.map fun g => g.winner.getD .stalemate

/-- The record of the match. Games are counted from 1 there. -/
def toRecord (r : MatchResult) : Record :=
  let games : Record :=
    r.games.foldl (fun record g => record.insertGame (.ofNat g.index + 1) g.history) .empty
  { games with score := some r.score, winners := some r.winners }

/-- The feed of the match. -/
def toFeed (r : MatchResult) : Feed := r.toRecord.toFeed

end MatchResult

/-- Plays games one after the other, up to the first that fails. -/
def playInTurn : List GamePlan → Except Fault (List PlayedGame)
  | [] => .ok []
  | p :: ps =>
    match p.play with
    | .error f => .error f
    | .ok g =>
      match playInTurn ps with
      | .error f => .error f
      | .ok gs => .ok (g :: gs)

/-- Waits for games that are being played, up to the first that fails. -/
def awaitAll : List (Task (Except Fault PlayedGame)) → Except Fault (List PlayedGame)
  | [] => .ok []
  | t :: ts =>
    match t.get with
    | .error f => .error f
    | .ok g =>
      match awaitAll ts with
      | .error f => .error f
      | .ok gs => .ok (g :: gs)

/-- Plays games at the same time. -/
def playTogether (ps : List GamePlan) : Except Fault (List PlayedGame) :=
  awaitAll (ps.map fun p => Task.spawn fun _ => p.play)

/-- Plays a match. -/
def MatchConfig.play (c : MatchConfig) : Except Fault MatchResult :=
  let games := if c.parallel then playTogether c.plans else playInTurn c.plans
  match games with
  | .ok gs => .ok (.ofGames gs)
  | .error f => .error f

end UltimateTicTacToe
