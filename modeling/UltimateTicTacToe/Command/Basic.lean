/-
# Commands

The program has three commands: show a position of a recorded game, list its
moves, play a match. A command reads at most one file, and what it has to say or
to write follows from that file's content. A command that fails says what it was
about to do, and then why that was not possible.

Key definitions: `Command`, `Command.source?`, `Command.run`, `Response`,
`Failure`.
-/
import UltimateTicTacToe.Archive.Position
import UltimateTicTacToe.Archive.Record
import UltimateTicTacToe.Game.Diagram
import UltimateTicTacToe.Match.Report

namespace UltimateTicTacToe

/-- How a position is to be shown. -/
structure ReplayOptions where
  file : String
  game : UInt32
  /-- The position, the last one if none is given. -/
  position : Option Int
  json : Bool
  deriving DecidableEq, Repr

/-- How a match is to be played and reported. -/
structure PlayOptions where
  gamesPerSide : Nat
  seed : Option UInt64
  sequential : Bool
  /-- The file for the feed of the match. -/
  output : Option String
  json : Bool
  deriving DecidableEq, Repr

/-- Something for the program to do. -/
inductive Command where
  | replay (options : ReplayOptions)
  | moves (file : String) (game : UInt32)
  | play (options : PlayOptions)
  deriving DecidableEq, Repr

/-- What a command has to say, and the file that it writes before it does. -/
structure Response where
  output : String
  /-- The path and the content of the file. -/
  saved : Option (String × String)
  deriving DecidableEq, Repr

/-- Why a step of a command was not possible. -/
inductive Obstacle where
  /-- The system has refused it, with these words. -/
  | system (text : String)
  | archive (cause : ArchiveFault)
  | load (cause : LoadFault)
  | game (cause : Fault)
  deriving DecidableEq, Repr

/-- What a command was about to do, and why that was not possible. -/
structure Failure where
  attempt : String
  obstacle : Obstacle
  deriving DecidableEq, Repr

namespace Failure

/-- A file cannot be read. -/
def unread (file text : String) : Failure :=
  ⟨"Failed to read match file: " ++ file, .system text⟩

/-- The content of a file is no match. -/
def unparsed (file : String) (cause : ArchiveFault) : Failure :=
  ⟨"Failed to parse match file: " ++ file, .archive cause⟩

/-- A game of a match cannot be opened. -/
def unloaded (file : String) (game : UInt32) (cause : LoadFault) : Failure :=
  ⟨"Failed to load game " ++ toString game.toNat ++ " from " ++ file, .load cause⟩

/-- A position cannot be put on view. -/
def unreached (position : Int) (cause : Fault) : Failure :=
  ⟨"Cannot move to position " ++ toString position, .game cause⟩

/-- A match cannot be played. -/
def aborted (cause : Fault) : Failure := ⟨"Match aborted", .game cause⟩

/-- The feed of a match cannot be written. -/
def unwritten (file text : String) : Failure :=
  ⟨"Failed to write match feed: " ++ file, .system text⟩

end Failure

/-- Why a step was not possible, in words. -/
def Obstacle.message : Obstacle → String
  | .system text => text
  | .archive cause => cause.message
  | .load cause => cause.message
  | .game cause => cause.message

/-- A game of the match that a file holds, with its last position on view. -/
def loadGame (file : String) (game : UInt32) (content : Except String String) :
    Except Failure Timeline :=
  match content with
  | .error text => .error (.unread file text)
  | .ok text =>
    match Record.parse text with
    | .error cause => .error (.unparsed file cause)
    | .ok record =>
      match record.timeline game with
      | .error cause => .error (.unloaded file game cause)
      | .ok t => .ok t

namespace ReplayOptions

/-- The position on view as a JSON value, with the moves of the game. -/
def reportJson (o : ReplayOptions) (t : Timeline) : Json :=
  .object [("game", .nat o.game.toNat), ("position", .int t.position), ("length", .nat t.length),
    ("snapshot", t.view.toJson), ("moves", .list Placement.toJson t.placements)]

/-- The position on view as text, with the moves of the game. -/
def reportText (t : Timeline) : String :=
  let outcomes := Diagram.outcomes t.view
  Diagram.status t ++ "\n\n" ++ Diagram.board t.view ++
    (if outcomes.isEmpty then "" else "\nSub-boards: " ++ outcomes ++ "\n") ++
    "\nMoves:\n" ++ Diagram.moveList t.placements

/-- Puts the wanted position on view. -/
def seek (o : ReplayOptions) (t : Timeline) : Except Failure Timeline :=
  match o.position with
  | none => .ok t
  | some position =>
    match t.goTo position with
    | (u, .ok ()) => .ok u
    | (_, .error cause) => .error (.unreached position cause)

/-- Shows a position of a recorded game. -/
def run (o : ReplayOptions) (content : Except String String) : Except Failure Response :=
  match loadGame o.file o.game content with
  | .error failure => .error failure
  | .ok t =>
    match o.seek t with
    | .error failure => .error failure
    | .ok t =>
      .ok ⟨if o.json then (o.reportJson t).indented ++ "\n" else reportText t, none⟩

end ReplayOptions

/-- Lists the moves of a recorded game, and how it has ended. -/
def listMoves (file : String) (game : UInt32) (content : Except String String) :
    Except Failure Response :=
  match loadGame file game content with
  | .error failure => .error failure
  | .ok t =>
    let result := match t.view.winner with
      | some o => "Result: " ++ o.label ++ "\n"
      | none => ""
    .ok ⟨Diagram.moveList t.placements ++ result, none⟩

namespace PlayOptions

/-- The match to play. -/
def config (o : PlayOptions) : MatchConfig := ⟨o.gamesPerSide, o.seed, !o.sequential⟩

/-- Plays a match and reports it. -/
def run (o : PlayOptions) : Except Failure Response :=
  match o.config.play with
  | .error cause => .error (.aborted cause)
  | .ok result =>
    let output := if o.json then result.reportJson.indented ++ "\n" else result.reportText
    .ok ⟨output, o.output.map fun file => (file, result.toFeed.toJson.indented)⟩

end PlayOptions

namespace Command

/-- The file that a command reads. -/
def source? : Command → Option String
  | .replay o => some o.file
  | .moves file _ => some file
  | .play _ => none

/-- Does what a command asks for; `content` is what reading its file has given,
the content or the system's words. -/
def run (content : Except String String) : Command → Except Failure Response
  | .replay o => o.run content
  | .moves file game => listMoves file game content
  | .play o => o.run

end Command
end UltimateTicTacToe
