/-
# Match feeds

A feed is how a match travels: a list of entries, each with a kind and a payload
that is any JSON value. The payloads that matter are the events of a game, the
score of the match, and the outcomes of its games; each is tagged with its kind.

Key definitions: `History`, `Payload`, `FeedEntry`, `Feed`.
-/
import UltimateTicTacToe.Archive.Event
import UltimateTicTacToe.Archive.Score

namespace UltimateTicTacToe

/-- The events of one game, with the outcome that is reported for it. -/
structure History where
  events : List Event
  winner : Option Outcome
  deriving DecidableEq, Repr

namespace History

/-- The outcome of the last event that ends the game. -/
def reportedWinner (es : List Event) : Option Outcome :=
  es.reverse.findSome? fun
    | .ended o => some o
    | _ => none

/-- The events of a game, with the outcome that they report. -/
def ofEvents (events : List Event) : History := ⟨events, reportedWinner events⟩

/-- Reads a history. The outcome may be left out. -/
def ofJson (inTagged : Bool) (j : Json) : Except Misread History :=
  match j.fields? ["events", "overall_winner"] 1 with
  | some (some es :: winner :: surplus) => do
    let events ← Event.listOfJson inTagged es
    let winner ← Misread.ofOption (Json.optional? (Outcome.ofJson? inTagged) winner)
    if surplus.isEmpty then return ⟨events, winner⟩ else throw .form
  | _ => .error .form

/-- The fields of a history. -/
def fieldsJson (h : History) : List (String × Json) :=
  [("events", .list Event.toJson h.events), ("overall_winner", .option Outcome.toJson h.winner)]

/-- A history. -/
def toJson (h : History) : Json := .object h.fieldsJson

/-- The history as messages spell it. -/
def spelling (h : History) : Spelling :=
  .record "GameHistory" [("events", .list (h.events.map Event.spelling)),
    ("overall_winner", .option Outcome.spelling h.winner)]

end History

/-! ### Payloads -/

/-- What the entry of a feed can carry. -/
inductive Payload where
  | history (history : History)
  | score (score : Score)
  | winners (outcomes : List Outcome)
  deriving DecidableEq, Repr

namespace Payload

/-- Reads the outcomes of the games of a match. -/
def winnersOfJson? (j : Json) : Option (List Outcome) :=
  match j.fields? ["winners"] 1 with
  | some [some (.array items)] => Json.readAll? (Outcome.ofJson? true) items
  | _ => none

/-- Reads a payload by its tag. -/
def ofJson (j : Json) : Except Misread Payload :=
  match j.tagged? "type" with
  | some ("GameHistory", j) => do return .history (← History.ofJson true j)
  | some ("Scores", j) => do return .score (← Misread.ofOption (Score.ofJson? j))
  | some ("GameWinners", j) => do return .winners (← Misread.ofOption (winnersOfJson? j))
  | _ => .error .form

/-- A payload with its tag. -/
def toJson : Payload → Json
  | .history h => .object (("type", .string "GameHistory") :: h.fieldsJson)
  | .score s =>
    .object [("type", .string "Scores"), ("a_wins", .nat s.aWins.toNat),
      ("b_wins", .nat s.bWins.toNat), ("draws", .nat s.draws.toNat)]
  | .winners os =>
    .object [("type", .string "GameWinners"), ("winners", .list Outcome.toJson os)]

/-- The payload as messages spell it. -/
def spelling : Payload → Spelling
  | .history h => .wrap "GameHistory" h.spelling
  | .score s => .wrap "Scores" s.spelling
  | .winners os => .record "GameWinners" [("winners", .list (os.map Outcome.spelling))]

end Payload

/-! ### Entries -/

/-- One entry of a feed. -/
structure FeedEntry where
  id : Option Int
  kind : String
  payload : Json
  deriving Repr

/-- A feed. -/
structure Feed where
  entries : List FeedEntry
  deriving Repr

namespace FeedEntry

/-- Reads an entry; `payload` makes the payload of the value that stands
there. -/
def ofJson? (payload : Json → Option Json) (j : Json) : Option FeedEntry :=
  match j.fields? ["id", "type", "payload"] 3 with
  | some [id, some kind, some value] => do
    let id ← Json.optional? Json.int? id
    let kind ← kind.string?
    let payload ← payload value
    return { id, kind, payload }
  | _ => none

/-- An entry. -/
def toJson (e : FeedEntry) : Json :=
  .object [("id", .option .int e.id), ("type", .string e.kind), ("payload", e.payload)]

end FeedEntry

namespace Feed

/-- Reads a feed; `payload` makes the payloads of the values that stand
there. -/
def ofJson? (payload : Json → Option Json) (j : Json) : Option Feed :=
  match j.fields? ["events"] 1 with
  | some [some (.array items)] => (Json.readAll? (FeedEntry.ofJson? payload) items).map Feed.mk
  | _ => none

/-- A feed. -/
def toJson (f : Feed) : Json := .object [("events", .list FeedEntry.toJson f.entries)]

end Feed
end UltimateTicTacToe
