/-
# Match records

A record is what a feed has to say about a match: its games by their numbers, and
the score and the list of outcomes if they are given. Of a feed's entries only
those count that are a game, the score or the outcomes by their kind; the others
are passed over, whatever their payload. Of several entries for the same thing
the last one counts. A text that is an array is no feed but the events of a
single game, which becomes game 1.

Key definitions: `Games`, `Record`, `Slot.ofKind?`, `Record.ofFeed`,
`Record.parse`, `Record.toFeed`, `Record.timeline`.
-/
import UltimateTicTacToe.Archive.Feed
import UltimateTicTacToe.Game.Timeline
import UltimateTicTacToe.Json.Reader
import UltimateTicTacToe.Json.Writer
import UltimateTicTacToe.Number.Numeral

namespace UltimateTicTacToe

/-! ### Games by number -/

/-- Games by their numbers, in ascending order. -/
structure Games where
  entries : List (UInt32 × History)
  ascending : entries.Pairwise fun a b => a.1 < b.1
  deriving DecidableEq, Repr

namespace Games

/-- No games. -/
def empty : Games := ⟨[], .nil⟩

/-- Puts a game among games in ascending order, in place of the one with its
number. -/
def put (id : UInt32) (game : History) : List (UInt32 × History) → List (UInt32 × History)
  | [] => [(id, game)]
  | (other, old) :: rest =>
    if id < other then (id, game) :: (other, old) :: rest
    else if id = other then (id, game) :: rest
    else (other, old) :: put id game rest

theorem mem_put {id : UInt32} {game : History} {p : UInt32 × History} :
    ∀ {entries : List (UInt32 × History)}, p ∈ put id game entries →
      p = (id, game) ∨ p ∈ entries
  | [], h => by simpa [put] using h
  | (other, old) :: rest, h => by
    unfold put at h
    split at h
    · simpa using h
    · split at h
      · rcases List.mem_cons.mp h with rfl | h
        · exact .inl rfl
        · exact .inr (List.mem_cons_of_mem _ h)
      · rcases List.mem_cons.mp h with rfl | h
        · exact .inr List.mem_cons_self
        · exact (mem_put h).imp_right (List.mem_cons_of_mem _)

theorem ascending_put {id : UInt32} {game : History} :
    ∀ {entries : List (UInt32 × History)}, (entries.Pairwise fun a b => a.1 < b.1) →
      (put id game entries).Pairwise fun a b => a.1 < b.1
  | [], _ => by simp [put]
  | (other, old) :: rest, h => by
    obtain ⟨hfirst, hrest⟩ := List.pairwise_cons.mp h
    unfold put
    split
    · rename_i hlt
      refine List.pairwise_cons.mpr ⟨fun p hp => ?_, h⟩
      rcases List.mem_cons.mp hp with rfl | hp
      · exact hlt
      · exact UInt32.lt_trans hlt (hfirst p hp)
    · split
      · rename_i heq
        subst heq
        exact List.pairwise_cons.mpr ⟨hfirst, hrest⟩
      · rename_i hlt hne
        refine List.pairwise_cons.mpr ⟨fun p hp => ?_, ascending_put hrest⟩
        rcases mem_put hp with rfl | hp
        · exact UInt32.lt_of_le_of_ne (UInt32.not_lt.mp hlt) fun he => hne he.symm
        · exact hfirst p hp

/-- The games with `game` as number `id`. -/
def insert (games : Games) (id : UInt32) (game : History) : Games :=
  ⟨put id game games.entries, ascending_put games.ascending⟩

/-- The game with a number. -/
def get? (games : Games) (id : UInt32) : Option History := games.entries.lookup id

end Games

/-! ### Records -/

/-- The contents of a match feed. -/
structure Record where
  games : Games
  score : Option Score
  winners : Option (List Outcome)
  deriving DecidableEq, Repr

/-- What the entry of a feed is about. -/
inductive Slot where
  | game (id : UInt32)
  | score
  | winners
  deriving DecidableEq, Repr

/-- Why a text cannot be read as the record of a match, or as events. -/
inductive ArchiveFault where
  /-- The text is not well formed. -/
  | notJson
  /-- The value is not a feed. -/
  | notFeed
  /-- A value, given by its text, does not have the fields of an event. -/
  | notEvent (text : String)
  /-- The fields of an event do not make an event. -/
  | event (cause : EventFault)
  /-- The payload of an entry cannot be read. -/
  | payload (kind : String) (cause : Misread)
  /-- The payload of an entry is not the one that its kind asks for. -/
  | mismatch (kind : String) (payload : Payload)
  deriving DecidableEq, Repr

/-- Why a game of a record cannot be opened. -/
inductive LoadFault where
  /-- The match has no game with this number. -/
  | missing (id : UInt32)
  /-- The game's events do not follow from each other. -/
  | game (cause : Fault)
  deriving DecidableEq, Repr

/-- What the fault is, in words. -/
def ArchiveFault.message : ArchiveFault → String
  | .notJson => "json"
  | .notFeed => "shape"
  | .notEvent text => "Unknown event kind: " ++ text
  | .event cause => cause.message
  | .payload kind .form => kind ++ ": shape"
  | .payload kind (.event cause) => kind ++ ": " ++ cause.message
  | .mismatch kind found =>
    kind ++ " entry carries a mismatched payload: " ++ found.spelling.text

/-- What the fault is, in words. -/
def LoadFault.message : LoadFault → String
  | .missing id => "game " ++ toString id.toNat ++ " not in match"
  | .game cause => cause.message

namespace Slot

/-- The number of the game that a kind names: `game_` and a number of 32 bits. -/
def gameId? (kind : String) : Option UInt32 :=
  match kind.toList with
  | 'g' :: 'a' :: 'm' :: 'e' :: '_' :: cs =>
    ((Numeral.natural? cs).filter fun n => n < UInt32.size).map .ofNat
  | _ => none

/-- What an entry of this kind is about, if it counts. -/
def ofKind? (kind : String) : Option Slot :=
  match gameId? kind with
  | some id => some (.game id)
  | none =>
    if kind = "scores" then some .score
    else if kind = "game_winners" then some .winners
    else none

/-- The kind of the entries about this. -/
def kind : Slot → String
  | .game id => "game_" ++ toString id.toNat
  | .score => "scores"
  | .winners => "game_winners"

end Slot

namespace Record

/-- The record of nothing. -/
def empty : Record := ⟨.empty, none, none⟩

instance : Inhabited Record := ⟨empty⟩

/-- The record with a game in it. -/
def insertGame (r : Record) (id : UInt32) (game : History) : Record :=
  { r with games := r.games.insert id game }

/-- The record with what a payload says about a slot; none if the payload says
nothing about it. -/
def fill? (r : Record) : Slot → Payload → Option Record
  | .game id, .history h => some (r.insertGame id h)
  | .score, .score s => some { r with score := some s }
  | .winners, .winners os => some { r with winners := some os }
  | _, _ => none

/-- The record with what an entry says. -/
def add (r : Record) (entry : FeedEntry) : Except ArchiveFault Record :=
  match Slot.ofKind? entry.kind with
  | none => .ok r
  | some slot =>
    match Payload.ofJson entry.payload with
    | .error cause => .error (.payload entry.kind cause)
    | .ok payload =>
      match r.fill? slot payload with
      | some r => .ok r
      | none => .error (.mismatch entry.kind payload)

/-- The record with what the entries say, one after the other. -/
def addAll (r : Record) : List FeedEntry → Except ArchiveFault Record
  | [] => .ok r
  | entry :: entries =>
    match r.add entry with
    | .ok r => r.addAll entries
    | .error f => .error f

/-- The record that a feed denotes. -/
def ofFeed (feed : Feed) : Except ArchiveFault Record := empty.addAll feed.entries

/-- What the record has to say, in the order in which it is told. -/
def parts (r : Record) : List (Slot × Payload) :=
  r.games.entries.map (fun (id, game) => (.game id, .history game)) ++
    (r.score.map fun s => (.score, .score s)).toList ++
    (r.winners.map fun os => (.winners, .winners os)).toList

/-- Entries for the parts of a record, numbered from `n`. -/
def entriesFrom (n : Int) : List (Slot × Payload) → List FeedEntry
  | [] => []
  | (slot, payload) :: parts =>
    { id := some n, kind := slot.kind, payload := payload.toJson.ordered } ::
      entriesFrom (n + 1) parts

/-- The feed of a record: its games in ascending order, the score, the
outcomes. -/
def toFeed (r : Record) : Feed := ⟨entriesFrom 1 r.parts⟩

/-- The timeline of one of the games, with its last position on view. -/
def timeline (r : Record) (id : UInt32) : Except LoadFault Timeline :=
  match r.games.get? id with
  | none => .error (.missing id)
  | some game =>
    match Timeline.ofEvents game.events with
    | .ok t => .ok t
    | .error f => .error (.game f)

end Record

/-! ### Texts -/

/-- Reads an event of an array of events. -/
def Event.ofValue (j : Json) : Except ArchiveFault Event :=
  match Event.ofJson false j with
  | .ok e => .ok e
  | .error .form => .error (.notEvent j.compact)
  | .error (.event cause) => .error (.event cause)

/-- Reads a text that is an event. A part of it that the reader passes over need only be
well formed. -/
def Event.parse (text : String) : Except Misread Event :=
  match Json.parse? text with
  | some j => Event.ofJson false j
  | none => .error .form

/-- Reads a text that is an array of events. -/
def Event.parseAll (text : String) : Except ArchiveFault (List Event) :=
  match Json.parsePlain? text with
  | some (.array items) => Json.readAll Event.ofValue items
  | _ => .error .notJson

namespace Record

/-- The record that a value denotes: a feed, or the events of a single game. -/
def ofValue : Json → Except ArchiveFault Record
  | .array items =>
    match Json.readAll Event.ofValue items with
    | .ok events => .ok (empty.insertGame 1 (.ofEvents events))
    | .error f => .error f
  | j =>
    match Feed.ofJson? some j with
    | some feed => ofFeed feed
    | none => .error .notFeed

/-- Reads a text that is a feed or an array of events. -/
def parse (text : String) : Except ArchiveFault Record :=
  match Json.parsePlain? text with
  | some j => ofValue j
  | none => .error .notJson

end Record
end UltimateTicTacToe
