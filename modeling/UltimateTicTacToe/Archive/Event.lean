/-
# Game events in JSON

An event has no name of its own in a JSON text: it is known by its fields. A
placement is `g` and `t`, the outcome of a sub-board is `g` and `w`, the outcome
of the game is `overall`. All four may be there at once, in which case the
outcome of the game goes before a placement, and a placement before the outcome
of a sub-board. The places have to lie on the board, but where the outcome of the
game is given nothing else matters.

Key definitions: `EventShape`, `EventFault`, `Event.ofShape`, `Event.ofJson`,
`Event.toJson`.
-/
import UltimateTicTacToe.Game.Event
import UltimateTicTacToe.Json.Fields

namespace UltimateTicTacToe

/-- The fields that any kind of event may have. -/
structure EventShape where
  grid : Option Nat
  tile : Option Nat
  won : Option Outcome
  overall : Option Outcome
  deriving DecidableEq, Repr

/-- Why the fields of an event do not make an event. -/
inductive EventFault where
  /-- No kind of event has these fields. -/
  | shapeless (shape : EventShape)
  /-- A number names no place on the board. -/
  | offBoard (placement : Placement)
  deriving DecidableEq, Repr

/-- Why a value cannot be read. -/
inductive Misread where
  /-- It does not have the form. -/
  | form
  /-- It has the form, but an event in it is none. -/
  | event (cause : EventFault)
  deriving DecidableEq, Repr

/-- A reading that fails only for the form. -/
def Misread.ofOption {α : Type} : Option α → Except Misread α
  | some a => .ok a
  | none => .error .form

/-! ### Letters -/

/-- The letter that stands for a player or an outcome: a string, or the name of
an object's only member, the value of which is `null`. Inside a tagged value an
empty object may stand for that `null`. -/
def Json.letter? (inTagged : Bool) : Json → Option String
  | .string s => some s
  | .object [(s, .null)] => some s
  | .object [(s, .object [])] => if inTagged then some s else none
  | _ => none

/-- A player by its letter. -/
def Player.ofJson? (j : Json) : Option Player :=
  match j.letter? false with
  | some "R" => some .red
  | some "B" => some .blue
  | _ => none

/-- An outcome by its letter. -/
def Outcome.ofJson? (inTagged : Bool) (j : Json) : Option Outcome :=
  match j.letter? inTagged with
  | some "R" => some .red
  | some "B" => some .blue
  | some "S" => some .stalemate
  | _ => none

/-- The player's letter. -/
def Player.toJson (p : Player) : Json := .string (toString p.letter)

/-- The outcome's letter. -/
def Outcome.toJson (o : Outcome) : Json := .string (toString o.letter)

/-! ### Placements -/

/-- A placement, wherever it lies. -/
def Placement.ofJson? (j : Json) : Option Placement :=
  match j.fields? ["g", "t"] 2 with
  | some [some g, some t] =>
    match g.index?, t.index? with
    | some grid, some tile => some ⟨grid, tile⟩
    | _, _ => none
  | _ => none

/-- A placement. -/
def Placement.toJson (p : Placement) : Json := .object [("g", .nat p.grid), ("t", .nat p.tile)]

/-! ### Events -/

/-- The fields of an event. -/
def EventShape.ofJson? (inTagged : Bool) (j : Json) : Option EventShape :=
  match j.fields? ["g", "t", "w", "overall"] 4 with
  | some [g, t, w, o] =>
    match Json.optional? Json.index? g, Json.optional? Json.index? t,
      Json.optional? (Outcome.ofJson? inTagged) w, Json.optional? (Outcome.ofJson? inTagged) o with
    | some grid, some tile, some won, some overall => some ⟨grid, tile, won, overall⟩
    | _, _, _, _ => none
  | _ => none

/-- The fields as messages spell them. -/
def EventShape.spelling (s : EventShape) : Spelling :=
  .record "RawEvent" [("g", .option .number s.grid), ("t", .option .number s.tile),
    ("w", .option Outcome.spelling s.won), ("overall", .option Outcome.spelling s.overall)]

/-- What the fault is, in words. -/
def EventFault.message : EventFault → String
  | .shapeless shape => "Unknown event kind: " ++ shape.spelling.text
  | .offBoard p =>
    "Grid/tile index out of range: grid " ++ toString p.grid ++ ", tile " ++ toString p.tile

namespace Event

/-- The event with these fields. -/
def ofShape (s : EventShape) : Except EventFault Event :=
  match s.overall, s.grid, s.tile, s.won with
  | some o, _, _, _ => .ok (.ended o)
  | none, some g, some t, _ =>
    if isIndex g && isIndex t then .ok (.placed ⟨g, t⟩) else .error (.offBoard ⟨g, t⟩)
  | none, some g, none, some o =>
    if isIndex g then .ok (.decided g o) else .error (.offBoard ⟨g, 0⟩)
  | none, _, _, _ => .error (.shapeless s)

/-- Reads an event. -/
def ofJson (inTagged : Bool) (j : Json) : Except Misread Event :=
  match EventShape.ofJson? inTagged j with
  | none => .error .form
  | some s =>
    match ofShape s with
    | .ok e => .ok e
    | .error f => .error (.event f)

/-- Reads a list of events. -/
def listOfJson (inTagged : Bool) : Json → Except Misread (List Event)
  | .array items => Json.readAll (ofJson inTagged) items
  | _ => .error .form

/-- The event by its fields. -/
def toJson : Event → Json
  | .placed p => p.toJson
  | .decided g o => .object [("g", .nat g), ("w", o.toJson)]
  | .ended o => .object [("overall", o.toJson)]

end Event
end UltimateTicTacToe
