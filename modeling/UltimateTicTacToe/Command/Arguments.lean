/-
# Command-line arguments

The words on the command line name a command, its file and its options. An option
is a word that starts with two dashes; it may be given once, and one that takes a
value has it after an equals sign or as the next word. A value that is a word of
its own does not start with a dash, except that a position may be negative. After
two dashes alone no word is an option. The options of the program itself stand
before the command, but for the log filter, which may also stand after it.

Key definitions: `Request`, `Request.parse?`.
-/
import UltimateTicTacToe.Command.Basic

namespace UltimateTicTacToe

/-- What the command line asks for. -/
inductive Request where
  /-- The name and version of the program. -/
  | version
  /-- A command, with the log filter that is given. -/
  | run (filter : Option String) (command : Command)
  deriving DecidableEq, Repr

namespace Arguments

/-- How an option is given. -/
inductive Arity where
  | flag
  | value
  /-- A value that may be a negative number. -/
  | signedValue
  deriving DecidableEq, Repr

/-- The words after a command, sorted out. -/
structure Sorted where
  /-- The options with their values; a flag has none. -/
  options : List (String × Option String)
  /-- The other words. -/
  words : List String
  deriving DecidableEq, Repr

namespace Sorted

/-- Nothing yet. -/
def empty : Sorted := ⟨[], []⟩

/-- Whether an option is given. -/
def has (s : Sorted) (name : String) : Bool := s.options.any fun o => o.1 == name

/-- The value of an option. -/
def value? (s : Sorted) (name : String) : Option String := (s.options.lookup name).join

/-- One more option, unless it is given already. -/
def addOption? (s : Sorted) (name : String) (value : Option String) : Option Sorted :=
  if s.has name then none else some { s with options := s.options ++ [(name, value)] }

/-- One more word that is no option. -/
def addWord (s : Sorted) (word : String) : Sorted := { s with words := s.words ++ [word] }

end Sorted

/-- Whether a word starts with a dash and goes on. -/
def isDashed (word : String) : Bool :=
  match word.toList with
  | '-' :: _ :: _ => true
  | _ => false

/-- The part of an option's word after its dashes, taken apart at the first
equals sign; none if it is no option. -/
def optionOf? (word : String) : Option (String × Option String) :=
  match word.toList with
  | '-' :: '-' :: cs =>
    let name := String.ofList (cs.takeWhile (· ≠ '='))
    match cs.dropWhile (· ≠ '=') with
    | [] => some (name, none)
    | _ :: value => some (name, some (String.ofList value))
  | _ => none

/-- Whether a word can be the value of an option before it. -/
def isValue (arity : Arity) (word : String) : Bool :=
  !isDashed word || (arity = .signedValue && (Numeral.integer? word.toList).isSome)

/-- Sorts words out by what the options take; none if a word is out of place. -/
def sort? (arities : List (String × Arity)) (s : Sorted) : List String → Option Sorted
  | [] => some s
  | "--" :: rest => some { s with words := s.words ++ rest }
  | word :: rest =>
    if !isDashed word then sort? arities (s.addWord word) rest
    else
      match optionOf? word with
      | none => none
      | some (name, attached) =>
        match arities.lookup name, attached with
        | some .flag, none => takeOption? name none rest
        | some .flag, some _ => none
        | some _, some value => takeOption? name (some value) rest
        | some arity, none =>
          match rest with
          | value :: rest =>
            if isValue arity value then takeOption? name (some value) rest else none
          | [] => none
        | none, _ => none
where
  /-- Goes on behind an option. -/
  takeOption? (name : String) (value : Option String) (rest : List String) : Option Sorted :=
    match s.addOption? name value with
    | some s => sort? arities s rest
    | none => none

/-- The value of an option that may be missing; none if it is given and cannot
be read. -/
def optional? {α : Type} (read : String → Option α) : Option String → Option (Option α)
  | none => some none
  | some text => (read text).map some

/-- A path, which is not empty. -/
def path? (text : String) : Option String := if text.isEmpty then none else some text

/-- A number of 32 bits. -/
def word? (text : String) : Option UInt32 := (Numeral.below? UInt32.size text).map .ofNat

/-- A number of 64 bits. -/
def seed? (text : String) : Option UInt64 := (Numeral.below? UInt64.size text).map .ofNat

/-- The options of every command. -/
def globalArities : List (String × Arity) := [("log-level", .value)]

/-- The options of the command that shows a position. -/
def replayArities : List (String × Arity) :=
  globalArities ++ [("game", .value), ("position", .signedValue), ("json", .flag)]

/-- The options of the command that lists moves. -/
def movesArities : List (String × Arity) := globalArities ++ [("game", .value)]

/-- The options of the command that plays a match. -/
def playArities : List (String × Arity) :=
  globalArities ++ [("games", .value), ("seed", .value), ("sequential", .flag),
    ("output", .value), ("json", .flag)]

/-- The command that shows a position. -/
def replay? (s : Sorted) : Option Command :=
  match s.words with
  | [file] => do
    let file ← path? file
    let game ← optional? word? (s.value? "game")
    let position ← optional? (Numeral.signed? (UInt64.size / 2)) (s.value? "position")
    return .replay { file, game := game.getD 1, position, json := s.has "json" }
  | _ => none

/-- The command that lists moves. -/
def moves? (s : Sorted) : Option Command :=
  match s.words with
  | [file] => do
    let file ← path? file
    let game ← optional? word? (s.value? "game")
    return .moves file (game.getD 1)
  | _ => none

/-- The command that plays a match. -/
def play? (s : Sorted) : Option Command :=
  match s.words with
  | [] => do
    let games ← optional? (Numeral.below? UInt64.size) (s.value? "games")
    let seed ← optional? seed? (s.value? "seed")
    let output ← optional? path? (s.value? "output")
    return .play {
      gamesPerSide := games.getD MatchConfig.standard.gamesPerSide
      seed
      sequential := s.has "sequential"
      output
      json := s.has "json" }
  | _ => none

/-- What a command and the words after it ask for. A log filter that stands among
those words goes before one that stands before the command. -/
def command? (filter : Option String) (name : String) (rest : List String) : Option Request := do
  let (arities, read) ← match name with
    | "replay" => some (replayArities, replay?)
    | "moves" => some (movesArities, moves?)
    | "play" => some (playArities, play?)
    | _ => none
  let sorted ← sort? arities .empty rest
  let command ← read sorted
  return .run (sorted.value? "log-level" <|> filter) command

/-- Whether a word asks for the version: the option, or a dash and letters of
which the first is a capital V. -/
def isVersion (word : String) : Bool :=
  word = "--version" ||
    match word.toList with
    | '-' :: 'V' :: _ => true
    | _ => false

end Arguments

open Arguments in
/-- What the words on the command line ask for, after a log filter or none has
been given; none if they do not make sense. -/
def Request.parse? (filter : Option String) : List String → Option Request
  | [] => none
  | word :: rest =>
    if isVersion word then some .version
    else if !isDashed word then command? filter word rest
    else if filter.isSome then none
    else
      match optionOf? word, rest with
      | some ("log-level", some v), rest => Request.parse? (some v) rest
      | some ("log-level", none), v :: rest =>
        if isValue .value v then Request.parse? (some v) rest else none
      | _, _ => none

end UltimateTicTacToe
