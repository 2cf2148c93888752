/-
# Log filters

A log filter is a list of directives with commas between them. A directive is a
level, or it names what is let through: a target, a span in brackets, in which
fields may stand in braces, or a target with a span. An equals sign and a level
may follow. Levels are named or numbered; a field may have a value, which is a
number or a search pattern. Nothing is logged here, but a filter that makes no
sense is refused, for the first directive that makes none.

A directive is scanned without the blanks at its ends, but what it holds in a
place is taken from the directive as it is written, by counting bytes from its
beginning. So a level is only understood where no blanks are at the ends.

Key definitions: `LogFilter.Fault`, `LogFilter.Stage.step`, `LogFilter.fault?`.
-/
import UltimateTicTacToe.Number.Numeral
import UltimateTicTacToe.Text.Letters
import UltimateTicTacToe.Text.Pattern

namespace UltimateTicTacToe
namespace LogFilter

/-- Why a text is no log filter. -/
inductive Fault where
  /-- A directive is not made as directives are. -/
  | directive
  /-- What stands in the place of a level is none. -/
  | level
  /-- The value of a field is no pattern that can be used. -/
  | field (reason : Pattern.Fault)
  deriving DecidableEq, Repr

/-- What the fault is, in words. -/
def Fault.message : Fault → String
  | .directive => "invalid filter directive"
  | .level =>
    "error parsing level filter: expected one of \"off\", \"error\", \"warn\", \"info\", " ++
      "\"debug\", \"trace\", or a number 0-5"
  | .field reason => "invalid field filter: " ++ reason.message

/-- Whether a text is a level, by its name in letters of either case or by its
number. -/
def isLevel (cs : List Char) : Bool :=
  let name := String.ofList (cs.map Char.toLower)
  ["trace", "debug", "info", "warn", "error", "off"].contains name ||
    match Numeral.natural? cs with
    | some n => n ≤ 5
    | none => false

/-- The parts of a text between those of its characters that are `mark`. -/
def split (mark : Char) : List Char → List (List Char)
  | [] => [[]]
  | c :: cs =>
    if c = mark then [] :: split mark cs
    else
      match split mark cs with
      | [] => [[c]]
      | part :: rest => (c :: part) :: rest

/-- What is wrong with a field. Its value is what follows the first equals sign,
up to the second. -/
def fieldFault? (cs : List Char) : Option Pattern.Fault :=
  match split '=' cs with
  | _ :: value :: _ => if Numeral.isReal value then none else Pattern.fault? value
  | _ => none

/-- The characters of a text from byte `first` on. -/
def dropBytes (first : Nat) : List Char → List Char
  | [] => []
  | c :: cs => if first = 0 then c :: cs else dropBytes (first - c.utf8Size) cs

/-- The characters that the first `count` bytes of a text belong to. -/
def takeBytes (count : Nat) : List Char → List Char
  | [] => []
  | c :: cs => if count = 0 then [] else c :: takeBytes (count - c.utf8Size) cs

/-- Whether a character can begin a target. -/
def beginsTarget (c : Char) : Bool :=
  CharSet.isAlphanumeric c || c = '-' || c = ':' || c = '_'

/-- How far a directive has been read. -/
inductive Stage where
  | start
  /-- In a target or level. -/
  | target
  /-- In the brackets of a span. -/
  | span
  /-- In the braces of a span, the fields of which begin at byte `first`. -/
  | field (first : Nat)
  /-- After the braces of a span. -/
  | fields
  /-- After the brackets of a span. -/
  | scope
  /-- After an equals sign, the level beginning at byte `first`. -/
  | level (first : Nat)
  deriving DecidableEq, Repr

namespace Stage

/-- Reads the character at byte `here` of the directive `text`. -/
def step (text : List Char) (here : Nat) (c : Char) : Stage → Except Fault Stage
  | .start =>
    if c = '[' then .ok .span else if beginsTarget c then .ok .target else .error .directive
  | .target =>
    .ok (if c = '=' then .level (here + 1) else if c = '[' then .span else .target)
  | .span =>
    .ok (if c = ']' then .scope else if c = '\x7b' then .field (here + 1) else .span)
  | .field first =>
    if c = '\x7d' then
      if first = here then .error .directive
      else
        match fieldFault? (takeBytes (here - first) (dropBytes first text)) with
        | some reason => .error (.field reason)
        | none => .ok .fields
    else .ok (.field first)
  | .fields => if c = ']' then .ok .scope else .error .directive
  | .scope => if c = '=' then .ok (.level (here + 1)) else .error .directive
  | .level first => .ok (.level first)

/-- What is wrong with a directive that ends here. -/
def finish (text : List Char) : Stage → Option Fault
  | .target => none
  | .scope => none
  | .level first =>
    let level := dropBytes first text
    if level.isEmpty || isLevel level then none else some .level
  | _ => some .directive

/-- Reads the rest of the directive `text` from byte `here`, and says what is wrong
with it. -/
def fault? (text : List Char) (stage : Stage) (here : Nat) : List Char → Option Fault
  | [] => stage.finish text
  | c :: cs =>
    match stage.step text here c with
    | .ok stage => stage.fault? text (here + c.utf8Size) cs
    | .error fault => some fault

end Stage

/-- What is wrong with a directive. -/
def directiveFault? (text : List Char) : Option Fault :=
  Stage.start.fault? text 0 (CharSet.blank.trim text)

/-- What is wrong with a log filter. Nothing between two commas is no
directive. -/
def fault? (text : String) : Option Fault :=
  ((split ',' text.toList).filter fun part => !part.isEmpty).findSome? directiveFault?

end LogFilter
end UltimateTicTacToe
