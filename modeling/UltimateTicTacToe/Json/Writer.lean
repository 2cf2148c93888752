/-
# Writing JSON

The compact text of a value is the texts of its tokens without a blank between
them. The indented text puts every item and every member on a line of its own,
two columns further in than what holds it, and leaves empty arrays and objects
together.

Key definitions: `Json.compact`, `Json.indented`.
-/
import UltimateTicTacToe.Json.Text
import UltimateTicTacToe.Json.Basic
import UltimateTicTacToe.Number.Decimal

namespace UltimateTicTacToe
namespace Json

/-- The text of a number. -/
def Number.text : Number → List Char
  | .natural n => Nat.toDigits 10 n
  | .negative n => '-' :: Nat.toDigits 10 n
  | .real format isNegative x => if isNegative then '-' :: format.text x else format.text x

/-- The text of a value that holds no other; a part that cannot be read has no
text of its own. -/
def scalarText : Json → List Char
  | .bool true => ['t', 'r', 'u', 'e']
  | .bool false => ['f', 'a', 'l', 's', 'e']
  | .number n => n.text
  | .string s => Text.quote s
  | _ => ['n', 'u', 'l', 'l']

mutual

/-- The compact text. -/
def chars : Json → List Char
  | .array items => '[' :: itemsChars items ++ [']']
  | .object members => '\x7b' :: membersChars members ++ ['\x7d']
  | j => scalarText j

/-- Items, with commas between them. -/
def itemsChars : List Json → List Char
  | [] => []
  | [item] => chars item
  | item :: items => chars item ++ ',' :: itemsChars items

/-- Members, with commas between them. -/
def membersChars : List (String × Json) → List Char
  | [] => []
  | [(name, value)] => Text.quote name ++ ':' :: chars value
  | (name, value) :: members =>
    Text.quote name ++ ':' :: chars value ++ ',' :: membersChars members

end

/-- The start of a line, `depth` steps in. -/
def newLine (depth : Nat) : List Char := '\n' :: List.replicate (2 * depth) ' '

mutual

/-- The indented text of a value that stands `depth` steps in. -/
def indentedChars (depth : Nat) : Json → List Char
  | .array [] => ['[', ']']
  | .array items => '[' :: itemLines (depth + 1) items ++ newLine depth ++ [']']
  | .object [] => ['\x7b', '\x7d']
  | .object members => '\x7b' :: memberLines (depth + 1) members ++ newLine depth ++ ['\x7d']
  | j => scalarText j

/-- Items, each on lines of its own. -/
def itemLines (depth : Nat) : List Json → List Char
  | [] => []
  | [item] => newLine depth ++ indentedChars depth item
  | item :: items => newLine depth ++ indentedChars depth item ++ ',' :: itemLines depth items

/-- Members, each on lines of its own. -/
def memberLines (depth : Nat) : List (String × Json) → List Char
  | [] => []
  | [(name, value)] => newLine depth ++ Text.quote name ++ ':' :: ' ' :: indentedChars depth value
  | (name, value) :: members =>
    newLine depth ++ Text.quote name ++ ':' :: ' ' :: indentedChars depth value ++
      ',' :: memberLines depth members

end

/-- The compact text of a value. -/
def compact (j : Json) : String := String.ofList j.chars

/-- The indented text of a value. -/
def indented (j : Json) : String := String.ofList (j.indentedChars 0)

end Json
end UltimateTicTacToe
