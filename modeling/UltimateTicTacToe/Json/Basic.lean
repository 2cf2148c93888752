/-
# JSON values

A JSON text denotes a tree. The tree keeps the members of an object in the order
of the text, with repeated names, since it depends on the reader what a repeated
name means. A text may hold a part that is well formed and that no reader can
use: a string with half a character, a number that is too large, an object with
such a name. That part of the tree is `unreadable`; it does no harm where a
reader passes over it.

A reader that wants a plain value of its own, independent of order, takes
`Json.plain?`: nothing unreadable, at most 127 arrays and objects inside each
other, of members with one name only the last, and the names in order.

Key definitions: `Json`, `Json.isPlain`, `Json.ordered`, `Json.plain?`.
-/
import UltimateTicTacToe.Json.Literal

namespace UltimateTicTacToe

/-- The tree that a JSON text denotes. -/
inductive Json where
  | null
  | bool (value : Bool)
  | number (value : Json.Number)
  | string (value : String)
  | array (items : List Json)
  | object (members : List (String × Json))
  | unreadable
  deriving Repr, Inhabited

namespace Json

/-- A natural number. -/
def nat (n : Nat) : Json := .number (.natural n)

/-- A whole number. -/
def int (n : Int) : Json := if n < 0 then .number (.negative n.natAbs) else .nat n.toNat

/-- A value that may be missing, `null` if it is. -/
def option {α : Type} (encode : α → Json) : Option α → Json
  | none => .null
  | some a => encode a

/-- A list of values of one kind. -/
def list {α : Type} (encode : α → Json) (items : List α) : Json := .array (items.map encode)

/-- How deep arrays and objects may lie inside each other. -/
def maxDepth : Nat := 127

mutual

/-- Whether every part can be read, and at most `depth` arrays and objects lie
inside each other. -/
def isPlain : Nat → Json → Bool
  | _, .unreadable => false
  | 0, .array _ => false
  | 0, .object _ => false
  | depth + 1, .array items => arePlain depth items
  | depth + 1, .object members => membersArePlain depth members
  | _, _ => true

/-- `isPlain` of every item. -/
def arePlain : Nat → List Json → Bool
  | _, [] => true
  | depth, item :: items => isPlain depth item && arePlain depth items

/-- `isPlain` of every member. -/
def membersArePlain : Nat → List (String × Json) → Bool
  | _, [] => true
  | depth, (_, value) :: members => isPlain depth value && membersArePlain depth members

end

/-- Puts a member among members in ascending order of their names, in place of
one with the same name. -/
def putMember (name : String) (value : Json) : List (String × Json) → List (String × Json)
  | [] => [(name, value)]
  | (other, old) :: members =>
    if name = other then (name, value) :: members
    else if name < other then (name, value) :: (other, old) :: members
    else (other, old) :: putMember name value members

mutual

/-- The tree with the names of every object in ascending order, and of members
with one name only the last. -/
def ordered : Json → Json
  | .array items => .array (itemsOrdered items)
  | .object members => .object (membersOrdered [] members)
  | j => j

/-- `ordered` of every item. -/
def itemsOrdered : List Json → List Json
  | [] => []
  | item :: items => ordered item :: itemsOrdered items

/-- `members`, each `ordered`, put one after the other among those in order. -/
def membersOrdered (done : List (String × Json)) :
    List (String × Json) → List (String × Json)
  | [] => done
  | (name, value) :: members => membersOrdered (putMember name (ordered value) done) members

end

/-- The plain value of a tree, with room for `depth` arrays and objects inside
each other. -/
def plain? (depth : Nat) (j : Json) : Option Json :=
  if j.isPlain depth then some j.ordered else none

end Json
end UltimateTicTacToe
