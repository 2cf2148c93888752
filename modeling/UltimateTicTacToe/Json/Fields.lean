/-
# Fields of a JSON value

A record of named fields is read from an object or from an array. In an object
the members may come in any order and members with other names are passed over,
but a field may not be named twice. In an array the values stand in the order of
the fields, and only fields at the end may be left out, where the record allows
it.

A value of one of several kinds is tagged with the name of its kind: the member
`tag` of an object, or the first item of an array, with the fields as the rest.

Key definitions: `Json.fields?`, `Json.tagged?`, `Json.readAll`.
-/
import UltimateTicTacToe.Json.Basic

namespace UltimateTicTacToe
namespace Json

/-! ### Single values -/

/-- A natural number of 64 bits. -/
def index? : Json → Option Nat
  | .number (.natural n) => if n < UInt64.size then some n else none
  | _ => none

/-- A natural number of 32 bits. -/
def word? : Json → Option UInt32
  | .number (.natural n) => if n < UInt32.size then some (.ofNat n) else none
  | _ => none

/-- A whole number of 64 bits with its sign. -/
def int? : Json → Option Int
  | .number (.natural n) => if n < UInt64.size / 2 then some n else none
  | .number (.negative n) => if n ≤ UInt64.size / 2 then some (-n) else none
  | _ => none

/-- A truth value. -/
def bool? : Json → Option Bool
  | .bool b => some b
  | _ => none

/-- A string. -/
def string? : Json → Option String
  | .string s => some s
  | _ => none

/-- A value or `null`. -/
def nullable? {α : Type} (read : Json → Option α) : Json → Option (Option α)
  | .null => some none
  | j => (read j).map some

/-- A field that may be missing or `null`. -/
def optional? {α : Type} (read : Json → Option α) : Option Json → Option (Option α)
  | none => some none
  | some j => nullable? read j

/-- Reads every item, up to the first that cannot be read. -/
def readAll {ε α : Type} (read : Json → Except ε α) : List Json → Except ε (List α)
  | [] => .ok []
  | j :: js =>
    match read j with
    | .error e => .error e
    | .ok a =>
      match readAll read js with
      | .error e => .error e
      | .ok as => .ok (a :: as)

/-- Reads every item. -/
def readAll? {α : Type} (read : Json → Option α) : List Json → Option (List α)
  | [] => some []
  | j :: js =>
    match read j, readAll? read js with
    | some a, some as => some (a :: as)
    | _, _ => none

/-! ### Records -/

/-- The values of the members with this name. -/
def named (name : String) (members : List (String × Json)) : List Json :=
  (members.filter fun m => m.1 = name).map (·.2)

/-- The values of the fields `names` among members; none if one is named
twice. -/
def pick? (members : List (String × Json)) : List String → Option (List (Option Json))
  | [] => some []
  | name :: names =>
    match named name members, pick? members names with
    | [], some values => some (none :: values)
    | [value], some values => some (some value :: values)
    | _, _ => none

/-- The values of the fields `names`, the first `required` of which may not be
left out of an array. Items of an array beyond the fields stand at the end. -/
def fields? (names : List String) (required : Nat) : Json → Option (List (Option Json))
  | .object members => pick? members names
  | .array items =>
    if required ≤ items.length then
      some (items.map some ++ List.replicate (names.length - items.length) none)
    else none
  | _ => none

/-- The tag of a value, and the value without it. -/
def tagged? (tag : String) : Json → Option (String × Json)
  | .object members =>
    match named tag members with
    | [.string kind] => some (kind, .object (members.filter fun m => m.1 ≠ tag))
    | _ => none
  | .array (.string kind :: items) => some (kind, .array items)
  | _ => none

end Json
end UltimateTicTacToe
