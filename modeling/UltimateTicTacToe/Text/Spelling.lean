/-
# Values spelled out in messages

A message that has to show a value spells it by its parts: a bare word, a name
with one part in parentheses, a name with named fields in braces, or a list in
brackets. `Spelling` is such a value before it is written.

Key definitions: `Spelling`, `Spelling.text`.
-/
namespace UltimateTicTacToe

/-- A value taken apart for a message. -/
inductive Spelling where
  | word (text : String)
  | wrap (name : String) (part : Spelling)
  | record (name : String) (fields : List (String × Spelling))
  | list (items : List Spelling)

namespace Spelling

mutual

/-- The written form: `Some(3)`, `[Red, Blue]`, or a name with its fields in
braces. -/
def text : Spelling → String
  | .word w => w
  | .wrap name part => name ++ "(" ++ part.text ++ ")"
  | .record name fields => name ++ " \x7b " ++ fieldsText fields ++ " \x7d"
  | .list items => "[" ++ itemsText items ++ "]"

/-- Fields one after the other, each with its name. -/
def fieldsText : List (String × Spelling) → String
  | [] => ""
  | [(name, value)] => name ++ ": " ++ value.text
  | (name, value) :: rest => name ++ ": " ++ value.text ++ ", " ++ fieldsText rest

/-- Items one after the other. -/
def itemsText : List Spelling → String
  | [] => ""
  | [item] => item.text
  | item :: rest => item.text ++ ", " ++ itemsText rest

end

/-- A number. -/
def number (n : Nat) : Spelling := .word (toString n)

/-- A value that may be missing. -/
def option {α : Type} (spell : α → Spelling) : Option α → Spelling
  | none => .word "None"
  | some a => .wrap "Some" (spell a)

end Spelling

end UltimateTicTacToe
