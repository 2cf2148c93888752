/-
# Openings of groups in a search pattern

A group is opened by a parenthesis. It may have a name in angle brackets, or flags
that change the mode: each flag is one letter, and those after a hyphen are
switched off. Flags that no colon follows belong to no group of their own, and
hold for the rest of the group that they stand in.

Key definitions: `Pattern.Opening`, `Pattern.Opening.read?`.
-/
import UltimateTicTacToe.Text.Letters
import UltimateTicTacToe.Text.Pattern.Sign

namespace UltimateTicTacToe
namespace Pattern

/-- What a parenthesis opens. -/
inductive Opening where
  | group (mode : Mode)
  | named (name : List Char)
  /-- No group, but another mode. -/
  | flags (mode : Mode)
  deriving DecidableEq, Repr

namespace Opening

/-- Switches a flag on or off. Some flags do not matter for reading. -/
def setFlag (m : Mode) (flag : Char) (value : Bool) : Mode :=
  if flag = 'x' then { m with spaced := value }
  else if flag = 'i' then { m with folded := value }
  else if flag = 'u' then { m with wide := value }
  else m

/-- Whether a character is a flag, or the hyphen. -/
def isFlag (c : Char) : Bool := ['i', 'm', 's', 'U', 'u', 'R', 'x', '-'].contains c

/-- Reads flags up to the mark that ends them, `seen` being those before, the
latest first. No flag stands there twice, and none is missing after the hyphen. -/
def flags? (m : Mode) (seen : List Char) : List Char → Option (Opening × List Char)
  | [] => none
  | c :: cs =>
    if c = ':' then if seen.head? = some '-' then none else some (.group m, cs)
    else if c = ')' then
      if seen = [] ∨ seen.head? = some '-' then none else some (.flags m, cs)
    else if isFlag c && !seen.contains c then
      flags? (setFlag m c (!seen.contains '-')) (c :: seen) cs
    else none

/-- Whether a text is a name: a letter or an underscore, and then also numerals,
dots and brackets. -/
def isName : List Char → Bool
  | [] => false
  | c :: cs =>
    (c = '_' || CharSet.alphabetic.contains c) &&
      cs.all fun c => ['_', '.', '[', ']'].contains c || CharSet.isAlphanumeric c

/-- Reads a name and the angle bracket after it. -/
def name? (cs : List Char) : Option (Opening × List Char) :=
  let name := cs.takeWhile (· ≠ '>')
  match cs.dropWhile (· ≠ '>') with
  | [] => none
  | _ :: rest => if isName name then some (.named name, rest) else none

/-- Reads what follows a parenthesis in mode `m`. -/
def read? (m : Mode) (cs : List Char) : Option (Opening × List Char) :=
  match m.skip cs with
  | '?' :: 'P' :: '<' :: cs => name? cs
  | '?' :: '<' :: cs => name? cs
  | '?' :: cs => flags? m [] cs
  | cs => some (.group m, cs)

end Opening
end Pattern
end UltimateTicTacToe
