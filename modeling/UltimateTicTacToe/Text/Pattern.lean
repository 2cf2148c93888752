/-
# Search patterns

Which texts are search patterns that can be used: signs one after the other, each
of which may be repeated, with bars between alternatives, groups in parentheses
and classes of characters in brackets. Classes may hold ranges, other classes,
and differences or intersections of these. All this must not be too high. A
pattern that asks for the ends of words in any script is well made, and yet cannot
be used.

Key definitions: `Pattern.Fault`, `Pattern.Reading.step?`, `Pattern.fault?`.
-/
import UltimateTicTacToe.Text.Pattern.Opening
import UltimateTicTacToe.Text.Pattern.Layer

namespace UltimateTicTacToe
namespace Pattern

/-- Why a text is no pattern that can be used. -/
inductive Fault where
  | malformed
  /-- It asks for the ends of words in any script. -/
  | wideEdge
  deriving DecidableEq, Repr

/-- What the fault is, in words. -/
def Fault.message : Fault → String
  | .malformed => "error building NFA"
  | .wideEdge =>
    "unsupported regex feature for DFAs: cannot build DFAs for regexes with Unicode word " ++
      "boundaries; switch to ASCII word boundaries, or heuristically enable Unicode word " ++
      "boundaries or use a different regex engine"

/-- The greatest height of a pattern. -/
def maxHeight : Nat := 250

/-- What is known of a pattern from the part of it that has been read. -/
structure Reading where
  /-- The innermost group that is open. -/
  group : Group
  /-- The groups around it, the innermost first. -/
  outer : List Group
  /-- The classes that are open in it, the innermost first. -/
  classes : List Class
  /-- The names of groups. -/
  names : List (List Char)
  /-- Whether the ends of words in any script have been asked for. -/
  hasWideEdge : Bool
  deriving DecidableEq, Repr

namespace Reading

/-- The beginning of a pattern. -/
def initial : Reading := ⟨.empty .initial, [], [], [], false⟩

/-- The mode that holds here. -/
def mode (r : Reading) : Mode := r.group.mode

/-- Takes a sign outside classes. -/
def takeSign? (r : Reading) (sign : Sign) : Option Reading :=
  if r.mode.allows sign then
    some { r with
      group := r.group.add 0
      hasWideEdge := r.hasWideEdge || (sign = .edge && r.mode.wide) }
  else none

/-- Takes the opening of a group. Two groups do not have the same name. -/
def takeOpening? (r : Reading) : Opening → Option Reading
  | .group m => some { r with group := .empty m, outer := r.group :: r.outer }
  | .named name =>
    if r.names.contains name then none
    else some { r with
      group := .empty r.mode
      outer := r.group :: r.outer
      names := name :: r.names }
  | .flags m =>
    some { r with group := { r.group with mode := m, items := .flags :: r.group.items } }

/-- Takes the end of a group. -/
def takeClosing? (r : Reading) : Option Reading :=
  match r.outer with
  | [] => none
  | g :: outer => some { r with group := g.add (r.group.height + 1), outer := outer }

/-- Takes a character outside classes, and what belongs to it of those that
follow. A question mark after a sign of repetition belongs to that sign. -/
def stepText? (r : Reading) (c : Char) (cs : List Char) : Option (Reading × List Char) :=
  match c with
  | '(' => (Opening.read? r.mode cs).bind fun (o, cs) => (r.takeOpening? o).map (·, cs)
  | ')' => r.takeClosing?.map (·, cs)
  | '|' => some ({ r with group := r.group.bar }, cs)
  | '[' => some ({ r with classes := [.empty] }, cs)
  | '*' | '+' | '?' =>
    r.group.repeatLast?.map fun g =>
      ({ r with group := g }, if cs.head? = some '?' then cs.tail else cs)
  | '\x7b' => none
  | '.' => if r.mode.wide then some ({ r with group := r.group.add 0 }, cs) else none
  | '^' | '$' => (r.takeSign? .position).map (·, cs)
  | '\\' => (Sign.ofEscape? r.mode cs).bind fun (sign, cs) => (r.takeSign? sign).map (·, cs)
  | c => (r.takeSign? (.char c false)).map (·, cs)

/-- The names of the kinds of characters that are written with colons. -/
def kindNames : List String :=
  ["alnum", "alpha", "ascii", "blank", "cntrl", "digit", "graph", "lower", "print", "punct",
    "space", "upper", "word", "xdigit"]

/-- Reads a kind of characters, written with colons in brackets, of which the
first has been read; also says whether it is negated. -/
def kind? (cs : List Char) : Option (Bool × List Char) :=
  let rest? (cs : List Char) : Option (List Char) :=
    match cs.dropWhile (· ≠ ':') with
    | ':' :: ']' :: rest =>
      if kindNames.contains (String.ofList (cs.takeWhile (· ≠ ':'))) then some rest else none
    | _ => none
  match cs with
  | ':' :: '^' :: cs => (rest? cs).map (true, ·)
  | ':' :: cs => (rest? cs).map (false, ·)
  | _ => none

/-- Reads one end of a range, or a member that is no range. -/
def member? (r : Reading) (c : Char) (cs : List Char) : Option (Sign × List Char) :=
  (if c = '\\' then Sign.ofEscape? r.mode cs else some (.char c false, cs)).filter
    fun (sign, _) => r.mode.allowsMember sign

/-- Reads a member of a class: a range, whose ends are characters in ascending
order, or one sign. A hyphen before a bracket or another hyphen makes no range. -/
def range? (r : Reading) (c : Char) (cs : List Char) : Option (List Char) :=
  (r.member? c cs).bind fun (low, cs) =>
    match r.mode.skip cs with
    | '-' :: cs =>
      if r.mode.glance? cs = some ']' ∨ r.mode.glance? cs = some '-' then some ('-' :: cs)
      else
        match r.mode.skip cs with
        | [] => none
        | d :: cs =>
          (r.member? d cs).bind fun (high, cs) =>
            match low, high with
            | .char a _, .char b _ => if a ≤ b then some cs else none
            | _, _ => none
    | cs => some cs

/-- Takes the end of the class `k`, around which the classes `ks` are open. -/
def closeClass (r : Reading) (k : Class) : List Class → Reading
  | [] => { r with classes := [], group := r.group.add (k.height + 1) }
  | around :: ks => { r with classes := around.add .inner (k.height + 1) :: ks }

/-- Takes a bracket that opens a class within the class `k`, or a kind of
characters in brackets. -/
def openNested? (r : Reading) (k : Class) (ks : List Class) (cs : List Char) :
    Option (Reading × List Char) :=
  match kind? cs with
  | some (isNegated, cs) =>
    if !r.mode.foldsWide && (r.mode.wide || !isNegated) then
      some ({ r with classes := k.add .inner 0 :: ks }, cs)
    else none
  | none => some ({ r with classes := .empty :: k :: ks }, cs)

/-- Takes a character of the class `k`, and what belongs to it of those that
follow. A hyphen that the class begins with, or a closing bracket in place of its
first member, stands for itself. -/
def stepClass? (r : Reading) (k : Class) (ks : List Class) (c : Char) (cs : List Char) :
    Option (Reading × List Char) :=
  if k.place = .opened ∧ c = '^' then
    if r.mode.wide then some ({ r with classes := { k with place := .leading } :: ks }, cs)
    else none
  else if (k.place = .opened ∨ k.place = .leading) ∧ c = ']' then
    if r.mode.foldsWide then none else some ({ r with classes := k.add .inner 0 :: ks }, cs)
  else if k.place ≠ .inner ∧ c = '-' then
    if r.mode.foldsWide then none else some ({ r with classes := k.add .hyphens 0 :: ks }, cs)
  else if c = ']' then some (r.closeClass k ks, cs)
  else if c = '[' then r.openNested? k ks cs
  else if (c = '&' ∨ c = '-' ∨ c = '~') ∧ cs.head? = some c then
    some ({ r with classes := k.operate :: ks }, cs.tail)
  else (r.range? c cs).map ({ r with classes := k.add .inner 0 :: ks }, ·)

/-- Takes a character, and what belongs to it of those that follow. -/
def step? (r : Reading) (c : Char) (cs : List Char) : Option (Reading × List Char) :=
  match r.classes with
  | [] => r.stepText? c cs
  | k :: ks => r.stepClass? k ks c cs

/-- Whether the pattern may end here: no group or class is open, and it is not too
high. -/
def mayEnd (r : Reading) : Bool :=
  r.outer.isEmpty && r.classes.isEmpty && decide (r.group.height ≤ maxHeight)

/-- Reads a pattern to its end in at most `fuel` steps; each takes a character at
least. -/
def run? (r : Reading) : Nat → List Char → Option Reading
  | 0, _ => none
  | fuel + 1, cs =>
    match r.mode.skip cs with
    | [] => if r.mayEnd then some r else none
    | c :: cs =>
      match r.step? c cs with
      | some (r, cs) => r.run? fuel cs
      | none => none

end Reading

/-- Why a text is no pattern that can be used, if it is none. -/
def fault? (cs : List Char) : Option Fault :=
  match Reading.initial.run? (cs.length + 1) cs with
  | none => some .malformed
  | some r => if r.hasWideEdge then some .wideEdge else none

end Pattern
end UltimateTicTacToe
