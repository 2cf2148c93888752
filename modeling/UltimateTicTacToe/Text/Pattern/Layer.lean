/-
# Layers of a search pattern

Groups and classes stand in each other, and a pattern must not be too high: a sign
has height 0, and a repetition, a group or a class is one higher than what it
repeats or holds. Signs in a row, alternatives and members of a class make a row
that is one higher than the highest of them, but a row of one is no higher than
that one. An operation between classes is one higher than the higher side. A
layer is a group or class of which the end has not been read.

Key definitions: `Pattern.rowHeight`, `Pattern.Group`, `Pattern.Class`.
-/
import UltimateTicTacToe.Text.Pattern.Sign

namespace UltimateTicTacToe
namespace Pattern

/-- The height of a row of parts that have these heights. -/
def rowHeight : List Nat → Nat
  | [] => 0
  | [h] => h
  | hs => hs.foldl max 0 + 1

/-- What stands in a group, or in an alternative of one. -/
inductive Item where
  /-- Flags, which find nothing and cannot be repeated. -/
  | flags
  | part (height : Nat)
  deriving DecidableEq, Repr

/-- The height of an item. -/
def Item.height : Item → Nat
  | .flags => 0
  | .part h => h

/-- A group, or the pattern itself, as far as it has been read. -/
structure Group where
  mode : Mode
  /-- The heights of the alternatives that have been read. -/
  alternatives : List Nat
  /-- What has been read of the next alternative, the latest first. -/
  items : List Item
  deriving DecidableEq, Repr

namespace Group

/-- A group of which nothing has been read. -/
def empty (m : Mode) : Group := ⟨m, [], []⟩

/-- One more part at the end. -/
def add (g : Group) (height : Nat) : Group := { g with items := .part height :: g.items }

/-- The end of an alternative, and the beginning of another. -/
def bar (g : Group) : Group :=
  { g with alternatives := rowHeight (g.items.map Item.height) :: g.alternatives, items := [] }

/-- The last part repeated, if there is one. -/
def repeatLast? (g : Group) : Option Group :=
  match g.items with
  | .part h :: items => some { g with items := .part (h + 1) :: items }
  | _ => none

/-- The height of what the group holds, if it ends here. -/
def height (g : Group) : Nat := rowHeight g.bar.alternatives

end Group

/-- Where the next member of a class stands. -/
inductive Place where
  /-- Directly after the bracket that opens the class. -/
  | opened
  /-- First in the class, after the sign that negates it. -/
  | leading
  /-- After the hyphens that the class begins with. -/
  | hyphens
  /-- Elsewhere. -/
  | inner
  deriving DecidableEq, Repr

/-- A class as far as it has been read. -/
structure Class where
  place : Place
  /-- The height of what stands before the last operation, if there is one. -/
  left : Option Nat
  /-- The heights of the members after it. -/
  members : List Nat
  deriving DecidableEq, Repr

namespace Class

/-- A class of which nothing has been read. -/
def empty : Class := ⟨.opened, none, []⟩

/-- One more member. -/
def add (k : Class) (place : Place) (height : Nat) : Class :=
  { k with place := place, members := height :: k.members }

/-- The height of what the class holds, if it ends here. -/
def height (k : Class) : Nat :=
  match k.left with
  | none => rowHeight k.members
  | some h => max h (rowHeight k.members) + 1

/-- An operation between what has been read and what follows. -/
def operate (k : Class) : Class := ⟨.inner, some k.height, []⟩

end Class
end Pattern
end UltimateTicTacToe
