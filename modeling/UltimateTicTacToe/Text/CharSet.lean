/-
# Sets of characters

Characters are numbered, and a set of them is given by the numbers where
membership changes, in ascending order: the first number in, the first number
after that is out again, and so on. A character is in the set if an odd number of
changes lies at or before it.

Key definitions: `CharSet`, `CharSet.contains`, `CharSet.blank`.
-/
namespace UltimateTicTacToe

/-- A set of characters, by the numbers where membership changes. -/
structure CharSet where
  bounds : List Nat

namespace CharSet

/-- Whether a character is in the set. -/
def contains (s : CharSet) (c : Char) : Bool := s.bounds.countP (· ≤ c.toNat) % 2 = 1

/-- The characters that are seen as room between others: blanks, tabs and ends of
lines of any kind. -/
def blank : CharSet :=
  ⟨[
    0x9, 0xe, 0x20, 0x21, 0x85, 0x86, 0xa0, 0xa1, 0x1680, 0x1681, 0x2000, 0x200b, 0x2028,
    0x202a, 0x202f, 0x2030, 0x205f, 0x2060, 0x3000, 0x3001]⟩

/-- A text without the characters of a set at its ends. -/
def trim (s : CharSet) (cs : List Char) : List Char :=
  ((cs.dropWhile s.contains).reverse.dropWhile s.contains).reverse

end CharSet
end UltimateTicTacToe
