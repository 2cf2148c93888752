/-
# Numbers of a JSON text

A number is a whole number if it is written without a point and an exponent and
fits 64 bits: from `-2 ^ 63` to `2 ^ 64 - 1`, minus zero left out. Every other
number is binary floating point. Its digits are taken into a whole number as long
as that stays below `2 ^ 64`; those before the point that are left over only
scale it, and those after the point are dropped. The whole number is then rounded
and multiplied or divided by a power of ten, which rounds again. A number that is
too large for the format is none at all.

Key definitions: `Number`, `Literal`, `Literal.ofChars?`, `Literal.number?`.
-/
import UltimateTicTacToe.Number.Binary
import UltimateTicTacToe.Number.Numeral

namespace UltimateTicTacToe
namespace Json

/-- A number of a JSON text. -/
inductive Number where
  /-- The number `n`. -/
  | natural (n : Nat)
  /-- The number `-n`, where `n` is not zero. -/
  | negative (n : Nat)
  /-- A floating-point number with its sign. -/
  | real (format : FloatFormat) (isNegative : Bool) (magnitude : Binary)
  deriving DecidableEq, Repr

/-- A number as it is written. -/
structure Literal where
  isNegative : Bool
  /-- The digits before the point. -/
  whole : List Char
  /-- The digits after the point, if there is one. -/
  fraction : Option (List Char)
  /-- The exponent, if there is one. -/
  exponent : Option Int
  deriving Repr

namespace Literal

/-- The digits after a point, and what follows them; there has to be a digit. -/
def readFraction : List Char → Option (Option (List Char) × List Char)
  | '.' :: cs =>
    let ds := cs.takeWhile Char.isDigit
    if ds.isEmpty then none else some (some ds, cs.dropWhile Char.isDigit)
  | cs => some (none, cs)

/-- The exponent that ends a number, if there is one. -/
def readExponent : List Char → Option (Option Int)
  | [] => some none
  | c :: cs => if c = 'e' ∨ c = 'E' then (Numeral.integer? cs).map some else none

/-- Reads a whole text as a number. Zero is the only number before the point
that starts with a zero. -/
def ofChars? (cs : List Char) : Option Literal := do
  let (isNegative, cs) := match cs with
    | '-' :: cs => (true, cs)
    | cs => (false, cs)
  let whole := cs.takeWhile Char.isDigit
  if whole.isEmpty then none
  else if whole.head? = some '0' ∧ whole ≠ ['0'] then none
  else do
    let (fraction, cs) ← readFraction (cs.dropWhile Char.isDigit)
    let exponent ← readExponent cs
    return { isNegative, whole, fraction, exponent }

/-- Takes digits into the number `m` as long as it stays below `2 ^ 64`. The
second part is the digits that are left over. -/
def absorb : Nat → List Char → Nat × List Char
  | m, [] => (m, [])
  | m, c :: cs =>
    let next := 10 * m + (c.toNat - '0'.toNat)
    if next < UInt64.size then absorb next cs else (m, c :: cs)

/-- The whole number `m` in floating point. -/
def rounded (m : Nat) : Binary := (FloatFormat.double.round m 1).getD FloatFormat.double.zero

/-- The number `m * 10 ^ e`: one product or one quotient where the power of ten
is in range. A smaller number is divided by `10 ^ 308` first, and below that
there is only zero. -/
def scaled (m : Nat) (e : Int) : Option Binary :=
  let f := FloatFormat.double
  let x := rounded m
  if 308 < e then if m = 0 then some f.zero else none
  else if 0 ≤ e then f.mul x (rounded (Nat.pow 10 e.toNat))
  else if -308 ≤ e then f.div x (rounded (Nat.pow 10 (-e).toNat))
  else if -616 ≤ e then do
    let y ← f.div x (rounded (Nat.pow 10 308))
    f.div y (rounded (Nat.pow 10 (-e - 308).toNat))
  else some f.zero

/-- The number that a literal stands for; none if it is too large. -/
def number? (l : Literal) : Option Number :=
  let (m, skipped) := absorb 0 l.whole
  if l.fraction.isNone && l.exponent.isNone && skipped.isEmpty then
    if !l.isNegative then some (.natural m)
    else if 0 < m ∧ m ≤ UInt64.size / 2 then some (.negative m)
    else some (.real .double true (rounded m))
  else
    let fraction := l.fraction.getD []
    let (m, dropped) := absorb m fraction
    let places : Int := fraction.length - dropped.length
    (scaled m (skipped.length - places + l.exponent.getD 0)).map
      (.real .double l.isNegative)

end Literal

end Json
end UltimateTicTacToe
