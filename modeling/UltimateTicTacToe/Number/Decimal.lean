/-
# Decimal texts of floating-point numbers

A number is written with the fewest digits that read back as the same number. It
has a point with a digit on either side of it, and leading or trailing zeros up
to a width that the format fixes; beyond that it is written with one digit before
the point and an exponent, which always has a sign. Where a text wants fixed
places, the exact value is rounded to them.

Key definitions: `FloatFormat.text`, `Binary.tenthsText`.
-/
import UltimateTicTacToe.Number.Binary

namespace UltimateTicTacToe
namespace FloatFormat

/-- The powers of ten, of the first digit, between which a number is written
without an exponent. -/
def plainRange (f : FloatFormat) : Int × Int :=
  if f.precision ≤ 24 then (-6, 12) else (-5, 15)

/-- The digits `ds`, the first of which stands for `10 ^ top`, with a point and
the zeros that this needs. -/
def plainText (ds : List Char) (top : Int) : List Char :=
  if top < 0 then "0.".toList ++ List.replicate (-top - 1).toNat '0' ++ ds
  else
    let whole := top.toNat + 1
    let filled := ds ++ List.replicate (whole - ds.length) '0'
    let part := filled.drop whole
    filled.take whole ++ '.' :: (if part.isEmpty then ['0'] else part)

/-- The digits `ds`, the first of which stands for `10 ^ top`, with an exponent:
a sign, then no more digits than it needs. -/
def scientificText (ds : List Char) (top : Int) : List Char :=
  let point := match ds with
    | [] => []
    | [d] => [d]
    | d :: part => d :: '.' :: part
  point ++ 'e' :: (if top < 0 then '-' else '+') :: Nat.toDigits 10 top.natAbs

/-- The text of a number that is not negative, in the fewest digits. -/
def text (f : FloatFormat) (x : Binary) : List Char :=
  let d := f.shortest x
  let ds := Nat.toDigits 10 d.digits
  let top := d.exponent + ds.length - 1
  let (low, high) := f.plainRange
  if low ≤ top ∧ top ≤ high then plainText ds top else scientificText ds top

end FloatFormat

/-- The text of a number with one decimal place: its exact value rounded, a half
going to the even digit. -/
def Binary.tenthsText (x : Binary) : String :=
  let tenths := roundDiv (x.num * 10) x.den
  toString (tenths / 10) ++ "." ++ toString (tenths % 10)

end UltimateTicTacToe
