/-
# Binary floating point

A floating-point number is a whole number of at most `precision` bits times a
power of two, with the exponent in a range that the format fixes. A quotient of
whole numbers is rounded to the nearest such number, and of two that are equally
near to the one with the even mantissa. All of it is done in whole numbers, so
every result is the exact one of the standard's arithmetic.

Key definitions: `roundDiv`, `Binary`, `FloatFormat.round`, `FloatFormat.bits`,
`FloatFormat.shortest`.
-/
namespace UltimateTicTacToe

/-- The whole number nearest to `num / den`; a half goes to the even
neighbour. -/
def roundDiv (num den : Nat) : Nat :=
  let down := num / den
  let rest := num % den
  if 2 * rest < den then down
  else if den < 2 * rest then down + 1
  else down + down % 2

/-- The number `mantissa * 2 ^ exponent`. -/
structure Binary where
  mantissa : Nat
  exponent : Int
  deriving DecidableEq, Repr, Inhabited

namespace Binary

/-- A quotient of whole numbers that is equal to the number: its numerator. -/
def num (x : Binary) : Nat := x.mantissa * Nat.pow 2 x.exponent.toNat

/-- A quotient of whole numbers that is equal to the number: its denominator. -/
def den (x : Binary) : Nat := Nat.pow 2 (-x.exponent).toNat

end Binary

/-- What a format allows: mantissas of at most `precision` bits, and exponents
from `least` to `greatest`. -/
structure FloatFormat where
  precision : Nat
  least : Int
  greatest : Int
  deriving DecidableEq, Repr

namespace FloatFormat

/-- The format of 64 bits. -/
def double : FloatFormat := ⟨53, -1074, 971⟩

/-- The format of 32 bits. -/
def single : FloatFormat := ⟨24, -149, 104⟩

/-- Zero, which has the least exponent. -/
def zero (f : FloatFormat) : Binary := ⟨0, f.least⟩

/-- The exponent at which the mantissa of `num / den` has all its bits, or the
least one. -/
def exponentFor (f : FloatFormat) (num den : Nat) : Int :=
  let guess : Int := (Nat.log2 num : Int) - Nat.log2 den - f.precision + 1
  let short :=
    num * Nat.pow 2 (-guess).toNat < Nat.pow 2 (f.precision - 1) * (den * Nat.pow 2 guess.toNat)
  max f.least (if short then guess - 1 else guess)

/-- The number of the format nearest to `num / den`, the even one of two; none
if it is too large for the format. -/
def round (f : FloatFormat) (num den : Nat) : Option Binary :=
  if num = 0 then some f.zero
  else
    let e := f.exponentFor num den
    let m := roundDiv (num * Nat.pow 2 (-e).toNat) (den * Nat.pow 2 e.toNat)
    let x : Binary := if m < Nat.pow 2 f.precision then ⟨m, e⟩ else ⟨m / 2, e + 1⟩
    if x.exponent ≤ f.greatest then some x else none

/-- The product of two numbers, rounded. -/
def mul (f : FloatFormat) (x y : Binary) : Option Binary :=
  f.round (x.num * y.num) (x.den * y.den)

/-- The quotient of two numbers, rounded. -/
def div (f : FloatFormat) (x y : Binary) : Option Binary :=
  f.round (x.num * y.den) (x.den * y.num)

/-- The bits of a number that is not negative, read as a whole number. -/
def bits (f : FloatFormat) (x : Binary) : Nat :=
  (x.exponent - f.least).toNat * Nat.pow 2 (f.precision - 1) + x.mantissa

/-! ### The fewest decimal digits -/

/-- The number `digits * 10 ^ exponent`. -/
structure Decimal where
  digits : Nat
  exponent : Int
  deriving DecidableEq, Repr

/-- A multiple of `10 ^ k` that rounds to `x`, the nearer one if there are two.

The reals that round to `x` lie between the halfway points to its neighbours,
these included if the mantissa is even; the lower neighbour of a power of two is
at half the distance. In quarters of the last place, `x` is `4 * mantissa`. -/
def onGrid (f : FloatFormat) (x : Binary) (k : Int) : Option Decimal :=
  let unit := Nat.pow 2 (x.exponent - 2).toNat * Nat.pow 10 (-k).toNat
  let step := Nat.pow 2 (2 - x.exponent).toNat * Nat.pow 10 k.toNat
  let value := 4 * x.mantissa * unit
  let narrow := x.mantissa = Nat.pow 2 (f.precision - 1) ∧ f.least < x.exponent
  let low := (4 * x.mantissa - if narrow then 1 else 2) * unit
  let high := (4 * x.mantissa + 2) * unit
  let inside (n : Nat) : Bool :=
    if x.mantissa % 2 = 0 then low ≤ n * step && n * step ≤ high
    else low < n * step && n * step < high
  let down := value / step
  let nearest := roundDiv value step
  if inside down && inside (down + 1) then some ⟨nearest, k⟩
  else if inside down then some ⟨down, k⟩
  else if inside (down + 1) then some ⟨down + 1, k⟩
  else none

/-- The first grid with a hit, on the way from `10 ^ k` to finer ones. -/
def firstGrid (f : FloatFormat) (x : Binary) : Nat → Int → Decimal
  | 0, k => ⟨roundDiv (x.num * Nat.pow 10 (-k).toNat) (x.den * Nat.pow 10 k.toNat), k⟩
  | tries + 1, k =>
    match f.onGrid x k with
    | some d => d
    | none => firstGrid f x tries (k - 1)

/-- The decimal with the fewest digits that rounds to `x`, and of those the
nearest to it. Twenty grids are enough for seventeen digits. -/
def shortest (f : FloatFormat) (x : Binary) : Decimal :=
  if x.mantissa = 0 then ⟨0, 0⟩
  else
    let bound : Int := Nat.log2 x.mantissa + 1 + x.exponent
    f.firstGrid x 20 (bound * 30103 / 100000 + 1)

end FloatFormat
end UltimateTicTacToe
