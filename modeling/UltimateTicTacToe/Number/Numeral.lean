/-
# Decimal numerals

A numeral is a row of the digits `0` to `9`, with leading zeros or without. Where
a whole number is typed in, a plus sign may stand before it, and a minus sign
where the number may be negative. A number with a fraction or an exponent is only
recognised here, and not read.

Key definitions: `Numeral.digits?`, `Numeral.natural?`, `Numeral.integer?`,
`Numeral.isReal`.
-/
namespace UltimateTicTacToe
namespace Numeral

/-- The number that a row of at least one digit stands for. -/
def digits? (cs : List Char) : Option Nat :=
  if cs.isEmpty then none
  else if cs.all Char.isDigit then some (Nat.ofDigitChars 10 cs 0)
  else none

/-- A natural number, a plus sign allowed. -/
def natural? : List Char → Option Nat
  | '+' :: cs => digits? cs
  | cs => digits? cs

/-- A whole number, either sign allowed. -/
def integer? : List Char → Option Int
  | '-' :: cs => (digits? cs).map fun n => -(n : Int)
  | cs => (natural? cs).map Int.ofNat

/-- A natural number below `bound`. -/
def below? (bound : Nat) (text : String) : Option Nat :=
  (natural? text.toList).filter fun n => n < bound

/-- A whole number from `-bound` to below `bound`. -/
def signed? (bound : Nat) (text : String) : Option Int :=
  (integer? text.toList).filter fun n => -(bound : Int) ≤ n && n < bound

/-- The value of a hexadecimal digit. -/
def hexDigit? (c : Char) : Option Nat :=
  if c.isDigit then some (c.toNat - '0'.toNat)
  else if 'a' ≤ c ∧ c ≤ 'f' then some (c.toNat - 'a'.toNat + 10)
  else if 'A' ≤ c ∧ c ≤ 'F' then some (c.toNat - 'A'.toNat + 10)
  else none

/-- A text without the sign before it. -/
def unsigned : List Char → List Char
  | '+' :: cs => cs
  | '-' :: cs => cs
  | cs => cs

/-- Whether a text may follow the digits of a number: nothing, or an exponent. -/
def isExponent : List Char → Bool
  | [] => true
  | e :: cs => (e = 'e' || e = 'E') && (digits? (unsigned cs)).isSome

/-- Whether the first character is a digit. -/
def beginsInDigit : List Char → Bool
  | [] => false
  | c :: _ => c.isDigit

/-- Whether a text is digits, a point among them or not, and perhaps an
exponent. -/
def isFraction (cs : List Char) : Bool :=
  match cs.dropWhile Char.isDigit with
  | '.' :: part =>
    (beginsInDigit cs || beginsInDigit part) && isExponent (part.dropWhile Char.isDigit)
  | rest => beginsInDigit cs && isExponent rest

/-- Whether a text is a number or one of the words for what is infinite or no
number, with a sign or without. -/
def isReal (cs : List Char) : Bool :=
  let cs := unsigned cs
  ["inf", "infinity", "nan"].contains (String.ofList (cs.map Char.toLower)) || isFraction cs

end Numeral
end UltimateTicTacToe
