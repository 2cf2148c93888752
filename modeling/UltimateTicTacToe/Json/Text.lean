/-
# Strings of a JSON text

Between its quotes a string stands for itself, but for the quote, the backslash
and the control characters, which are written as escapes. An escape by number is
a unit of sixteen bits; units of the surrogate range stand for a character in
pairs only. A string with an unpaired one is well formed and yet denotes no text.

Key definitions: `Text.escape`, `Text.unescape`, `Text.pair`, `Text.quote`.
-/
import UltimateTicTacToe.Number.Numeral

namespace UltimateTicTacToe
namespace Json
namespace Text

/-- What a character or an escape stands for. -/
inductive Piece where
  | char (c : Char)
  | surrogate (unit : Nat)
  deriving DecidableEq, Repr

/-- The unit that four hexadecimal digits stand for. -/
def unit? (a b c d : Char) : Option Nat := do
  return 4096 * (← Numeral.hexDigit? a) + 256 * (← Numeral.hexDigit? b) +
    16 * (← Numeral.hexDigit? c) + (← Numeral.hexDigit? d)

/-- A unit of the surrogate range, or the character with its number. -/
def Piece.ofUnit (u : Nat) : Piece :=
  if 0xd800 ≤ u ∧ u < 0xe000 then .surrogate u else .char (Char.ofNat u)

/-- What a letter after a backslash stands for. -/
def shortEscape? : Char → Option Char
  | '"' => some '"'
  | '\\' => some '\\'
  | '/' => some '/'
  | 'b' => some '\x08'
  | 'f' => some '\x0c'
  | 'n' => some '\n'
  | 'r' => some '\r'
  | 't' => some '\t'
  | _ => none

/-- Takes the escapes apart; none if one of them is none, or if a character that
has to be escaped is not. -/
def unescape : List Char → Option (List Piece)
  | [] => some []
  | '\\' :: 'u' :: a :: b :: c :: d :: cs => do
    let u ← unit? a b c d
    let ps ← unescape cs
    return .ofUnit u :: ps
  | '\\' :: e :: cs => do
    let c ← shortEscape? e
    let ps ← unescape cs
    return .char c :: ps
  | c :: cs =>
    if c.toNat < 0x20 ∨ c = '"' ∨ c = '\\' then none
    else (unescape cs).map (.char c :: ·)

/-- The characters that the pieces stand for. A surrogate needs its other half:
the upper one first, the lower one directly after it. -/
def pair : List Piece → Option (List Char)
  | [] => some []
  | .char c :: ps => (pair ps).map (c :: ·)
  | .surrogate u :: .surrogate v :: ps =>
    if u < 0xdc00 ∧ 0xdc00 ≤ v then
      (pair ps).map (Char.ofNat (0x10000 + 0x400 * (u - 0xd800) + (v - 0xdc00)) :: ·)
    else none
  | .surrogate _ :: _ => none

/-- The digit of a value below sixteen. -/
def hexDigit (n : Nat) : Char := if n < 10 then Char.ofNat (48 + n) else Char.ofNat (87 + n)

/-- How a character is written between quotes. -/
def escape (c : Char) : List Char :=
  if c = '"' then ['\\', '"']
  else if c = '\\' then ['\\', '\\']
  else if c = '\x08' then ['\\', 'b']
  else if c = '\x0c' then ['\\', 'f']
  else if c = '\n' then ['\\', 'n']
  else if c = '\r' then ['\\', 'r']
  else if c = '\t' then ['\\', 't']
  else if c.toNat < 0x20 then
    ['\\', 'u', '0', '0', hexDigit (c.toNat / 16), hexDigit (c.toNat % 16)]
  else [c]

/-- A text between quotes. -/
def quote (s : String) : List Char := '"' :: (s.toList.flatMap escape ++ ['"'])

end Text
end Json
end UltimateTicTacToe
