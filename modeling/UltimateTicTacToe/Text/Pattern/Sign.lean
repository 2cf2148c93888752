/-
# Signs of a search pattern

In a search pattern most characters stand for themselves; a backslash begins a
sign of more than one character. What the signs mean depends on the mode. A
pattern of characters cannot use what needs the letters of all scripts, which are
the kinds of characters and the other case of a letter, and a pattern of bytes
cannot use a byte that is only a part of a character.

Key definitions: `Pattern.Mode`, `Pattern.Sign`, `Pattern.Sign.ofEscape?`,
`Pattern.Mode.allows`.
-/
import UltimateTicTacToe.Number.Numeral
import UltimateTicTacToe.Text.CharSet

namespace UltimateTicTacToe
namespace Pattern

/-- How a pattern is read. -/
structure Mode where
  /-- Blanks between signs mean nothing, and a hash begins a comment. -/
  spaced : Bool
  /-- A letter stands for both of its cases. -/
  folded : Bool
  /-- The pattern is one of characters, and not of bytes. -/
  wide : Bool
  deriving DecidableEq, Repr

/-- What a pattern finds in one place. -/
inductive Sign where
  /-- A character; or a byte, by its number. -/
  | char (c : Char) (isByte : Bool)
  /-- A character of a kind, or of any other kind. -/
  | kind (isNegated : Bool)
  /-- An end of the text. -/
  | position
  /-- An end of a word, or no such end. -/
  | edge
  deriving DecidableEq, Repr

namespace Mode

/-- The mode that a pattern starts in. -/
def initial : Mode := ⟨false, false, true⟩

/-- A text without the blanks and comments before it; a comment ends with its
line. -/
def skipBlanks (isComment : Bool) : List Char → List Char
  | [] => []
  | c :: cs =>
    if isComment then skipBlanks (c ≠ '\n') cs
    else if c = '#' then skipBlanks true cs
    else if CharSet.blank.contains c then skipBlanks false cs
    else c :: cs

/-- What is left of a text from the next character that means something. -/
def skip (m : Mode) (cs : List Char) : List Char :=
  if m.spaced then skipBlanks false cs else cs

/-- The next character that means something, as far as a glance shows: it goes past
blanks and one hash, but not past a comment to its end. -/
def glance? (m : Mode) (cs : List Char) : Option Char :=
  if m.spaced then
    match cs.dropWhile CharSet.blank.contains with
    | '#' :: cs => (cs.dropWhile CharSet.blank.contains).head?
    | cs => cs.head?
  else cs.head?

/-- Whether letters would have to be folded by their case in all scripts. -/
def foldsWide (m : Mode) : Bool := m.folded && m.wide

/-- Whether a sign can be used. -/
def allows (m : Mode) : Sign → Bool
  | .char c isByte => !m.foldsWide && (m.wide || !isByte || c.toNat < 0x80)
  | .kind isNegated => !m.wide && !isNegated
  | .position => true
  | .edge => true

/-- Whether a sign can be used as a member of a class. -/
def allowsMember (m : Mode) : Sign → Bool
  | .char c _ => !m.foldsWide && (m.wide || c.toNat < 0x80)
  | .kind isNegated => !m.wide && !isNegated
  | .position => false
  | .edge => false

end Mode

namespace Sign

/-- Reads a number of so many hexadecimal digits, `n` being what has been read of
it. -/
def number? (m : Mode) : Nat → Nat → List Char → Option (Nat × List Char)
  | 0, n, cs => some (n, cs)
  | k + 1, n, cs =>
    match m.skip cs with
    | [] => none
    | c :: cs => (Numeral.hexDigit? c).bind fun d => number? m k (16 * n + d) cs

/-- Reads a character by its number in so many digits. -/
def numbered? (m : Mode) (isByte : Bool) (digits : Nat) (cs : List Char) :
    Option (Sign × List Char) :=
  (number? m digits 0 cs).bind fun (n, cs) =>
    if n < 0xd800 ∨ 0xdfff < n ∧ n < 0x110000 then some (.char (Char.ofNat n) isByte, cs)
    else none

/-- The control character that a letter names. -/
def control? : Char → Option Char
  | 'a' => some '\x07'
  | 't' => some '\t'
  | 'n' => some '\n'
  | 'v' => some '\x0b'
  | 'f' => some '\x0c'
  | 'r' => some '\r'
  | _ => none

/-- The sign that one character after a backslash makes. A mark stands for
itself there. -/
def ofMark? (c : Char) : Option Sign :=
  if c = 'd' ∨ c = 's' ∨ c = 'w' then some (.kind false)
  else if c = 'D' ∨ c = 'S' ∨ c = 'W' then some (.kind true)
  else if c = 'A' ∨ c = 'z' then some .position
  else if c = 'b' ∨ c = 'B' ∨ c = '<' ∨ c = '>' then some .edge
  else if c.toNat < 0x80 ∧ ¬ c.isAlphanum then some (.char c false)
  else (control? c).map fun c => .char c false

/-- Reads what follows a backslash. -/
def ofEscape? (m : Mode) : List Char → Option (Sign × List Char)
  | [] => none
  | c :: cs =>
    if c = 'x' then numbered? m true 2 cs
    else if c = 'u' then numbered? m false 4 cs
    else if c = 'U' then numbered? m false 8 cs
    else (ofMark? c).map fun sign => (sign, cs)

end Sign
end Pattern
end UltimateTicTacToe
