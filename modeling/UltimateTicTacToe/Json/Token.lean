/-
# Tokens of a JSON text

A JSON text is a sequence of six punctuation marks, strings, and runs of the
characters that words and numbers are made of, with blanks between them. The
scanner goes through the text once, one character at a time. A run ends where a
character of another kind follows, and is judged as a whole.

Key definitions: `Token`, `Scanner.step`, `Token.ofText?`, `Token.text`.
-/
import UltimateTicTacToe.Json.Basic
import UltimateTicTacToe.Json.Text

namespace UltimateTicTacToe
namespace Json

/-- A token: a mark, a string, or a value of one word or number. A string that
denotes no text has none. -/
inductive Token where
  | openArray
  | closeArray
  | openObject
  | closeObject
  | colon
  | comma
  | string (text : Option String)
  | scalar (value : Json)

namespace Token

/-- The mark that a character is. -/
def mark? : Char → Option Token
  | '[' => some .openArray
  | ']' => some .closeArray
  | '\x7b' => some .openObject
  | '\x7d' => some .closeObject
  | ':' => some .colon
  | ',' => some .comma
  | _ => none

/-- Whether a character is a blank between tokens. -/
def isBlank (c : Char) : Bool := c = ' ' || c = '\n' || c = '\r' || c = '\t'

/-- Whether a character can be part of a number. -/
def isNumberChar (c : Char) : Bool := c.isDigit || c = '-' || c = '+' || c = '.'

/-- Whether a character can be part of a word or a number. -/
def isRunChar (c : Char) : Bool := isNumberChar c || c.isAlpha

/-- The value of a run: one of three words, or a number. -/
def ofRun? (cs : List Char) : Option Token :=
  if cs = ['n', 'u', 'l', 'l'] then some (.scalar .null)
  else if cs = ['t', 'r', 'u', 'e'] then some (.scalar (.bool true))
  else if cs = ['f', 'a', 'l', 's', 'e'] then some (.scalar (.bool false))
  else (Literal.ofChars? cs).map fun l =>
    .scalar (match l.number? with
      | some n => .number n
      | none => .unreadable)

/-- The string with these characters between its quotes. -/
def ofQuoted? (cs : List Char) : Option Token :=
  (Text.unescape cs).map fun pieces => .string ((Text.pair pieces).map String.ofList)

end Token

/-- What the scanner stands in, with the characters read of it, the latest
first. -/
inductive Scanner.Mode where
  | between
  | run (read : List Char)
  | quoted (read : List Char)
  /-- After a backslash. -/
  | escape (read : List Char)

/-- The state of the scanner: its tokens so far, the latest first. -/
structure Scanner where
  tokens : List Token
  mode : Scanner.Mode

namespace Scanner

/-- Takes a character that stands between tokens, or starts one. -/
def enter (tokens : List Token) (c : Char) : Option Scanner :=
  if Token.isBlank c then some ⟨tokens, .between⟩
  else if c = '"' then some ⟨tokens, .quoted []⟩
  else if Token.isRunChar c then some ⟨tokens, .run [c]⟩
  else (Token.mark? c).map fun t => ⟨t :: tokens, .between⟩

/-- Takes one character. -/
def step (s : Scanner) (c : Char) : Option Scanner :=
  match s.mode with
  | .between => enter s.tokens c
  | .run read =>
    if Token.isRunChar c then some { s with mode := .run (c :: read) }
    else (Token.ofRun? read.reverse).bind fun t => enter (t :: s.tokens) c
  | .quoted read =>
    if c = '"' then (Token.ofQuoted? read.reverse).map fun t => ⟨t :: s.tokens, .between⟩
    else if c = '\\' then some { s with mode := .escape (c :: read) }
    else some { s with mode := .quoted (c :: read) }
  | .escape read => some { s with mode := .quoted (c :: read) }

/-- Takes characters, up to the first that is refused. -/
def steps (s : Scanner) : List Char → Option Scanner
  | [] => some s
  | c :: cs =>
    match s.step c with
    | some t => t.steps cs
    | none => none

/-- The tokens, if the text may end here. -/
def finish (s : Scanner) : Option (List Token) :=
  match s.mode with
  | .between => some s.tokens.reverse
  | .run read => (Token.ofRun? read.reverse).map fun t => (t :: s.tokens).reverse
  | .quoted _ => none
  | .escape _ => none

end Scanner

/-- The tokens of a text; none if it is not made of tokens. -/
def Token.ofText? (cs : List Char) : Option (List Token) :=
  (Scanner.steps ⟨[], .between⟩ cs).bind Scanner.finish

end Json
end UltimateTicTacToe
