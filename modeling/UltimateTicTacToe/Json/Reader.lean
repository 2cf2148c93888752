/-
# Reading JSON

The tree of a text is built from its tokens one after the other. Arrays and
objects that are not closed yet lie on a stack, so a text may nest them as deep
as it likes. What may come next depends on the last token alone: a value, the
name of a member, the colon after it, or, after a value, what separates or
closes.

Key definitions: `Reader`, `Reader.step`, `Json.ofTokens?`, `Json.parse?`.
-/
import UltimateTicTacToe.Json.Token

namespace UltimateTicTacToe
namespace Json

/-- An array or object that is not closed yet, with what it holds so far, the
latest first. -/
inductive Reader.Frame where
  | items (read : List Json)
  /-- `named` is false once the object has a name that denotes no text. -/
  | members (read : List (String × Json)) (named : Bool)
  /-- An object of which the member with this name is being read. -/
  | member (read : List (String × Json)) (named : Bool) (name : String)

/-- What the reader waits for, inside the arrays and objects on the stack, the
innermost first. -/
inductive Reader where
  /-- A value, or the end of the array that has just been opened. -/
  | firstItem (stack : List Reader.Frame)
  | value (stack : List Reader.Frame)
  /-- A name, or the end of the object that has just been opened. -/
  | firstName (stack : List Reader.Frame)
  | nextName (read : List (String × Json)) (named : Bool) (stack : List Reader.Frame)
  | colon (stack : List Reader.Frame)
  /-- What follows the value that has just been read. -/
  | after (value : Json) (stack : List Reader.Frame)

namespace Reader

/-- The object with these members, the latest first. -/
def close (read : List (String × Json)) (named : Bool) : Json :=
  if named then .object read.reverse else .unreadable

/-- Takes a token that starts a value. -/
def start (stack : List Frame) : Token → Option Reader
  | .scalar v => some (.after v stack)
  | .string (some s) => some (.after (.string s) stack)
  | .string none => some (.after .unreadable stack)
  | .openArray => some (.firstItem stack)
  | .openObject => some (.firstName stack)
  | _ => none

/-- Takes a token that names a member. -/
def startMember (read : List (String × Json)) (named : Bool) (stack : List Frame) :
    Token → Option Reader
  | .string (some name) => some (.colon (.member read named name :: stack))
  | .string none => some (.colon (.member read false "" :: stack))
  | _ => none

/-- Takes one token. -/
def step : Reader → Token → Option Reader
  | .firstItem stack, .closeArray => some (.after (.array []) stack)
  | .firstItem stack, t => start (.items [] :: stack) t
  | .value stack, t => start stack t
  | .firstName stack, .closeObject => some (.after (.object []) stack)
  | .firstName stack, t => startMember [] true stack t
  | .nextName read named stack, t => startMember read named stack t
  | .colon stack, .colon => some (.value stack)
  | .after v (.items read :: stack), .comma => some (.value (.items (v :: read) :: stack))
  | .after v (.items read :: stack), .closeArray =>
    some (.after (.array (v :: read).reverse) stack)
  | .after v (.member read named name :: stack), .comma =>
    some (.nextName ((name, v) :: read) named stack)
  | .after v (.member read named name :: stack), .closeObject =>
    some (.after (close ((name, v) :: read) named) stack)
  | _, _ => none

/-- Takes tokens, up to the first that is refused. -/
def steps (r : Reader) : List Token → Option Reader
  | [] => some r
  | t :: ts =>
    match r.step t with
    | some s => s.steps ts
    | none => none

/-- The tree, if it is complete. -/
def finish : Reader → Option Json
  | .after v [] => some v
  | _ => none

end Reader

/-- The tree that tokens denote. -/
def ofTokens? (ts : List Token) : Option Json :=
  ((Reader.value []).steps ts).bind Reader.finish

/-- The tree that a text denotes; none if the text is not well formed. -/
def parse? (text : String) : Option Json :=
  (Token.ofText? text.toList).bind ofTokens?

/-- The plain value that a text denotes. -/
def parsePlain? (text : String) : Option Json :=
  (parse? text).bind (plain? maxDepth)

end Json
end UltimateTicTacToe
