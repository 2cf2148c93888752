/-
# Match reports

What is said about a match after it has been played, as lines of text or as one
JSON value. Shares and averages have one decimal place in the text, and all their
digits in the value.

Key definitions: `MatchResult.reportText`, `MatchResult.reportJson`.
-/
import UltimateTicTacToe.Match.Basic

namespace UltimateTicTacToe
namespace MatchResult

/-- A floating-point number that is not negative. -/
def real (format : FloatFormat) (x : Binary) : Json := .number (.real format false x)

/-- One game in the report. -/
def gameJson (g : PlayedGame) : Json :=
  .object [("game", .nat (g.index + 1)), ("a_is_red", .bool g.aIsRed),
    ("winner", .option Outcome.toJson g.winner), ("moves", .nat g.moves)]

/-- The report as a value. -/
def reportJson (r : MatchResult) : Json :=
  let s := r.score
  .object [
    ("total_games", .nat r.played),
    ("a_wins", .nat s.aWins.toNat),
    ("b_wins", .nat s.bWins.toNat),
    ("draws", .nat s.draws.toNat),
    ("percentages", .object [
      ("a_wins", real .double (s.share s.aWins)),
      ("b_wins", real .double (s.share s.bWins)),
      ("draws", real .double (s.share s.draws))]),
    ("avg_moves", real .single r.averageMoves),
    ("games", .list gameJson r.games)]

/-- A line on the games with one kind of result. -/
def countLine (s : Score) (heading : String) (count : UInt32) : String :=
  heading ++ toString count.toNat ++ " (" ++ (s.share count).tenthsText ++ "%)\n"

/-- A line on one game. -/
def gameLine (g : PlayedGame) : String :=
  "  Game " ++ toString (g.index + 1) ++ ": " ++ (if g.aIsRed then "A" else "B") ++ " first, " ++
    (match g.winner with | some o => o.label | none => "unfinished") ++
    " in " ++ toString g.moves ++ " moves\n"

/-- The report as text. -/
def reportText (r : MatchResult) : String :=
  let s := r.score
  "\n=== Match Results ===\n" ++
    "Total games: " ++ toString r.played ++ "\n" ++
    countLine s "A wins:      " s.aWins ++
    countLine s "Draws:       " s.draws ++
    countLine s "B wins:      " s.bWins ++
    "Avg moves:   " ++ r.averageMoves.tenthsText ++ "\n" ++
    "\nGame details:\n" ++ String.join (r.games.map gameLine)

end MatchResult
end UltimateTicTacToe
