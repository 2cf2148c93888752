/-
# The score of a match and the verdicts on its games

Who has got a game is found in two ways: the score is tallied from the outcome of the game
and the colour of A, and a game by itself says whether A has won, or B, or nobody. The two
agree on every game (`Score.tally_game`), so the score is the number of games for each
verdict. Every game has exactly one of the three (`PlayedGame.one_verdict`), and so no game
is counted twice and none is left out.

What is counted does not depend on the order of the games, and neither does the score.

Key definitions: `Score.Counts`.
Key theorems: `MatchResult.countP_verdicts`, `MatchResult.counts_ofGames`,
`MatchResult.score_perm`, `MatchResult.score_counts`.
-/
import UltimateTicTacToe.Proofs.Match.Result

namespace UltimateTicTacToe

/-- The score counts these games: those that A has won, those that B has won, those that
nobody has, and all of them. -/
structure Score.Counts (s : Score) (games : List PlayedGame) : Prop where
  aWins : s.aWins.toNat = games.countP (·.aWins)
  bWins : s.bWins.toNat = games.countP (·.bWins)
  draws : s.draws.toNat = games.countP (·.isDraw)
  total : s.total.toNat = games.length

/-- A game is won by A, or by B, or it is a draw, and never two of these. -/
theorem PlayedGame.one_verdict (g : PlayedGame) :
    g.aWins.toNat + g.bWins.toNat + g.isDraw.toNat = 1 := by
  unfold aWins bWins isDraw
  cases g.winningPlayer with
  | none => rfl
  | some m => cases g.colourOfA <;> cases m <;> rfl

namespace MatchResult

/-- Every game counts once. -/
theorem countP_verdicts (games : List PlayedGame) :
    games.countP (·.aWins) + games.countP (·.bWins) + games.countP (·.isDraw) =
      games.length := by
  induction games with
  | nil => rfl
  | cons g games ih =>
    have hone := g.one_verdict
    rw [List.countP_cons, List.countP_cons, List.countP_cons, List.length_cons]
    simp only [Bool.toNat, Bool.cond_eq_ite] at hone
    omega

theorem counts_ofGames {games : List PlayedGame} (h : games.length < UInt32.size) :
    (ofGames games).score.Counts games := by
  obtain ⟨haWins, hbWins, hdraws⟩ := score_ofGames h
  have hall := countP_verdicts games
  have hsize : games.length < 2 ^ 32 := h
  refine ⟨haWins, hbWins, hdraws, ?_⟩
  rw [Score.total, UInt32.toNat_add, UInt32.toNat_add, haWins, hbWins, hdraws]
  -- neither sum wraps, since there are fewer games than words
  omega

/-- The order of the games does not matter, however many there are. -/
theorem score_perm {games games' : List PlayedGame} (h : games'.Perm games) :
    (ofGames games').score = (ofGames games).score := by
  calc (ofGames games').score
      = ⟨0 + .ofNat (games'.countP (·.aWins)), 0 + .ofNat (games'.countP (·.bWins)),
          0 + .ofNat (games'.countP (·.isDraw))⟩ := foldl_tally games' .zero
    _ = ⟨0 + .ofNat (games.countP (·.aWins)), 0 + .ofNat (games.countP (·.bWins)),
          0 + .ofNat (games.countP (·.isDraw))⟩ := by
        rw [h.countP_eq, h.countP_eq, h.countP_eq]
    _ = (ofGames games).score := (foldl_tally games .zero).symm

/-- **The score agrees with the verdicts on the games**, as long as there are fewer games
than words: it has as many games for A, for B and for nobody as there are with that
verdict, and all of them together. It is the same in whatever order the games come. -/
theorem score_counts {games : List PlayedGame} (h : games.length < UInt32.size) :
    (ofGames games).score.Counts games ∧
      ∀ games', games'.Perm games → (ofGames games').score = (ofGames games).score :=
  ⟨counts_ofGames h, fun _ => score_perm⟩

/-- A game for each way to win with either colour, one that nobody has won and one that
has stopped early. -/
def everyVerdict : List PlayedGame := [
  ⟨0, [], some .red, true⟩, ⟨1, [], some .red, false⟩, ⟨2, [], some .blue, true⟩,
  ⟨3, [], some .blue, false⟩, ⟨4, [], some .stalemate, true⟩, ⟨5, [], none, false⟩,
  ⟨6, [], some .blue, false⟩]

theorem everyVerdict_score_counts : everyVerdict.length < UInt32.size ∧
    (ofGames everyVerdict).score.Counts everyVerdict ∧
    everyVerdict.countP (·.aWins) = 3 ∧ everyVerdict.countP (·.bWins) = 2 ∧
    everyVerdict.countP (·.isDraw) = 2 ∧
    (ofGames everyVerdict.reverse).score = (ofGames everyVerdict).score := by
  have hlength : everyVerdict.length < UInt32.size := by decide
  obtain ⟨hcounts, horder⟩ := score_counts hlength
  exact ⟨hlength, hcounts, by decide, by decide, by decide, horder _ (List.reverse_perm _)⟩

end MatchResult
end UltimateTicTacToe
