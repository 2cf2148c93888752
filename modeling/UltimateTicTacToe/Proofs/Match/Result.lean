/-
# What a match comes to

The games of a match have nothing in common but the base of their seeds, and none of them
can fail (`PlayedGame.exists_random`). So every plan has its game (`GamePlan.game`), and a
match is the games of its plans, in their order, whether they are played one after the
other or at the same time (`MatchConfig.play_eq`).

The score is kept in words of 32 bits that are counted up game by game. As long as there
are fewer games than words, it says how many games have gone to A, to B and to nobody
(`MatchResult.score_ofGames`).

Key definitions: `GamePlan.game`, `MatchConfig.result`.
Key theorems: `GamePlan.play_eq`, `MatchConfig.play_eq`, `MatchConfig.getElem?_games`,
`MatchResult.score_ofGames`.
-/
import UltimateTicTacToe.Match.Basic
import UltimateTicTacToe.Proofs.Match.Game

namespace UltimateTicTacToe

/-! ### Games -/

namespace GamePlan

/-- The game of a plan. Its play never fails, so what stands in for a failed game is
never needed. -/
def game (p : GamePlan) : PlayedGame := p.play.toOption.getD ⟨p.index, [], none, p.aIsRed⟩

/-- The game of a plan is a completed one. -/
theorem exists_game (p : GamePlan) : ∃ t : Timeline, t.Ruled ∧ t.Completed ∧
    p.play = .ok p.game ∧ p.game = ⟨p.index, t.events, t.view.winner, p.aIsRed⟩ := by
  obtain ⟨t, hruled, hcompleted, hplay⟩ := PlayedGame.exists_random p.index p.aIsRed p.seed
  have hplay : p.play = .ok ⟨p.index, t.events, t.view.winner, p.aIsRed⟩ := hplay
  have hgame : p.game = ⟨p.index, t.events, t.view.winner, p.aIsRed⟩ := by
    rw [game, hplay]
    rfl
  exact ⟨t, hruled, hcompleted, by rw [hplay, hgame], hgame⟩

/-- **No game of a match fails.** -/
theorem play_eq (p : GamePlan) : p.play = .ok p.game := by
  obtain ⟨t, -, -, hplay, -⟩ := p.exists_game
  exact hplay

theorem index_game (p : GamePlan) : p.game.index = p.index := by
  obtain ⟨t, -, -, -, hgame⟩ := p.exists_game
  rw [hgame]

theorem aIsRed_game (p : GamePlan) : p.game.aIsRed = p.aIsRed := by
  obtain ⟨t, -, -, -, hgame⟩ := p.exists_game
  rw [hgame]

end GamePlan

theorem playInTurn_eq (ps : List GamePlan) : playInTurn ps = .ok (ps.map GamePlan.game) := by
  induction ps with
  | nil => rfl
  | cons p ps ih => simp only [playInTurn, p.play_eq, ih, List.map_cons]

/-- Waiting for games is playing them. -/
theorem playTogether_eq_playInTurn (ps : List GamePlan) : playTogether ps = playInTurn ps := by
  unfold playTogether
  induction ps with
  | nil => rfl
  | cons p ps ih =>
    rw [List.map_cons, awaitAll, playInTurn, ih]
    rfl

/-- Every other number is even. -/
theorem countP_even_range (n : Nat) : (List.range (2 * n)).countP (· % 2 = 0) = n := by
  induction n with
  | zero => rfl
  | succ n ih =>
    rw [Nat.mul_succ, List.range_succ, List.range_succ, List.countP_append, List.countP_append,
      ih, List.countP_singleton, List.countP_singleton]
    have heven : 2 * n % 2 = 0 := by omega
    have hodd : (2 * n + 1) % 2 ≠ 0 := by omega
    simp only [heven, hodd, decide_true, decide_false, if_true, Bool.false_eq_true, if_false]

namespace MatchConfig

/-- What a match comes to. -/
def result (c : MatchConfig) : MatchResult := .ofGames (c.plans.map GamePlan.game)

/-- **A match is the games of its plans.** -/
theorem play_eq (c : MatchConfig) : c.play = .ok c.result := by
  unfold play
  simp only [playTogether_eq_playInTurn, ite_self, playInTurn_eq]
  rfl

theorem games_result (c : MatchConfig) : c.result.games = c.plans.map GamePlan.game := rfl

/-- Game by game, in the order of their numbers. -/
theorem games_eq (c : MatchConfig) :
    c.result.games = (List.range (2 * c.gamesPerSide)).map fun i => (c.plan i).game := by
  rw [games_result, plans, List.map_map, totalGames, Nat.mul_comm]
  rfl

theorem length_games (c : MatchConfig) : c.result.games.length = 2 * c.gamesPerSide := by
  rw [games_eq, List.length_map, List.length_range]

/-- The game with number `i` stands in place `i`. -/
theorem getElem?_games (c : MatchConfig) {i : Nat} (h : i < 2 * c.gamesPerSide) :
    c.result.games[i]? = some (c.plan i).game := by
  rw [games_eq, List.getElem?_map, List.getElem?_range h]
  rfl

theorem map_index_games (c : MatchConfig) :
    c.result.games.map PlayedGame.index = List.range (2 * c.gamesPerSide) := by
  rw [games_eq, List.map_map]
  exact (List.map_congr_left fun i _ => (c.plan i).index_game).trans (List.map_id _)

/-- No two games of a match are the same. -/
theorem nodup_games (c : MatchConfig) : c.result.games.Nodup :=
  List.Nodup.of_map PlayedGame.index (c.map_index_games ▸ List.nodup_range)

/-- The seeds of game `i` are found by adding in words of 64 bits. -/
theorem seed_plan (c : MatchConfig) (i : Nat) :
    (c.plan i).seed = .ofNat (c.baseSeed.toNat + 2 * i) := by
  rw [UInt64.ofNat_add, UInt64.ofNat_toNat]
  rfl

/-- A plays Red in half of the games. -/
theorem countP_aIsRed (c : MatchConfig) : c.result.games.countP (·.aIsRed) = c.gamesPerSide := by
  calc c.result.games.countP (·.aIsRed)
      = (List.range (2 * c.gamesPerSide)).countP fun i => (c.plan i).game.aIsRed := by
        rw [games_eq, List.countP_map]
        rfl
    _ = (List.range (2 * c.gamesPerSide)).countP (· % 2 = 0) :=
        List.countP_congr fun i _ => by rw [(c.plan i).aIsRed_game]; rfl
    _ = c.gamesPerSide := countP_even_range _

/-- And Blue in the other half. -/
theorem countP_not_aIsRed (c : MatchConfig) :
    c.result.games.countP (!·.aIsRed) = c.gamesPerSide := by
  have hall : c.result.games.length = c.result.games.countP (·.aIsRed) +
      c.result.games.countP (!·.aIsRed) := by
    have h := List.length_eq_countP_add_countP (fun g : PlayedGame => g.aIsRed)
      (l := c.result.games)
    simpa using h
  have hred := c.countP_aIsRed
  have hlength := c.length_games
  omega

end MatchConfig

/-! ### The score -/

/-- A game counts for A, for B, or as a draw, as its outcome says. -/
theorem Score.tally_game (s : Score) (g : PlayedGame) : s.tally g.winner g.aIsRed =
    ⟨s.aWins + if g.aWins = true then 1 else 0, s.bWins + if g.bWins = true then 1 else 0,
      s.draws + if g.isDraw = true then 1 else 0⟩ := by
  obtain ⟨index, events, winner, aIsRed⟩ := g
  cases winner with
  | none => cases aIsRed <;> simp [tally, PlayedGame.aWins, PlayedGame.bWins, PlayedGame.isDraw,
      PlayedGame.winningPlayer]
  | some o =>
    cases o <;> cases aIsRed <;> simp [tally, PlayedGame.aWins, PlayedGame.bWins,
      PlayedGame.isDraw, PlayedGame.winningPlayer, PlayedGame.colourOfA, Outcome.player?,
      Player.opponent]

namespace MatchResult

/-- Tallying games adds their numbers. -/
theorem foldl_tally (games : List PlayedGame) (s : Score) :
    games.foldl (fun s g => s.tally g.winner g.aIsRed) s =
      ⟨s.aWins + .ofNat (games.countP (·.aWins)), s.bWins + .ofNat (games.countP (·.bWins)),
        s.draws + .ofNat (games.countP (·.isDraw))⟩ := by
  induction games generalizing s with
  | nil => simp
  | cons g games ih =>
    have hcount (q : PlayedGame → Bool) (n : UInt32) :
        n + (if q g = true then 1 else 0) + .ofNat (games.countP q) =
          n + .ofNat ((g :: games).countP q) := by
      rw [List.countP_cons, UInt32.ofNat_add, UInt32.add_assoc,
        UInt32.add_comm (.ofNat (games.countP q))]
      split
      · rfl
      · rfl
    rw [List.foldl_cons, ih, Score.tally_game]
    simp only [hcount]

/-- **The score counts the games**, if there are fewer of them than words. -/
theorem score_ofGames {games : List PlayedGame} (h : games.length < UInt32.size) :
    (ofGames games).score.aWins.toNat = games.countP (·.aWins) ∧
      (ofGames games).score.bWins.toNat = games.countP (·.bWins) ∧
      (ofGames games).score.draws.toNat = games.countP (·.isDraw) := by
  have hword (q : PlayedGame → Bool) :
      ((0 : UInt32) + .ofNat (games.countP q)).toNat = games.countP q := by
    rw [UInt32.zero_add]
    exact UInt32.toNat_ofNat_of_lt (Nat.lt_of_le_of_lt List.countP_le_length h)
  have hscore : (ofGames games).score = _ := foldl_tally games .zero
  rw [hscore]
  exact ⟨hword _, hword _, hword _⟩

end MatchResult

/-! ### What a configuration fixes -/

/-- The result has the games that the configuration asks for, in their order, and counts
them. -/
structure MatchConfig.Yields (c : MatchConfig) (r : MatchResult) : Prop where
  length : r.games.length = 2 * c.gamesPerSide
  /-- Game `i` is the one that is played with the seeds of its number, A playing Red if
  the number is even. -/
  game : ∀ i < 2 * c.gamesPerSide, ∃ g, r.games[i]? = some g ∧ g.index = i ∧
    g.aIsRed = decide (i % 2 = 0) ∧
    PlayedGame.random i (i % 2 = 0) (.ofNat (c.baseSeed.toNat + 2 * i)) = .ok g
  red : r.games.countP (·.aIsRed) = c.gamesPerSide
  blue : r.games.countP (!·.aIsRed) = c.gamesPerSide
  aWins : r.score.aWins.toNat = r.games.countP (·.aWins)
  bWins : r.score.bWins.toNat = r.games.countP (·.bWins)
  draws : r.score.draws.toNat = r.games.countP (·.isDraw)

theorem MatchConfig.yields_result {c : MatchConfig} (h : 2 * c.gamesPerSide < UInt32.size) :
    c.Yields c.result := by
  have hlength : (c.plans.map GamePlan.game).length < UInt32.size := by
    rw [← c.games_result, c.length_games]
    exact h
  have hgame (i : Nat) (hi : i < 2 * c.gamesPerSide) : ∃ g, c.result.games[i]? = some g ∧
      g.index = i ∧ g.aIsRed = decide (i % 2 = 0) ∧
      PlayedGame.random i (i % 2 = 0) (.ofNat (c.baseSeed.toNat + 2 * i)) = .ok g := by
    have hplay : PlayedGame.random i (i % 2 = 0) (c.plan i).seed = .ok (c.plan i).game :=
      (c.plan i).play_eq
    exact ⟨(c.plan i).game, c.getElem?_games hi, (c.plan i).index_game, (c.plan i).aIsRed_game,
      c.seed_plan i ▸ hplay⟩
  obtain ⟨haWins, hbWins, hdraws⟩ := MatchResult.score_ofGames hlength
  exact ⟨c.length_games, hgame, c.countP_aIsRed, c.countP_not_aIsRed, haWins, hbWins, hdraws⟩

end UltimateTicTacToe
