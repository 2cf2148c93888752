/-
# A match is found again in its feed

The games of a match are numbered from 0 and come in order, so in the record of the match
they stand in order too, numbered from 1 (`MatchConfig.entries_toRecord`). They were
played by the rules, so all their events lie on the board, the text of the feed is read
as the same record (`Record.OnBoard.parse_toFeed`), and each game is opened as the
timeline that was played (`Timeline.Ruled.ofEvents_events`).

The record says three times how a game has ended: by its events, by the outcome beside
them and in the list of outcomes. All three agree, and the score follows from the list,
since the place of a game says who has played Red (`Score.FollowsFrom`).

Key definitions: `Score.FollowsFrom`, `MatchResult.FoundIn`.
Key theorems: `MatchConfig.entries_toRecord`, `MatchConfig.exists_timeline`,
`MatchConfig.score_followsFrom`, `MatchConfig.play_foundInFeed`.
-/
import UltimateTicTacToe.Command.Basic
import UltimateTicTacToe.Proofs.Archive.RoundTrip
import UltimateTicTacToe.Proofs.Match.Result
import UltimateTicTacToe.Proofs.Reopening

namespace UltimateTicTacToe

/-! ### The record of a match -/

/-- The game as it stands in a record, beside its number. -/
def PlayedGame.entry (g : PlayedGame) : UInt32 × History := (.ofNat g.index + 1, g.history)

theorem PlayedGame.entry_eq (g : PlayedGame) : g.entry = (.ofNat (g.index + 1), g.history) := by
  rw [entry, UInt32.ofNat_add]
  rfl

/-- Games are put into a record as their payloads are. -/
theorem Record.fillAll?_foldl (r : Record) (games : List (UInt32 × History)) :
    r.fillAll? (games.map fun g => (.game g.1, .history g.2)) =
      some (games.foldl (fun r g => r.insertGame g.1 g.2) r) := by
  induction games generalizing r with
  | nil => rfl
  | cons g games ih => exact ih (r.insertGame g.1 g.2)

/-- Games in ascending order stand in the record of the match as they are. -/
theorem MatchResult.entries_toRecord {r : MatchResult}
    (h : (r.games.map PlayedGame.entry).Pairwise fun a b => a.1 < b.1) :
    r.toRecord.games.entries = r.games.map PlayedGame.entry := by
  have hfill := Record.fillAll?_games .empty (r.games.map PlayedGame.entry) h
  rw [Record.fillAll?_foldl, List.foldl_map, Option.some.injEq] at hfill
  exact congrArg (fun record : Record => record.games.entries) hfill

namespace MatchConfig

variable {c : MatchConfig}

theorem index_lt {g : PlayedGame} (h : g ∈ c.result.games) : g.index < 2 * c.gamesPerSide :=
  List.mem_range.mp (c.map_index_games ▸ List.mem_map_of_mem h)

theorem toNat_entry (h : 2 * c.gamesPerSide < UInt32.size) {g : PlayedGame}
    (hg : g ∈ c.result.games) : g.entry.1.toNat = g.index + 1 := by
  have hlt := index_lt hg
  rw [g.entry_eq]
  exact UInt32.toNat_ofNat_of_lt (by omega)

/-- In the record of a match the games stand in order. -/
theorem entries_toRecord (h : 2 * c.gamesPerSide < UInt32.size) :
    c.result.toRecord.games.entries = c.result.games.map PlayedGame.entry := by
  have hindices : (c.result.games.map PlayedGame.index).Pairwise (· < ·) :=
    c.map_index_games ▸ List.pairwise_lt_range
  refine MatchResult.entries_toRecord (List.pairwise_map.mpr ?_)
  refine (List.pairwise_map.mp hindices).imp_of_mem fun {a b} ha hb hlt => ?_
  rw [UInt32.lt_iff_toNat_lt, toNat_entry h ha, toNat_entry h hb]
  omega

/-- The games of a match are played on the board. -/
theorem onBoard_toRecord (h : 2 * c.gamesPerSide < UInt32.size) : c.result.toRecord.OnBoard := by
  intro e he
  rw [entries_toRecord h] at he
  obtain ⟨g, hg, rfl⟩ := List.mem_map.mp he
  obtain ⟨p, -, rfl⟩ := List.mem_map.mp hg
  obtain ⟨t, hruled, -, -, hgame⟩ := p.exists_game
  rw [hgame]
  exact ((Position.regular_iff_replay _).mpr ⟨_, hruled.final⟩).onBoard

/-- Game `i` of a match stands in its record as game `i + 1`, and is opened there as it
was played. -/
theorem exists_timeline (h : 2 * c.gamesPerSide < UInt32.size) {i : Nat} {g : PlayedGame}
    (hg : c.result.games[i]? = some g) :
    c.result.toRecord.games.get? (.ofNat (i + 1)) = some g.history ∧
      ∃ t : Timeline, c.result.toRecord.timeline (.ofNat (i + 1)) = .ok t ∧
        t.events = g.events ∧ t.length = g.moves ∧ t.view.winner = g.winner := by
  obtain ⟨hi, -⟩ := List.getElem?_eq_some_iff.mp hg
  rw [c.getElem?_games (c.length_games ▸ hi), Option.some.injEq] at hg
  subst hg
  have hmem := List.mem_of_getElem? (c.getElem?_games (c.length_games ▸ hi))
  have hentry : (.ofNat (i + 1), (c.plan i).game.history) ∈ c.result.toRecord.games.entries := by
    rw [entries_toRecord h]
    refine List.mem_map.mpr ⟨_, hmem, ?_⟩
    rw [PlayedGame.entry_eq, (c.plan i).index_game]
    rfl
  have hget := Games.get?_eq_some_iff.mpr hentry
  obtain ⟨t, hruled, hcompleted, -, hgame⟩ := (c.plan i).exists_game
  rw [hgame] at hget ⊢
  refine ⟨hget, t, ?_, rfl, ?_, rfl⟩
  · rw [Record.timeline, hget]
    simp only [PlayedGame.history, hruled.ofEvents_events hcompleted.atEnd]
  · rw [Timeline.length, ← hruled.byRules.length_placements]
    exact List.length_filterMap_eq_countP

end MatchConfig

/-! ### Outcomes and score -/

namespace PlayedGame

/-- The outcome says who has won; without one nobody has. -/
theorem winningPlayer_eq_some (g : PlayedGame) (m : Player) :
    g.winningPlayer = some m ↔ g.winner.getD .stalemate = m.outcome := by
  unfold winningPlayer
  cases g.winner with
  | none => cases m <;> decide
  | some o => cases o <;> cases m <;> decide

theorem winningPlayer_eq_none (g : PlayedGame) :
    g.winningPlayer = none ↔ g.winner.getD .stalemate = .stalemate := by
  unfold winningPlayer
  cases g.winner with
  | none => decide
  | some o => cases o <;> decide

end PlayedGame

/-- The score is that of a match with these outcomes, where A plays Red in the games with
even numbers. -/
structure Score.FollowsFrom (s : Score) (os : List Outcome) : Prop where
  aWins : s.aWins.toNat = (List.range os.length).countP fun i =>
    os[i]? = some (if i % 2 = 0 then .red else .blue)
  bWins : s.bWins.toNat = (List.range os.length).countP fun i =>
    os[i]? = some (if i % 2 = 0 then .blue else .red)
  draws : s.draws.toNat = os.countP (· = .stalemate)

namespace MatchConfig

variable {c : MatchConfig}

theorem getElem?_winners {i : Nat} (h : i < 2 * c.gamesPerSide) :
    c.result.winners[i]? = some ((c.plan i).game.winner.getD .stalemate) := by
  rw [MatchResult.winners, List.getElem?_map, c.getElem?_games h]
  rfl

theorem colourOfA_plan (i : Nat) :
    (c.plan i).game.colourOfA = if i % 2 = 0 then .red else .blue := by
  rw [PlayedGame.colourOfA, (c.plan i).aIsRed_game]
  exact if_congr decide_eq_true_iff rfl rfl

/-- Counting games is counting their numbers. -/
theorem countP_games {q : PlayedGame → Bool} {f : Nat → Outcome}
    (h : ∀ i, q (c.plan i).game = true ↔ (c.plan i).game.winner.getD .stalemate = f i) :
    c.result.games.countP q = (List.range c.result.winners.length).countP fun i =>
      c.result.winners[i]? = some (f i) := by
  have hlength : c.result.winners.length = 2 * c.gamesPerSide := by
    rw [MatchResult.winners, List.length_map, c.length_games]
  rw [games_eq, List.countP_map, hlength]
  refine List.countP_congr fun i hi => ?_
  rw [getElem?_winners (List.mem_range.mp hi), Function.comp_apply, h i, decide_eq_true_iff,
    Option.some.injEq]

/-- The score of a match follows from the outcomes of its games. -/
theorem score_followsFrom (h : 2 * c.gamesPerSide < UInt32.size) :
    c.result.score.FollowsFrom c.result.winners := by
  have hyields := yields_result h
  refine ⟨?_, ?_, ?_⟩
  · rw [hyields.aWins]
    refine countP_games fun i => ?_
    rw [PlayedGame.aWins, decide_eq_true_iff, PlayedGame.winningPlayer_eq_some, colourOfA_plan]
    split <;> rfl
  · rw [hyields.bWins]
    refine countP_games fun i => ?_
    rw [PlayedGame.bWins, decide_eq_true_iff, PlayedGame.winningPlayer_eq_some, colourOfA_plan]
    split <;> rfl
  · rw [hyields.draws, MatchResult.winners, List.countP_map]
    refine List.countP_congr fun g _ => ?_
    rw [PlayedGame.isDraw, decide_eq_true_iff, PlayedGame.winningPlayer_eq_none,
      Function.comp_apply, decide_eq_true_iff]

end MatchConfig

/-! ### Saving and loading -/

/-- The record has the games of the match, each as it was played, and its result. -/
structure MatchResult.FoundIn (r : MatchResult) (record : Record) : Prop where
  numbers : record.games.entries.map (·.1.toNat) = List.range' 1 r.games.length
  game : ∀ (i : Nat) (g : PlayedGame), r.games[i]? = some g →
    record.games.get? (.ofNat (i + 1)) = some ⟨g.events, g.winner⟩
  replayed : ∀ (i : Nat) (g : PlayedGame), r.games[i]? = some g → ∃ t : Timeline,
    record.timeline (.ofNat (i + 1)) = .ok t ∧ t.events = g.events ∧ t.length = g.moves ∧
      t.view.winner = g.winner
  score : record.score = some r.score
  /-- The outcomes are those of the games, and the score is what they come to. -/
  winners : ∃ os, record.winners = some os ∧ os.length = r.games.length ∧
    (∀ (i : Nat) (g : PlayedGame), r.games[i]? = some g →
      os[i]? = some (g.winner.getD .stalemate)) ∧
    r.score.FollowsFrom os

theorem MatchConfig.foundIn_toRecord {c : MatchConfig} (h : 2 * c.gamesPerSide < UInt32.size) :
    c.result.FoundIn c.result.toRecord := by
  refine ⟨?_, fun i g hg => (exists_timeline h hg).1, fun i g hg => (exists_timeline h hg).2, rfl,
    c.result.winners, rfl, List.length_map _, fun i g hg => ?_, score_followsFrom h⟩
  · calc c.result.toRecord.games.entries.map (·.1.toNat)
        = c.result.games.map (·.entry.1.toNat) := by
          rw [entries_toRecord h, List.map_map]
          rfl
      _ = c.result.games.map (·.index + 1) :=
          List.map_congr_left fun g hg => toNat_entry h hg
      _ = (c.result.games.map PlayedGame.index).map (1 + ·) := by
          rw [List.map_map]
          exact List.map_congr_left fun g _ => Nat.add_comm _ _
      _ = List.range' 1 c.result.games.length := by
          rw [c.map_index_games, c.length_games, List.range'_eq_map_range]
  · rw [MatchResult.winners, List.getElem?_map, hg]
    rfl

/-- **A match is found again in its feed.** The feed can be read from either text, and each
of its games is opened, also by the commands, as it was played. What the program saves is
one of the two texts. -/
theorem MatchConfig.play_foundInFeed (c : MatchConfig) (h : 2 * c.gamesPerSide < UInt32.size) :
    ∃ r : MatchResult, c.play = .ok r ∧ r.games.length = 2 * c.gamesPerSide ∧
      (∀ text ∈ [r.toFeed.toJson.compact, r.toFeed.toJson.indented],
        ∃ record : Record, Record.parse text = .ok record ∧ r.FoundIn record ∧
          ∀ file id t, record.timeline id = .ok t → loadGame file id (.ok text) = .ok t) ∧
      ∀ (o : PlayOptions) (file : String), o.config = c → o.output = some file →
        ∃ output, o.run = .ok ⟨output, some (file, r.toFeed.toJson.indented)⟩ := by
  refine ⟨c.result, c.play_eq, c.length_games, fun text htext => ?_, fun o file hc hfile => ?_⟩
  · have hparse := (onBoard_toRecord h).parse_toFeed text htext
    refine ⟨c.result.toRecord, hparse, foundIn_toRecord h, fun file id t ht => ?_⟩
    simp only [loadGame, hparse, ht]
  · rw [PlayOptions.run, hc, c.play_eq, hfile]
    exact ⟨_, rfl⟩

/-- A match of two games. -/
def twoGames : MatchConfig := ⟨1, some 3, true⟩

theorem twoGames_foundInFeed : 2 * twoGames.gamesPerSide < UInt32.size ∧
    ∃ r record g t, twoGames.play = .ok r ∧ Record.parse r.toFeed.toJson.indented = .ok record ∧
      record.games.entries.map (·.1.toNat) = [1, 2] ∧ record.score = some r.score ∧
      r.games[1]? = some g ∧ loadGame "feed.json" 2 (.ok r.toFeed.toJson.indented) = .ok t ∧
      t.events = g.events ∧ t.view.winner = g.winner := by
  have hsize : 2 * twoGames.gamesPerSide < UInt32.size := by decide
  obtain ⟨r, hplay, hlength, hfeed, -⟩ := twoGames.play_foundInFeed hsize
  have hlength : r.games.length = 2 := hlength
  obtain ⟨record, hparse, hfound, hload⟩ := hfeed r.toFeed.toJson.indented (by simp)
  have hnumbers : record.games.entries.map (·.1.toNat) = [1, 2] := by
    rw [hfound.numbers, hlength]
    rfl
  have hg : r.games[1]? = some r.games[1] := List.getElem?_eq_getElem _
  obtain ⟨t, ht, hevents, -, hwinner⟩ := hfound.replayed 1 r.games[1] hg
  exact ⟨hsize, r, record, r.games[1], t, hplay, hparse, hnumbers, hfound.score, hg,
    hload "feed.json" 2 t ht, hevents, hwinner⟩

end UltimateTicTacToe
