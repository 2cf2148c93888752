/-
# Games between willing agents

An agent that chooses a legal placement wherever there is one is never stuck, since
there is one until the game is decided, and what it chooses is never refused. So a game
between willing agents is played to its end (`Timeline.Ruled.playOut_willing`), and its
timeline is that of a completed game: it ends with the one outcome that it records, after
no fewer moves than that outcome takes and no more than there are tiles
(`Timeline.Completed`). The games of a match are of this kind with every seed
(`PlayedGame.exists_random`).

Key definitions: `Timeline.Completed`.
Key theorems: `Timeline.Ruled.completed`, `Timeline.Ruled.playOut_willing`,
`playGame_completed`.
-/
import UltimateTicTacToe.Match.Game
import UltimateTicTacToe.Proofs.Agent
import UltimateTicTacToe.Proofs.Choice
import UltimateTicTacToe.Proofs.Length

namespace UltimateTicTacToe

namespace Timeline

/-- The timeline of a game that has been played to its end, with the end on view. -/
structure Completed (t : Timeline) : Prop where
  isOver : t.view.isOver = true
  atEnd : t.atEnd = true
  /-- The last event is the only one that ends the game. -/
  endsOnce : ∃ es o, t.events = es ++ [.ended o] ∧ (∀ o', .ended o' ∉ es) ∧
    t.view.winner = some o
  moves : 17 ≤ t.length ∧ t.length ≤ 81
  moves_blue : t.view.winner = some .blue → 18 ≤ t.length
  moves_stalemate : t.view.winner = some .stalemate → 27 ≤ t.length

/-- A game by the rules that is decided is completed. -/
theorem Ruled.completed {t : Timeline} (h : t.Ruled) (hend : t.atEnd = true)
    (hover : t.view.isOver = true) : t.Completed := by
  have hview := h.view_eq_final hend
  obtain ⟨o, ho⟩ := Option.isSome_iff_exists.mp hover
  have hleast (o' : Outcome) (hw : t.view.winner = some o') : leastMoves o' ≤ t.length :=
    h.byRules.le_length_of_winner (hview ▸ hw)
  have hends : ∃ es, t.events = es ++ [.ended o] ∧ ∀ o', .ended o' ∉ es := by
    have hregular : Regular t.events := (Position.regular_iff_replay _).mpr ⟨_, h.final⟩
    have hmem : .ended o ∈ t.events :=
      ((Position.tells_of_replay h.final).winner o).mp (hview ▸ ho)
    obtain ⟨es, after, hsplit⟩ := List.append_of_mem hmem
    rw [hregular.endsLast es o after hsplit] at hsplit
    have hlast := hregular.endsLast
    rw [hsplit] at hlast
    exact ⟨es, hsplit, endsLast_snoc.mp hlast⟩
  refine ⟨hover, hend, ?_, ⟨?_, h.byRules.length_le⟩, hleast .blue, hleast .stalemate⟩
  · obtain ⟨es, hsplit, hno⟩ := hends
    exact ⟨es, o, hsplit, hno, ho⟩
  · have hseventeen : 17 ≤ leastMoves o := by cases o <;> decide
    exact Nat.le_trans hseventeen (hleast o ho)

/-! ### Playing out -/

/-- What a willing agent chooses at the end of a game by the rules is played. -/
theorem Ruled.exists_play_choice {σ : Type} {agent : Agent σ} {m : σ} {t : Timeline}
    (h : t.Ruled) (hm : agent.Willing m) (hend : t.atEnd = true) (hover : ¬ t.view.isOver = true) :
    ∃ p u outs, (agent.choose m t.view).1 = some p ∧ t.play p = (u, .ok outs) ∧ u.Ruled ∧
      u.atEnd = true := by
  have hne : t.view.playableTiles ≠ [] := fun hnil => hover (h.unblocked_view.choice.mp hnil)
  have htarget := h.targetOnBoard_view
  obtain ⟨p, hp, hchoice⟩ := hm.ready t.view htarget hne
  obtain ⟨s, hs⟩ := (t.view.place p).exists_replay_findWins
  have hplay := h.play_eq hend ((Position.mem_playableTiles_iff_isPlayable htarget).mp hp) hs
  have hruled := h.play p
  rw [hplay] at hruled
  exact ⟨p, _, _, hchoice, hplay, hruled, by simp [atEnd_iff]⟩

/-- **A willing agent plays a game to its end**, without a fault. -/
theorem Ruled.playOut_willing {σ : Type} {agent : Agent σ} {m : σ} {t : Timeline}
    (h : t.Ruled) (hm : agent.Willing m) (hend : t.atEnd = true) :
    ∃ u m', playOut agent m t = (.ok u, m') ∧ u.Ruled ∧ u.Completed := by
  fun_induction playOut agent m t with
  | case1 m t hover => exact ⟨t, m, rfl, h, h.completed hend hover⟩
  | case2 m t hover m' hnone =>
    -- the agent would have no choice
    obtain ⟨p, u, outs, hchoice, -⟩ := h.exists_play_choice hm hend hover
    rw [hnone] at hchoice
    cases hchoice
  | case3 m t hover p m' hsome u outs hplay ih =>
    obtain ⟨p', u', outs', hchoice, hplay', hu, huend⟩ := h.exists_play_choice hm hend hover
    rw [hsome] at hchoice
    cases hchoice
    rw [hplay] at hplay'
    cases hplay'
    have hm' := hm.asked h.targetOnBoard_view
    rw [hsome] at hm'
    exact ih hu hm' huend
  | case4 m t hover p m' hsome u f hplay =>
    -- the choice would be refused
    obtain ⟨p', u', outs', hchoice, hplay', -⟩ := h.exists_play_choice hm hend hover
    rw [hsome] at hchoice
    cases hchoice
    rw [hplay] at hplay'
    cases hplay'

end Timeline

theorem exists_playGame {σ τ : Type} {red : Agent σ} {blue : Agent τ} {r : σ} {b : τ}
    (hr : red.Willing r) (hb : blue.Willing b) :
    ∃ t m, playGame red blue r b = (.ok t, m) ∧ t.Ruled ∧ t.Completed :=
  Timeline.ruled_empty.playOut_willing (hr.versus hb) rfl

/-- **A game of a match is always played to its end**, whatever its seed. -/
theorem PlayedGame.exists_random (index : Nat) (aIsRed : Bool) (seed : UInt64) :
    ∃ t : Timeline, t.Ruled ∧ t.Completed ∧
      PlayedGame.random index aIsRed seed = .ok ⟨index, t.events, t.view.winner, aIsRed⟩ := by
  have hgame (r b : Generator) :=
    exists_playGame (Agent.random_willing r) (Agent.random_willing b)
  unfold PlayedGame.random
  dsimp only
  split
  · obtain ⟨t, m, ht, hruled, hcompleted⟩ := hgame (.ofSeed seed) (.ofSeed (seed + 1))
    exact ⟨t, hruled, hcompleted, by rw [ht]; rfl⟩
  · obtain ⟨t, m, ht, hruled, hcompleted⟩ := hgame (.ofSeed (seed + 1)) (.ofSeed seed)
    exact ⟨t, hruled, hcompleted, by rw [ht]; rfl⟩

/-- **Willing agents complete their games**, whatever they remember, and so do the random
agents of a match, with every seed and either colour: no game of a match fails, and none
is left undecided. -/
theorem playGame_completed :
    (∀ {σ τ : Type} (red : Agent σ) (blue : Agent τ) (r : σ) (b : τ), red.Willing r →
      blue.Willing b → ∃ t m, playGame red blue r b = (.ok t, m) ∧ t.Completed) ∧
    (∀ g, Agent.random.Willing g) ∧
    ∀ index aIsRed seed, ∃ t : Timeline, t.Completed ∧ t.view.winner ≠ none ∧
      PlayedGame.random index aIsRed seed = .ok ⟨index, t.events, t.view.winner, aIsRed⟩ := by
  refine ⟨fun red blue r b hr hb => ?_, Agent.random_willing, fun index aIsRed seed => ?_⟩
  · obtain ⟨t, m, ht, -, hcompleted⟩ := exists_playGame hr hb
    exact ⟨t, m, ht, hcompleted⟩
  · obtain ⟨t, -, hcompleted, hrandom⟩ := PlayedGame.exists_random index aIsRed seed
    exact ⟨t, hcompleted, Option.isSome_iff_ne_none.mp hcompleted.isOver, hrandom⟩

/-- A bot that takes the first legal placement against one that takes the last. -/
theorem firstAgainstLast_completed :
    Bot.agent.Willing .first ∧ Bot.agent.Willing .last ∧
      ∃ t m, playGame Bot.agent Bot.agent .first .last = (.ok t, m) ∧ t.Completed :=
  ⟨Bot.first_willing, Bot.last_willing,
    playGame_completed.1 Bot.agent Bot.agent .first .last Bot.first_willing Bot.last_willing⟩

end UltimateTicTacToe
