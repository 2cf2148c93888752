/-
# The seeds of a match

Each game of a match has two random agents, and each agent draws from a generator of its
own. Game `i` gives A the seed `base + 2 * i` and B the one after it, in words of 64 bits.
Laid out game by game, A before B, the seeds of a match are therefore the words that follow
the base one by one (`MatchConfig.agentSeeds_eq`), past the largest word and on from zero if
need be. They do not come round to the base again as long as there are no more agents than
words, and so no two agents share one (`MatchConfig.nodup_agentSeeds`).

Key definitions: `MatchConfig.agentSeeds`, `PlayedGame.Between`.
Key theorems: `MatchConfig.agentSeeds_eq`, `MatchConfig.nodup_agentSeeds`,
`MatchConfig.play_distinctSeeds`.
-/
import UltimateTicTacToe.Proofs.Match.Result

namespace UltimateTicTacToe

/-! ### Counting in words -/

/-- Counting on from a word gives a new word each time, until all words have had their
turn. -/
theorem word_add_injective {base i j : Nat} (hi : i < UInt64.size) (hj : j < UInt64.size)
    (h : UInt64.ofNat (base + i) = .ofNat (base + j)) : i = j := by
  have hmod : (base + i) % 2 ^ 64 = (base + j) % 2 ^ 64 := by
    rw [← UInt64.toNat_ofNat', ← UInt64.toNat_ofNat', h]
  have hi : i < 2 ^ 64 := hi
  have hj : j < 2 ^ 64 := hj
  -- equal words are whole turns apart, and these are less than one
  omega

theorem nodup_map_word_add {base n : Nat} (h : n ≤ UInt64.size) :
    ((List.range n).map fun k => UInt64.ofNat (base + k)).Nodup := by
  refine List.Nodup.map_on (fun i hi j hj heq => ?_) List.nodup_range
  rw [List.mem_range] at hi hj
  exact word_add_injective (Nat.lt_of_lt_of_le hi h) (Nat.lt_of_lt_of_le hj h) heq

/-- Pairs of neighbours, one after the other, are all the numbers in their order. -/
theorem flatMap_pairs_range {α : Type} (f : Nat → α) (n : Nat) :
    ((List.range n).flatMap fun i => [f (2 * i), f (2 * i + 1)]) =
      (List.range (2 * n)).map f := by
  induction n with
  | zero => rfl
  | succ n ih =>
    -- the last pair is what two more numbers add to the range
    rw [List.range_succ, List.flatMap_append, ih, Nat.mul_succ, List.range_add,
      List.map_append]
    rfl

/-! ### Seeds -/

/-- The seeds of A and B. -/
def GamePlan.agentSeeds (p : GamePlan) : List UInt64 := [p.seed, p.seed + 1]

/-- The seeds of all the agents of a match, game by game. -/
def MatchConfig.agentSeeds (c : MatchConfig) : List UInt64 :=
  c.plans.flatMap GamePlan.agentSeeds

namespace MatchConfig

variable {c : MatchConfig}

/-- The seed of B is one word on from the seed of A, which may be past the largest. -/
theorem seed_plan_add_one (c : MatchConfig) (i : Nat) :
    (c.plan i).seed + 1 = .ofNat (c.baseSeed.toNat + (2 * i + 1)) := by
  rw [seed_plan, ← Nat.add_assoc, UInt64.ofNat_add _ 1]
  rfl

theorem agentSeeds_plan (c : MatchConfig) (i : Nat) : (c.plan i).agentSeeds =
    [.ofNat (c.baseSeed.toNat + 2 * i), .ofNat (c.baseSeed.toNat + (2 * i + 1))] := by
  rw [GamePlan.agentSeeds, seed_plan_add_one, seed_plan]

/-- **The seeds of a match follow one another**, starting from its base. -/
theorem agentSeeds_eq (c : MatchConfig) : c.agentSeeds =
    (List.range (4 * c.gamesPerSide)).map fun k => .ofNat (c.baseSeed.toNat + k) := by
  calc c.agentSeeds
      = (List.range c.totalGames).flatMap fun i => (c.plan i).agentSeeds := by
        rw [agentSeeds, plans, List.flatMap_map]
    _ = (List.range c.totalGames).flatMap fun i =>
          [.ofNat (c.baseSeed.toNat + 2 * i), .ofNat (c.baseSeed.toNat + (2 * i + 1))] := by
        simp only [agentSeeds_plan]
    _ = (List.range (2 * c.totalGames)).map fun k => .ofNat (c.baseSeed.toNat + k) :=
        flatMap_pairs_range (fun k => UInt64.ofNat (c.baseSeed.toNat + k)) _
    _ = (List.range (4 * c.gamesPerSide)).map fun k => .ofNat (c.baseSeed.toNat + k) := by
        rw [show 2 * c.totalGames = 4 * c.gamesPerSide by rw [totalGames]; omega]

theorem length_agentSeeds (c : MatchConfig) : c.agentSeeds.length = 4 * c.gamesPerSide := by
  rw [agentSeeds_eq, List.length_map, List.length_range]

theorem getElem?_agentSeeds {k : Nat} (h : k < 4 * c.gamesPerSide) :
    c.agentSeeds[k]? = some (.ofNat (c.baseSeed.toNat + k)) := by
  rw [agentSeeds_eq, List.getElem?_map, List.getElem?_range h]
  rfl

/-- No two agents share a seed, if there are not more agents than words. -/
theorem nodup_agentSeeds (h : 4 * c.gamesPerSide ≤ UInt64.size) : c.agentSeeds.Nodup := by
  rw [agentSeeds_eq]
  exact nodup_map_word_add h

end MatchConfig

/-! ### Games from seeds -/

namespace PlayedGame

/-- The game is one between random agents with these seeds, the first one A's and the
second one B's. -/
def Between (a b : UInt64) (g : PlayedGame) : Prop :=
  ∃ t memory, (if g.aIsRed then playGame .random .random (.ofSeed a) (.ofSeed b)
      else playGame .random .random (.ofSeed b) (.ofSeed a)) = (.ok t, memory) ∧
    g.events = t.events ∧ g.winner = t.view.winner

theorem between_of_random {index : Nat} {aIsRed : Bool} {seed : UInt64} {g : PlayedGame}
    (h : random index aIsRed seed = .ok g) : g.Between seed (seed + 1) := by
  unfold random at h
  dsimp only at h
  generalize hgame : (if aIsRed = true then _ else _) = game at h
  obtain ⟨outcome, memory⟩ := game
  cases outcome with
  | error f => cases h
  | ok t =>
    cases h
    exact ⟨t, memory, hgame, rfl, rfl⟩

end PlayedGame

theorem GamePlan.between_game (p : GamePlan) : p.game.Between p.seed (p.seed + 1) :=
  PlayedGame.between_of_random p.play_eq

namespace MatchConfig

/-- **No two agents of a match share a seed**, whatever its base is, as long as there are
not more agents than words of 64 bits. Game `i` is the one between the agents whose seeds
come `2 * i` and `2 * i + 1` words after the base. -/
theorem play_distinctSeeds (c : MatchConfig) (h : 4 * c.gamesPerSide ≤ UInt64.size) :
    c.agentSeeds.Nodup ∧ c.agentSeeds.length = 4 * c.gamesPerSide ∧
      ∃ r, c.play = .ok r ∧ r.games.length = 2 * c.gamesPerSide ∧
        ∀ i < 2 * c.gamesPerSide, ∃ a b g,
          a = .ofNat (c.baseSeed.toNat + 2 * i) ∧
          b = .ofNat (c.baseSeed.toNat + (2 * i + 1)) ∧
          c.agentSeeds[2 * i]? = some a ∧ c.agentSeeds[2 * i + 1]? = some b ∧
          r.games[i]? = some g ∧ g.Between a b := by
  refine ⟨nodup_agentSeeds h, c.length_agentSeeds, c.result, c.play_eq, c.length_games,
    fun i hi => ?_⟩
  refine ⟨(c.plan i).seed, (c.plan i).seed + 1, (c.plan i).game, c.seed_plan i,
    c.seed_plan_add_one i, ?_, ?_, c.getElem?_games hi, (c.plan i).between_game⟩
  · rw [getElem?_agentSeeds (by omega), c.seed_plan]
  · rw [getElem?_agentSeeds (by omega), c.seed_plan_add_one]

/-- Six games that start three words before the last one. -/
def sixGames : MatchConfig := ⟨3, some 0xFFFFFFFFFFFFFFFD, true⟩

theorem sixGames_distinctSeeds : 4 * sixGames.gamesPerSide ≤ UInt64.size ∧
    sixGames.agentSeeds = [0xFFFFFFFFFFFFFFFD, 0xFFFFFFFFFFFFFFFE, 0xFFFFFFFFFFFFFFFF,
      0, 1, 2, 3, 4, 5, 6, 7, 8] ∧
    sixGames.agentSeeds.Nodup ∧
    ∃ r g, sixGames.play = .ok r ∧ r.games[1]? = some g ∧ g.Between 0xFFFFFFFFFFFFFFFF 0 := by
  have hsize : 4 * sixGames.gamesPerSide ≤ UInt64.size := by decide
  obtain ⟨hnodup, -, r, hplay, -, hgame⟩ := sixGames.play_distinctSeeds hsize
  obtain ⟨a, b, g, ha, hb, -, -, hg, hbetween⟩ := hgame 1 (by decide)
  have ha : a = 0xFFFFFFFFFFFFFFFF := ha.trans (by decide)
  have hb : b = 0 := hb.trans (by decide)
  exact ⟨hsize, by decide, hnodup, r, g, hplay, hg, ha ▸ hb ▸ hbetween⟩

end MatchConfig
end UltimateTicTacToe
