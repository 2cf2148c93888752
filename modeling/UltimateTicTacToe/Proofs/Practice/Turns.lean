/-
# Whose tile a person places

A practice game does not ask whose turn it is. A tile that a person places is taken by
the player to move at the end of the record, and this is the person's own colour only as
long as the agent does its half of every call. The agent leaves a tile out if it does not
open a game that is its to open, or if it does not answer a recorded tile: it has no
choice, or what it chooses is refused. The call may then fail, but the person's tile
stays. From there on the colours are exchanged, until the next tile that is left out
exchanges them again: a tile that the person places is the person's if and only if the
number of tiles left out is even (`Practice.placed_colour`).

Key definitions: `Practice.leftOut`, `Practice.leftOutAfter`, `Practice.InStep`.
Key theorems: `Practice.InStep.perform`, `Practice.placed_colour`,
`Practice.stubbornGame_agentColour`.
-/
import UltimateTicTacToe.Proofs.Practice.Calls

namespace UltimateTicTacToe

theorem Player.eq_opponent_of_ne {m m' : Player} (h : m ≠ m') : m = m'.opponent := by
  revert m m'
  decide

theorem mover_eq_mover {i j : Nat} : mover i = mover j ↔ i % 2 = j % 2 := by
  unfold mover
  rcases Nat.mod_two_eq_zero_or_one i with hi | hi
  · rcases Nat.mod_two_eq_zero_or_one j with hj | hj
    · simp [hi, hj]
    · simp [hi, hj]
  · rcases Nat.mod_two_eq_zero_or_one j with hj | hj
    · simp [hi, hj]
    · simp [hi, hj]

/-- The number of the person's first move. -/
def PracticeConfig.humanFrom (c : PracticeConfig) : Nat := if c.agentFirst then 1 else 0

theorem PracticeConfig.human_eq (c : PracticeConfig) : c.human = mover c.humanFrom := by
  unfold human humanFrom
  split
  · rfl
  · rfl

namespace Practice

variable {σ : Type}

/-! ### Tiles that the agent leaves out -/

/-- How many tiles the agent leaves out of a turn of its own: one if it records nothing. -/
def leftOutOfTurn (agent : Agent σ) (g : Practice σ) : Nat :=
  if (g.agentTurn agent).1.timeline.length = g.timeline.length then 1 else 0

/-- How many tiles the agent leaves out at the opening of a game. -/
def leftOutOfOpening (agent : Agent σ) (g : Practice σ) : Nat :=
  if g.config.agentFirst then leftOutOfTurn agent g else 0

/-- How many tiles the agent has left out of the game on the board after an action, when
it was `n` before. It owes an answer to a tile that is recorded and leaves the game
undecided, and nothing for a call that does not get so far. -/
def leftOut (agent : Agent σ) (g : Practice σ) (n : Nat) : PracticeAction → Nat
  | .place p =>
    match g.timeline.play p with
    | (t, .ok _) => if t.view.isOver then n else n + leftOutOfTurn agent { g with timeline := t }
    | (_, .error _) => n
  | .reset => leftOutOfOpening agent { g with timeline := .empty, memory := agent.reset g.memory }
  | .review _ _ => n

/-- How many tiles the agent has left out of the game on the board after several
actions. -/
def leftOutAfter (agent : Agent σ) : Practice σ → Nat → List PracticeAction → Nat
  | _, n, [] => n
  | g, n, a :: as => leftOutAfter agent (g.perform agent a) (leftOut agent g n a) as

variable {agent : Agent σ} {g : Practice σ}

/-- A turn of the agent's is one tile, recorded or left out. -/
theorem length_agentTurn (agent : Agent σ) (h : g.timeline.Ruled) :
    (g.agentTurn agent).1.timeline.length + leftOutOfTurn agent g = g.timeline.length + 1 := by
  have hlength : (g.agentTurn agent).1.timeline.length = g.timeline.length ∨
      (g.agentTurn agent).1.timeline.length = g.timeline.length + 1 := by
    rcases moves_agentTurn agent h with heq | ⟨m, hm⟩
    · exact Or.inl (congrArg Timeline.length heq)
    · exact Or.inr (by simp [Timeline.length, hm])
  unfold leftOutOfTurn
  split
  · omega
  · omega

/-! ### The colours -/

/-- The agent has left `n` tiles out of the game on the board: as long as it is undecided,
the moves and the tiles left out come in turn. -/
structure InStep (g : Practice σ) (n : Nat) : Prop where
  ruled : g.timeline.Ruled
  parity : g.timeline.final.winner = none →
    (g.timeline.length + n) % 2 = g.config.humanFrom % 2

namespace InStep

/-- The person is to move if and only if the tiles left out are even in number. -/
theorem turn_eq_human {n : Nat} (h : g.InStep n) (hw : g.timeline.final.winner = none) :
    g.timeline.final.turn = g.config.human ↔ n % 2 = 0 := by
  have hparity := h.parity hw
  rw [h.ruled.turn_final, PracticeConfig.human_eq, mover_eq_mover]
  omega

theorem opening (agent : Agent σ) (h : g.timeline = .empty) :
    (g.opening agent).1.InStep (leftOutOfOpening agent g) := by
  have hempty : g.timeline.Ruled := by
    rw [h]
    exact Timeline.ruled_empty
  have hzero : g.timeline.length = 0 := by
    rw [h]
    rfl
  refine ⟨ruled_opening agent hempty, fun _ => ?_⟩
  rw [config_opening]
  unfold leftOutOfOpening PracticeConfig.humanFrom
  cases hfirst : g.config.agentFirst with
  | true =>
    rw [opening_of_agentFirst hfirst, if_pos rfl, length_agentTurn agent hempty, hzero]
    rfl
  | false =>
    rw [opening_of_not_agentFirst hfirst, hzero]
    rfl

theorem place {n : Nat} (h : g.InStep n) (p : Placement) :
    (g.place agent p).1.InStep (leftOut agent g n (.place p)) := by
  refine ⟨ruled_place agent h.ruled p, fun hw => ?_⟩
  rw [config_place, leftOut]
  rcases hplay : g.timeline.play p with ⟨t, f | outs⟩
  · rw [place_unchanged h.ruled hplay] at hw ⊢
    exact h.parity hw
  · obtain ⟨ht, htend, -⟩ := h.ruled.play_of_ok hplay
    by_cases hover : t.view.isOver = true
    · -- the game is decided, and no turn comes after it
      rw [place_of_play_ok hplay, if_pos hover] at hw
      rw [Position.isOver, ht.view_eq_final htend, hw] at hover
      cases hover
    · have hparity := h.parity (h.ruled.winner_of_play_ok (congrArg Prod.snd hplay))
      have hlength := h.ruled.length_play hplay
      have hturn : (agentTurn agent { g with timeline := t }).1.timeline.length +
          leftOutOfTurn agent { g with timeline := t } = t.length + 1 := length_agentTurn agent ht
      rw [place_of_play_ok hplay, if_neg hover]
      simp only [if_neg hover]
      omega

/-- **Every action keeps the count.** -/
theorem perform {n : Nat} (h : g.InStep n) (a : PracticeAction) :
    (g.perform agent a).InStep (leftOut agent g n a) := by
  cases a with
  | place p => exact h.place p
  | reset => exact InStep.opening agent rfl
  | review step hb =>
    obtain ⟨k, hk, heq⟩ := h.ruled.toCoherent.perform_of_browses hb
    refine ⟨ruled_perform agent h.ruled (.review step hb), ?_⟩
    simp only [Practice.perform, heq]
    exact h.parity

theorem run {n : Nat} (h : g.InStep n) (as : List PracticeAction) :
    (g.run agent as).InStep (leftOutAfter agent g n as) := by
  induction as generalizing g n with
  | nil => exact h
  | cons a as ih => exact ih (h.perform a)

end InStep

/-! ### The person's tiles -/

/-- **A tile that the person places is the person's if and only if the agent has left out
an even number of tiles** of the game on the board, and otherwise it is the agent's. So it
is with any agent, after any actions; a call that fails on the agent's half has recorded
the person's tile all the same. -/
theorem placed_colour (agent : Agent σ) {m : σ} {c : PracticeConfig} {g₀ : Practice σ}
    (hstart : start agent m c = .ok g₀) (as : List PracticeAction) :
    let g := g₀.run agent as
    let n := leftOutAfter agent g₀ (leftOutOfOpening agent ⟨c, .empty, m⟩) as
    (∀ p es, (g.place agent p).2 = .ok es → ∃ outs, (g.timeline.play p).2 = .ok outs) ∧
      ∀ p outs, (g.timeline.play p).2 = .ok outs →
        (g.place agent p).1.timeline.final.owner p =
          some (if n % 2 = 0 then c.human else c.human.opponent) := by
  intro g n
  refine ⟨fun p es => exists_play_ok_of_place, fun p outs hok => ?_⟩
  obtain ⟨hruled, hconfig⟩ := ruled_start hstart
  have hopening : g₀.InStep (leftOutOfOpening agent ⟨c, .empty, m⟩) := by
    have := InStep.opening agent (g := ⟨c, .empty, m⟩) rfl
    rwa [start_eq_ok.mp hstart] at this
  have hstep : g.InStep n := hopening.run as
  have hhuman : g.config.human = c.human := by rw [(ruled_run agent hruled as).2, hconfig]
  have hturn := hstep.turn_eq_human (hstep.ruled.winner_of_play_ok hok)
  rw [hhuman] at hturn
  rw [owner_place_eq_turn agent hstep.ruled hok]
  split
  · rename_i heven
    rw [hturn.mpr heven]
  · rename_i hodd
    rw [Player.eq_opponent_of_ne fun heq => hodd (hturn.mp heq)]

/-- A bot that opens in the middle, and answers by the same tile again. -/
def stubborn : Bot := .script [⟨4, 4⟩, ⟨4, 4⟩] [⟨4, 4⟩, ⟨4, 4⟩]

/-- The game that it opens: the person is Blue, and is sent to the middle sub-board. -/
def stubbornGame : Practice Bot where
  config := ⟨true⟩
  timeline := (Timeline.empty.play ⟨4, 4⟩).1
  memory := .script [⟨4, 4⟩, ⟨4, 4⟩] [⟨4, 4⟩]

/-- After the person's first tile the bot has left out one. -/
theorem stubbornGame_placed_colour :
    start Bot.agent stubborn ⟨true⟩ = .ok stubbornGame ∧
    ∀ p outs, ((stubbornGame.run Bot.agent [.place ⟨4, 0⟩]).timeline.play p).2 = .ok outs →
      ((stubbornGame.run Bot.agent [.place ⟨4, 0⟩]).place Bot.agent p).1.timeline.final.owner p =
        some .red := by
  have hstart : start Bot.agent stubborn ⟨true⟩ = .ok stubbornGame := rfl
  exact ⟨hstart, (placed_colour Bot.agent hstart [.place ⟨4, 0⟩]).2⟩

/-- **A person can place tiles of the agent's colour.** The person's first tile is
recorded although the call fails, since the bot's answer is refused; the second call
succeeds, and its tile is Red. -/
theorem stubbornGame_agentColour :
    start Bot.agent stubborn ⟨true⟩ = .ok stubbornGame ∧ stubbornGame.config.human = .blue ∧
    (stubbornGame.place Bot.agent ⟨4, 0⟩).2 = .error (.illegalMove ⟨4, 4⟩) ∧
    let g := stubbornGame.run Bot.agent [.place ⟨4, 0⟩]
    (g.place Bot.agent ⟨0, 4⟩).2 = .ok [.placed ⟨0, 4⟩] ∧
      (g.place Bot.agent ⟨0, 4⟩).1.timeline.final.owner ⟨0, 4⟩ = some .red :=
  ⟨rfl, rfl, rfl, rfl, rfl⟩

end Practice

end UltimateTicTacToe
