/-
# Practice games with an agent that can be relied on

An obliging agent chooses a legal placement wherever there is one. Between two calls a
practice game with such an agent is decided, or waits for the person at the end of its
record (`Practice.Waiting`): there is always a choice until the game is decided, and what
the agent chooses is never refused. So no call ever fails on the agent's half. A new game
can be begun at any time, and a person's call fails only for what is wrong with the
person's tile; if it succeeds, it has recorded that tile and, unless this has decided the
game, one tile of the agent's (`Practice.start_answered`).

Key definitions: `Practice.Waiting`, `Practice.Exchanged`, `Practice.Answered`.
Key theorems: `Practice.Waiting.perform`, `Practice.Waiting.answered`,
`Practice.start_answered`.
-/
import UltimateTicTacToe.Proofs.Match.Game
import UltimateTicTacToe.Proofs.Practice.Reported

namespace UltimateTicTacToe
namespace Practice

variable {σ : Type} {agent : Agent σ} {g : Practice σ}

/-- Nothing is left to be done but by the person. -/
structure Waiting (agent : Agent σ) (g : Practice σ) : Prop where
  ruled : g.timeline.Ruled
  obliging : agent.Obliging g.memory
  turn : g.timeline.final.winner = none → g.timeline.final.turn = g.config.human

/-! ### The agent's half -/

/-- An obliging agent takes its turn in an undecided game, and plays what it chooses. -/
theorem exists_agentTurn (h : g.timeline.Ruled) (hm : agent.Obliging g.memory)
    (hend : g.timeline.atEnd = true) (hover : ¬ g.timeline.view.isOver = true) :
    ∃ q t outs, (agent.choose g.memory g.timeline.view).1 = some q ∧
      g.timeline.play q = (t, .ok outs) ∧
      g.agentTurn agent = (⟨g.config, t, (agent.choose g.memory g.timeline.view).2⟩,
        .ok (.placed q :: outs)) := by
  obtain ⟨q, t, outs, hchoice, hplay, -, -⟩ := h.exists_play_choice hm.willing hend hover
  refine ⟨q, t, outs, hchoice, hplay, ?_⟩
  rw [agentTurn_of_some hchoice, hplay]
  rfl

/-- An obliging agent opens the games that are its to open. -/
theorem exists_opening (h : g.timeline = .empty) (hm : agent.Obliging g.memory) :
    ∃ g', g.opening agent = (g', .ok ()) ∧ g'.Waiting agent := by
  have hempty : g.timeline.Ruled := by
    rw [h]
    exact Timeline.ruled_empty
  have hturn : g.timeline.final.turn = .first := by
    rw [h]
    rfl
  cases hfirst : g.config.agentFirst with
  | true =>
    have hend : g.timeline.atEnd = true := by
      rw [h]
      rfl
    have hover : ¬ g.timeline.view.isOver = true := by
      rw [h]
      decide
    obtain ⟨q, t, outs, -, hplay, hagent⟩ := exists_agentTurn hempty hm hend hover
    refine ⟨_, by rw [opening_of_agentFirst hfirst, hagent]; rfl, ?_, ?_, fun _ => ?_⟩
    · exact (hempty.play_of_ok hplay).1
    · exact hm.of_recalls (.asked hempty.targetOnBoard_view .start)
    · rw [hempty.turn_play hplay, hturn, PracticeConfig.human, if_pos hfirst]
  | false =>
    refine ⟨g, opening_of_not_agentFirst hfirst, hempty, hm, fun _ => ?_⟩
    rw [hturn, PracticeConfig.human, if_neg (by simp [hfirst])]

namespace Waiting

theorem exists_reset (h : g.Waiting agent) :
    ∃ g', g.reset agent = (g', .ok ()) ∧ g'.Waiting agent :=
  exists_opening rfl (h.obliging.of_recalls (.renewed .start))

/-! ### The person's calls -/

/-- A tile that is played decides the game, or is answered by one of the agent's. -/
theorem place_eq (h : g.Waiting agent) {p : Placement} {t : Timeline} {outs : List Event}
    (hplay : g.timeline.play p = (t, .ok outs)) :
    (t.view.isOver = true ∧
      g.place agent p = (⟨g.config, t, g.memory⟩, .ok (.placed p :: outs))) ∨
    (t.view.isOver = false ∧ ∃ q u answer, (agent.choose g.memory t.view).1 = some q ∧
      t.play q = (u, .ok answer) ∧
      g.place agent p = (⟨g.config, u, (agent.choose g.memory t.view).2⟩,
        .ok (.placed p :: outs ++ .placed q :: answer))) := by
  obtain ⟨ht, htend, -, -, -⟩ := h.ruled.play_of_ok hplay
  by_cases hover : t.view.isOver = true
  · exact Or.inl ⟨hover, by rw [place_of_play_ok hplay, if_pos hover]⟩
  · obtain ⟨q, u, answer, hchoice, hanswer, hagent⟩ :=
      exists_agentTurn (g := { g with timeline := t }) ht h.obliging htend hover
    refine Or.inr ⟨by simpa using hover, q, u, answer, hchoice, hanswer, ?_⟩
    rw [place_of_play_ok hplay, if_neg hover, hagent]
    rfl

/-- A tile that can be played comes when it is the person's turn. -/
theorem turn_of_play_ok (h : g.Waiting agent) {p : Placement} {outs : List Event}
    (hok : (g.timeline.play p).2 = .ok outs) : g.timeline.final.turn = g.config.human :=
  h.turn (h.ruled.winner_of_play_ok hok)

theorem place (h : g.Waiting agent) (p : Placement) : (g.place agent p).1.Waiting agent := by
  rcases hplay : g.timeline.play p with ⟨t, f | outs⟩
  · rw [place_unchanged h.ruled hplay]
    exact h
  · obtain ⟨ht, htend, -, -, -⟩ := h.ruled.play_of_ok hplay
    have hturn := h.turn_of_play_ok (congrArg Prod.snd hplay)
    rcases h.place_eq hplay with ⟨hover, heq⟩ | ⟨hover, q, u, answer, -, hanswer, heq⟩
    · rw [heq]
      refine ⟨ht, h.obliging, fun hw => ?_⟩
      rw [Position.isOver, ht.view_eq_final htend, hw] at hover
      cases hover
    · rw [heq]
      refine ⟨(ht.play_of_ok hanswer).1, h.obliging.of_recalls (.asked ht.targetOnBoard_view .start),
        fun _ => ?_⟩
      rw [ht.turn_play hanswer, h.ruled.turn_play hplay, hturn, Player.opponent_opponent]

/-- **Every action leaves the game waiting for the person**, or decided. -/
theorem perform (h : g.Waiting agent) (a : PracticeAction) : (g.perform agent a).Waiting agent := by
  cases a with
  | place p => exact h.place p
  | reset =>
    obtain ⟨g', hreset, hg'⟩ := h.exists_reset
    rw [Practice.perform, hreset]
    exact hg'
  | review step hb =>
    obtain ⟨k, -, heq⟩ := h.ruled.toCoherent.perform_of_browses hb
    refine ⟨ruled_perform agent h.ruled (.review step hb), h.obliging, ?_⟩
    simp only [Practice.perform, heq]
    exact h.turn

theorem run (h : g.Waiting agent) (as : List PracticeAction) : (g.run agent as).Waiting agent := by
  induction as generalizing g with
  | nil => exact h
  | cons a as ih => exact ih (h.perform a)

end Waiting

/-! ### What a call gives back -/

/-- The call that places `p` has recorded `es`: the person's tile and, unless it decides
the game, the tile that the agent chooses after it. -/
structure Exchanged (agent : Agent σ) (g : Practice σ) (p : Placement) (es : List Event) :
    Prop where
  events : (g.place agent p).1.timeline.events = g.timeline.events ++ es
  owner : (g.place agent p).1.timeline.final.owner p = some g.config.human
  alone : (g.timeline.play p).1.view.isOver = true → placementsOf es = [p]
  answered : (g.timeline.play p).1.view.isOver = false → ∃ q,
    (agent.choose g.memory (g.timeline.play p).1.view).1 = some q ∧ placementsOf es = [p, q] ∧
      (g.place agent p).1.timeline.final.owner q = some g.config.human.opponent

theorem placementsOf_move {p : Placement} {outs : List Event} (h : placementsOf outs = []) :
    placementsOf (.placed p :: outs) = [p] := congrArg (p :: ·) h

theorem Waiting.exchanged (h : g.Waiting agent) {p : Placement} {es : List Event}
    (hes : (g.place agent p).2 = .ok es) : g.Exchanged agent p es := by
  obtain ⟨outs, hok⟩ := exists_play_ok_of_place hes
  have hevents := events_place h.ruled hes
  have howner := owner_place_eq_turn agent h.ruled hok
  rw [h.turn_of_play_ok hok] at howner
  rcases hplay : g.timeline.play p with ⟨t, f | outs'⟩
  · rw [hplay] at hok
    cases hok
  obtain ⟨ht, -, -, -, houts⟩ := h.ruled.play_of_ok hplay
  rcases h.place_eq hplay with ⟨hover, heq⟩ | ⟨hover, q, u, answer, hchoice, hanswer, heq⟩
  · rw [heq] at hes
    obtain rfl := Except.ok.inj hes
    refine ⟨hevents, howner, fun _ => placementsOf_move houts, fun hnot => ?_⟩
    rw [hplay, hover] at hnot
    cases hnot
  · rw [heq] at hes
    obtain rfl := Except.ok.inj hes
    obtain ⟨-, -, -, -, hmore⟩ := ht.play_of_ok hanswer
    refine ⟨hevents, howner, fun hnot => ?_, fun _ => ⟨q, ?_, ?_, ?_⟩⟩
    · rw [hplay, hover] at hnot
      cases hnot
    · rw [hplay]
      exact hchoice
    · rw [placementsOf, List.filterMap_append]
      exact congrArg₂ (· ++ ·) (placementsOf_move houts) (placementsOf_move hmore)
    · rw [heq, ht.owner_play hanswer, h.ruled.turn_play hplay,
        h.turn_of_play_ok (congrArg Prod.snd hplay)]

/-- What the person can rely on between two calls. -/
structure Answered (agent : Agent σ) (g : Practice σ) : Prop where
  /-- The game is decided, or it is the person's turn at the end of the record. -/
  turn : g.timeline.final.winner ≠ none ∨ g.timeline.final.turn = g.config.human
  reset : (g.reset agent).2 = .ok ()
  place_ok_iff : ∀ p, (∃ es, (g.place agent p).2 = .ok es) ↔
    g.timeline.atEnd = true ∧ g.timeline.view.isPlayable p = true
  place_error_iff : ∀ p f, (g.place agent p).2 = .error f ↔
    (g.timeline.atEnd = false ∧ f = .reviewing) ∨
      (g.timeline.atEnd = true ∧ g.timeline.view.isPlayable p = false ∧ f = .illegalMove p)
  place_unchanged : ∀ p f, (g.place agent p).2 = .error f → (g.place agent p).1 = g
  exchanged : ∀ p es, (g.place agent p).2 = .ok es → g.Exchanged agent p es

namespace Waiting

/-- A call succeeds if the person's tile can be played. -/
theorem exists_place_ok_iff (h : g.Waiting agent) {p : Placement} :
    (∃ es, (g.place agent p).2 = .ok es) ↔ ∃ outs, (g.timeline.play p).2 = .ok outs := by
  refine ⟨fun ⟨es, hes⟩ => exists_play_ok_of_place hes, fun ⟨outs, hok⟩ => ?_⟩
  rcases h.place_eq (p := p) (Prod.ext rfl hok) with ⟨-, heq⟩ | ⟨-, q, u, answer, -, -, heq⟩
  · exact ⟨_, by rw [heq]⟩
  · exact ⟨_, by rw [heq]⟩

/-- A call fails only if the person's tile cannot be played, and changes nothing then. -/
theorem play_of_place_error (h : g.Waiting agent) {p : Placement} {f : Fault}
    (hf : (g.place agent p).2 = .error f) :
    (g.timeline.play p).2 = .error f ∧ (g.place agent p).1 = g := by
  rcases hplay : g.timeline.play p with ⟨t, f' | outs⟩
  · rw [place_unchanged h.ruled hplay] at hf ⊢
    exact ⟨hf, rfl⟩
  · obtain ⟨es, hes⟩ := h.exists_place_ok_iff.mpr ⟨outs, congrArg Prod.snd hplay⟩
    rw [hf] at hes
    cases hes

theorem answered (h : g.Waiting agent) : g.Answered agent := by
  refine ⟨?_, ?_, fun p => ?_, fun p f => ?_, fun p f hf => (h.play_of_place_error hf).2,
    fun p es hes => h.exchanged hes⟩
  · by_cases hw : g.timeline.final.winner = none
    · exact Or.inr (h.turn hw)
    · exact Or.inl hw
  · obtain ⟨g', hreset, -⟩ := h.exists_reset
    rw [hreset]
  · rw [h.exists_place_ok_iff, h.ruled.toCoherent.exists_play_ok_iff]
  · rw [← h.ruled.toCoherent.play_error_iff]
    refine ⟨fun hf => (h.play_of_place_error hf).1, fun hf => ?_⟩
    have hplay : g.timeline.play p = ((g.timeline.play p).1, .error f) := Prod.ext rfl hf
    rw [place_unchanged h.ruled hplay]

end Waiting

/-- **Every tile is answered**, in a game with an obliging agent: the game can be begun,
and between any two calls the person finds it decided or to move. A new game can be begun
again. A tile is placed if and only if the end of the record is on view and it is legal
there, and if it is not, that is what the fault says. What a call gives back is what it has
recorded: the person's tile, and the agent's unless the person's has decided the game. -/
theorem start_answered {m : σ} (hm : agent.Obliging m) (c : PracticeConfig) :
    ∃ g, start agent m c = .ok g ∧ ∀ as,
      (g.run agent as).config = c ∧ (g.run agent as).Answered agent := by
  obtain ⟨g, hopening, hg⟩ := exists_opening (g := ⟨c, .empty, m⟩) rfl hm
  have hstart : start agent m c = .ok g := start_eq_ok.mpr hopening
  obtain ⟨hruled, hconfig⟩ := ruled_start hstart
  exact ⟨g, hstart, fun as => ⟨(ruled_run agent hruled as).2.trans hconfig, (hg.run as).answered⟩⟩

/-- A game that a bot opens by the first legal placement. The person answers, looks
back, and starts over. -/
theorem firstBot_answered : Bot.agent.Obliging .first ∧
    ∃ g, start Bot.agent .first ⟨true⟩ = .ok g ∧ g.config.human = .blue ∧
      (g.place Bot.agent ⟨0, 4⟩).2 = .ok [.placed ⟨0, 4⟩, .placed ⟨4, 0⟩] ∧
      (g.run Bot.agent [.place ⟨0, 4⟩, .review .previous rfl, .place ⟨4, 8⟩, .reset]).Answered
        Bot.agent := by
  obtain ⟨g, hstart, hanswered⟩ := start_answered Bot.first_obliging ⟨true⟩
  have hg : start Bot.agent .first ⟨true⟩ =
      .ok ⟨⟨true⟩, (Timeline.empty.play ⟨0, 0⟩).1, .first⟩ := rfl
  obtain rfl := Except.ok.inj (hg.symm.trans hstart)
  exact ⟨Bot.first_obliging, _, hstart, rfl, rfl, (hanswered _).2⟩

end Practice

end UltimateTicTacToe
