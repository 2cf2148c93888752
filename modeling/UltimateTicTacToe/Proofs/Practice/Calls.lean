/-
# Calls on a practice game

A person places tiles, starts over, and looks back at what has been played. A call has
up to two halves, the person's and the agent's, and each of them is one move of the
game or none; so a practice game goes by the rules whatever the agent answers
(`Practice.ruled_run`). Whether there is a second half is left open here: an agent may
have no choice, or choose what is not legal.

Key definitions: `PracticeAction`, `Practice.perform`, `Practice.run`.
Key theorems: `Practice.place_of_play_ok`, `Practice.ruled_run`.
-/
import UltimateTicTacToe.Agent.Practice
import UltimateTicTacToe.Proofs.Moves

namespace UltimateTicTacToe

/-! ### What can be done -/

theorem Operation.keepsToRules_of_browses {o : Operation} (h : o.browses = true) :
    o.keepsToRules = true := by
  cases o with
  | addEvent e => cases h
  | addEvents es => cases h
  | _ => rfl

/-- Something that is done to a practice game. Its record can be gone through, and
changes by placements and new games only. -/
inductive PracticeAction where
  | place (placement : Placement)
  | reset
  | review (step : Operation) (browses : step.browses = true)

namespace Practice

variable {σ : Type}

/-- The game after an action, whether it succeeds or not. -/
def perform (agent : Agent σ) (g : Practice σ) : PracticeAction → Practice σ
  | .place p => (g.place agent p).1
  | .reset => (g.reset agent).1
  | .review step _ => { g with timeline := (g.timeline.perform step).1 }

/-- The game after several actions. -/
def run (agent : Agent σ) (g : Practice σ) : List PracticeAction → Practice σ
  | [] => g
  | a :: as => (g.perform agent a).run agent as

/-! ### The agent's half -/

variable {agent : Agent σ} {g : Practice σ}

theorem agentTurn_of_none (h : (agent.choose g.memory g.timeline.view).1 = none) :
    g.agentTurn agent =
      ({ g with memory := (agent.choose g.memory g.timeline.view).2 }, .ok []) := by
  unfold agentTurn
  split
  · rename_i m hm
    rw [hm]
  · rename_i hm
    rw [hm] at h
    cases h

theorem agentTurn_of_some {p : Placement}
    (h : (agent.choose g.memory g.timeline.view).1 = some p) :
    g.agentTurn agent =
      ({ g with
          memory := (agent.choose g.memory g.timeline.view).2
          timeline := (g.timeline.play p).1 },
        (g.timeline.play p).2.map (.placed p :: ·)) := by
  unfold agentTurn
  split
  · rename_i hm
    rw [hm] at h
    cases h
  · rename_i q m hm
    rw [hm] at h ⊢
    obtain rfl := Option.some.inj h
    rcases hplay : g.timeline.play q with ⟨u, _ | _⟩
    · rfl
    · rfl

/-- The agent's half plays one placement, or none. -/
theorem timeline_agentTurn (agent : Agent σ) (g : Practice σ) :
    (g.agentTurn agent).1.timeline = g.timeline ∨
      ∃ p, (g.agentTurn agent).1.timeline = (g.timeline.play p).1 := by
  cases h : (agent.choose g.memory g.timeline.view).1 with
  | none => exact Or.inl (by rw [agentTurn_of_none h])
  | some p => exact Or.inr ⟨p, by rw [agentTurn_of_some h]⟩

@[simp] theorem config_agentTurn (agent : Agent σ) (g : Practice σ) :
    (g.agentTurn agent).1.config = g.config := by
  cases h : (agent.choose g.memory g.timeline.view).1 with
  | none => rw [agentTurn_of_none h]
  | some p => rw [agentTurn_of_some h]

/-! ### Whole calls -/

theorem opening_of_agentFirst (h : g.config.agentFirst = true) :
    g.opening agent = ((g.agentTurn agent).1, (g.agentTurn agent).2.map fun _ => ()) := by
  rw [opening, if_pos h]
  rcases g.agentTurn agent with ⟨u, _ | _⟩
  · rfl
  · rfl

theorem opening_of_not_agentFirst (h : g.config.agentFirst = false) :
    g.opening agent = (g, .ok ()) := by
  rw [opening, if_neg (by simp [h])]

theorem start_eq_ok {m : σ} {c : PracticeConfig} :
    start agent m c = .ok g ↔ opening agent ⟨c, .empty, m⟩ = (g, .ok ()) := by
  unfold start
  rcases opening agent ⟨c, .empty, m⟩ with ⟨u, f | -⟩
  · simp
  · simp

/-- A placement that is not played ends the call, and the agent is not asked. -/
theorem place_of_play_error {p : Placement} {t : Timeline} {f : Fault}
    (h : g.timeline.play p = (t, .error f)) :
    g.place agent p = ({ g with timeline := t }, .error f) := by
  by_cases hend : g.timeline.atEnd = true
  · rw [place, hend, h]
    rfl
  · rw [Timeline.play_of_not_atEnd (by simpa using hend)] at h
    cases h
    rw [place, if_pos (by simpa using hend)]

/-- A placement that is played is answered by the agent, unless it decides the game. -/
theorem place_of_play_ok {p : Placement} {t : Timeline} {outs : List Event}
    (h : g.timeline.play p = (t, .ok outs)) :
    g.place agent p =
      if t.view.isOver then ({ g with timeline := t }, .ok (.placed p :: outs))
      else
        ((agentTurn agent { g with timeline := t }).1,
          (agentTurn agent { g with timeline := t }).2.map (.placed p :: outs ++ ·)) := by
  have hend : g.timeline.atEnd = true := by
    by_contra hend
    rw [Timeline.play_of_not_atEnd (by simpa using hend)] at h
    cases h
  rw [place, hend, h]
  simp only [Bool.not_true, Bool.false_eq_true, if_false]
  split
  · rfl
  · rcases agentTurn agent { g with timeline := t } with ⟨u, _ | _⟩
    · rfl
    · rfl

/-- A placement that is not played changes nothing. -/
theorem place_unchanged {p : Placement} {t : Timeline} {f : Fault} (hg : g.timeline.Ruled)
    (h : g.timeline.play p = (t, .error f)) : g.place agent p = (g, .error f) := by
  have hsame : t = g.timeline := by
    rw [← hg.toCoherent.play_unchanged (congrArg Prod.snd h), h]
  rw [place_of_play_error h, hsame]

/-- A call that succeeds has recorded the person's tile. -/
theorem exists_play_ok_of_place {p : Placement} {es : List Event}
    (h : (g.place agent p).2 = .ok es) : ∃ outs, (g.timeline.play p).2 = .ok outs := by
  rcases hplay : g.timeline.play p with ⟨t, f | outs⟩
  · rw [place_of_play_error hplay] at h
    cases h
  · exact ⟨outs, rfl⟩

@[simp] theorem config_opening (agent : Agent σ) (g : Practice σ) :
    (g.opening agent).1.config = g.config := by
  cases h : g.config.agentFirst with
  | true => rw [opening_of_agentFirst h, config_agentTurn]
  | false => rw [opening_of_not_agentFirst h]

@[simp] theorem config_reset (agent : Agent σ) (g : Practice σ) :
    (g.reset agent).1.config = g.config := config_opening agent _

@[simp] theorem config_place (agent : Agent σ) (g : Practice σ) (p : Placement) :
    (g.place agent p).1.config = g.config := by
  rcases hplay : g.timeline.play p with ⟨t, f | outs⟩
  · rw [place_of_play_error hplay]
  · rw [place_of_play_ok hplay]
    split
    · rfl
    · exact config_agentTurn agent _

/-- The set-up of a game never changes. -/
@[simp] theorem config_perform (agent : Agent σ) (g : Practice σ) (a : PracticeAction) :
    (g.perform agent a).config = g.config := by
  cases a with
  | place p => exact config_place agent g p
  | reset => exact config_reset agent g
  | review step _ => rfl

/-! ### Games by the rules -/

theorem ruled_agentTurn (agent : Agent σ) (h : g.timeline.Ruled) :
    (g.agentTurn agent).1.timeline.Ruled := by
  rcases g.timeline_agentTurn agent with heq | ⟨p, heq⟩
  · rw [heq]
    exact h
  · rw [heq]
    exact h.play p

theorem ruled_opening (agent : Agent σ) (h : g.timeline.Ruled) :
    (g.opening agent).1.timeline.Ruled := by
  cases hfirst : g.config.agentFirst with
  | true =>
    rw [opening_of_agentFirst hfirst]
    exact ruled_agentTurn agent h
  | false =>
    rw [opening_of_not_agentFirst hfirst]
    exact h

theorem ruled_place (agent : Agent σ) (h : g.timeline.Ruled) (p : Placement) :
    (g.place agent p).1.timeline.Ruled := by
  have hplayed := h.play p
  rcases hplay : g.timeline.play p with ⟨t, f | outs⟩
  · rw [hplay] at hplayed
    rw [place_of_play_error hplay]
    exact hplayed
  · rw [hplay] at hplayed
    rw [place_of_play_ok hplay]
    split
    · exact hplayed
    · exact ruled_agentTurn agent (g := { g with timeline := t }) hplayed

/-- What the agent does comes after the moves so far, and is one move at most. -/
theorem moves_agentTurn (agent : Agent σ) (h : g.timeline.Ruled) :
    (g.agentTurn agent).1.timeline = g.timeline ∨
      ∃ m, (g.agentTurn agent).1.timeline.moves = g.timeline.moves ++ [m] := by
  rcases g.timeline_agentTurn agent with heq | ⟨p, heq⟩
  · exact Or.inl heq
  · rcases hplay : g.timeline.play p with ⟨t, f | outs⟩
    · exact Or.inl (heq.trans (h.toCoherent.play_unchanged (congrArg Prod.snd hplay)))
    · obtain ⟨-, -, hmoves, -, -⟩ := h.play_of_ok hplay
      rw [hplay] at heq
      exact Or.inr ⟨_, by rw [heq, hmoves]⟩

/-- A tile that is placed is the next move. -/
theorem moves_place (agent : Agent σ) (h : g.timeline.Ruled) {p : Placement} {t : Timeline}
    {outs : List Event} (hplay : g.timeline.play p = (t, .ok outs)) :
    g.timeline.moves ++ [⟨p, outs⟩] <+: (g.place agent p).1.timeline.moves := by
  obtain ⟨ht, -, hmoves, -, -⟩ := h.play_of_ok hplay
  rw [place_of_play_ok hplay, ← hmoves]
  split
  · exact List.prefix_refl _
  · rcases moves_agentTurn agent (g := { g with timeline := t }) ht with heq | ⟨m, hm⟩
    · rw [heq]
    · rw [hm]
      exact List.prefix_append _ _

/-- The person's tile is taken by the player to move. -/
theorem owner_place_eq_turn (agent : Agent σ) (h : g.timeline.Ruled) {p : Placement}
    {outs : List Event} (hok : (g.timeline.play p).2 = .ok outs) :
    (g.place agent p).1.timeline.final.owner p = some g.timeline.final.turn := by
  obtain ⟨more, hmore⟩ := moves_place agent h (p := p) (Prod.ext rfl hok)
  have hmove : (g.place agent p).1.timeline.moves[g.timeline.moves.length]? = some ⟨p, outs⟩ := by
    rw [← hmore, List.append_assoc, List.getElem?_append_right (Nat.le_refl _), Nat.sub_self]
    rfl
  rw [(ruled_place agent h p).owner_final hmove, h.turn_final]
  rfl

/-- Every action keeps to the rules, whatever the agent answers. -/
theorem ruled_perform (agent : Agent σ) (h : g.timeline.Ruled) (a : PracticeAction) :
    (g.perform agent a).timeline.Ruled := by
  cases a with
  | place p => exact ruled_place agent h p
  | reset => exact ruled_opening agent Timeline.ruled_empty
  | review step hb => exact h.perform (Operation.keepsToRules_of_browses hb)

/-- A new game is one by the rules, and is set up as it was asked for. -/
theorem ruled_start {m : σ} {c : PracticeConfig} (h : start agent m c = .ok g) :
    g.timeline.Ruled ∧ g.config = c := by
  have hruled := ruled_opening agent (g := ⟨c, .empty, m⟩) Timeline.ruled_empty
  have hconfig := config_opening agent ⟨c, .empty, m⟩
  rw [start_eq_ok.mp h] at hruled hconfig
  exact ⟨hruled, hconfig⟩

/-- **A practice game goes by the rules**, whatever the agent answers and whatever is
done to the game. -/
theorem ruled_run (agent : Agent σ) (h : g.timeline.Ruled) (as : List PracticeAction) :
    (g.run agent as).timeline.Ruled ∧ (g.run agent as).config = g.config := by
  induction as generalizing g with
  | nil => exact ⟨h, rfl⟩
  | cons a as ih =>
    obtain ⟨hruled, hconfig⟩ := ih (ruled_perform agent h a)
    exact ⟨hruled, hconfig.trans (config_perform agent g a)⟩

end Practice

end UltimateTicTacToe
