/-
# What the agents of a game are asked

A game between two agents is a row of calls: an agent is given the position and answers
with a placement, or with none. An agent may answer anything and remember anything, so all
that can be said of a game is said of its calls. To see them, each agent is given a
notebook (`Agent.noting`). It makes no difference to what the agent chooses, and two agents
that choose alike play the same game (`playOut_alike`); so what the notebooks hold in the
end are the calls of the game itself.

The calls of a game and what it comes to make up a `Transcript`, with one case for each way
in which it goes on or stops. Each fact about the calls is one induction along it: every
placement that is played takes a tile, so there are no more calls than tiles; the players
take turns; and the one thing that can go wrong is an answer that is not legal in the
position that was given.

Key definitions: `Call`, `Agent.noting`, `Transcript`.
Key theorems: `playOut_alike`, `transcript_playOut`, `Transcript.error_iff`,
`playGame_transcript`.
-/
import UltimateTicTacToe.Proofs.Match.Game
import UltimateTicTacToe.Proofs.Moves

namespace UltimateTicTacToe

/-- A call of an agent: the position that it was given, and what it chose. -/
structure Call where
  position : Position
  choice : Option Placement
  deriving DecidableEq, Repr

/-- The placements that the calls were answered with, in order. -/
def answers (calls : List Call) : List Placement := calls.filterMap Call.choice

/-- The agent with a notebook, in which it writes down every call. -/
def Agent.noting {σ : Type} (agent : Agent σ) : Agent (σ × List Call) where
  name := agent.name
  choose m s :=
    ((agent.choose m.1 s).1, (agent.choose m.1 s).2, m.2 ++ [⟨s, (agent.choose m.1 s).1⟩])
  reset m := (agent.reset m.1, m.2)

/-! ### Playing out, turn by turn -/

section PlayOut

variable {σ τ : Type} {agent : Agent σ} {m : σ} {t u : Timeline} {p : Placement}

theorem playOut_of_isOver (h : t.view.isOver = true) : playOut agent m t = (.ok t, m) := by
  rw [playOut, if_pos h]

theorem playOut_of_none (hover : ¬ t.view.isOver = true)
    (h : (agent.choose m t.view).1 = none) :
    playOut agent m t = (.ok t, (agent.choose m t.view).2) := by
  rw [playOut, if_neg hover]
  split
  · rename_i hm
    rw [hm]
  · rename_i hm
    rw [hm] at h
    cases h

theorem playOut_of_some (hover : ¬ t.view.isOver = true)
    (h : (agent.choose m t.view).1 = some p) :
    playOut agent m t = match t.play p with
      | (u, .ok _) => playOut agent (agent.choose m t.view).2 u
      | (_, .error f) => (.error f, (agent.choose m t.view).2) := by
  rw [playOut, if_neg hover]
  split
  · rename_i hm
    rw [hm] at h
    cases h
  · rename_i hm
    rw [hm] at h ⊢
    obtain rfl := Option.some.inj h
    split
    · rename_i hplay
      rw [hplay]
    · rename_i hplay
      rw [hplay]

/-- **Agents that choose alike play the same game**, and their memories go on matching. -/
theorem playOut_alike {a : Agent σ} {b : Agent τ} {R : σ → τ → Prop}
    (hstep : ∀ m n s, R m n → (b.choose n s).1 = (a.choose m s).1 ∧
      R (a.choose m s).2 (b.choose n s).2) {m : σ} {n : τ} (h : R m n) (t : Timeline) :
    (playOut b n t).1 = (playOut a m t).1 ∧ R (playOut a m t).2 (playOut b n t).2 := by
  fun_induction playOut a m t generalizing n with
  | case1 m t hover =>
    rw [playOut_of_isOver hover]
    exact ⟨rfl, h⟩
  | case2 m t hover m' hnone =>
    obtain ⟨hchoice, hmemory⟩ := hstep m n t.view h
    rw [hnone] at hchoice hmemory
    rw [playOut_of_none hover hchoice]
    exact ⟨rfl, hmemory⟩
  | case3 m t hover p m' hsome u outs hplay ih =>
    obtain ⟨hchoice, hmemory⟩ := hstep m n t.view h
    rw [hsome] at hchoice hmemory
    rw [playOut_of_some hover hchoice, hplay]
    exact ih hmemory
  | case4 m t hover p m' hsome u f hplay =>
    obtain ⟨hchoice, hmemory⟩ := hstep m n t.view h
    rw [hsome] at hchoice hmemory
    rw [playOut_of_some hover hchoice, hplay]
    exact ⟨rfl, hmemory⟩

end PlayOut

/-! ### Transcripts -/

/-- The calls of a game that is played on from `t`, in order, and what it comes to. -/
inductive Transcript : Timeline → List Call → Except Fault Timeline → Prop
  | ended {t : Timeline} : t.view.isOver = true → Transcript t [] (.ok t)
  /-- There is no choice, and the game stops. -/
  | stopped {t : Timeline} : ¬ t.view.isOver = true → Transcript t [⟨t.view, none⟩] (.ok t)
  | refused {t u : Timeline} {p : Placement} {f : Fault} : ¬ t.view.isOver = true →
      t.play p = (u, .error f) → Transcript t [⟨t.view, some p⟩] (.error f)
  | played {t u : Timeline} {p : Placement} {outs : List Event} {calls : List Call}
      {result : Except Fault Timeline} : ¬ t.view.isOver = true → t.play p = (u, .ok outs) →
      Transcript u calls result → Transcript t (⟨t.view, some p⟩ :: calls) result

/-- **What is written in the notebook is the transcript of the game.** -/
theorem transcript_playOut {σ : Type} (agent : Agent σ) (m : σ × List Call) (t : Timeline) :
    ∃ calls, (playOut agent.noting m t).2.2 = m.2 ++ calls ∧
      Transcript t calls (playOut agent.noting m t).1 := by
  fun_induction playOut agent.noting m t with
  | case1 m t hover => exact ⟨[], (List.append_nil _).symm, .ended hover⟩
  | case2 m t hover m' hnone =>
    obtain ⟨hchoice, rfl⟩ := Prod.mk.inj hnone
    exact ⟨[⟨t.view, none⟩], by rw [hchoice], .stopped hover⟩
  | case3 m t hover p m' hsome u outs hplay ih =>
    obtain ⟨hchoice, rfl⟩ := Prod.mk.inj hsome
    obtain ⟨calls, hnotes, hcalls⟩ := ih
    refine ⟨⟨t.view, some p⟩ :: calls, ?_, .played hover hplay hcalls⟩
    rw [hnotes, hchoice, List.append_assoc, List.singleton_append]
  | case4 m t hover p m' hsome u f hplay =>
    obtain ⟨hchoice, rfl⟩ := Prod.mk.inj hsome
    exact ⟨[⟨t.view, some p⟩], by rw [hchoice], .refused hover hplay⟩

namespace Timeline

/-- A game that goes on has taken fewer moves than there are tiles. -/
theorem Ruled.length_lt {t : Timeline} (h : t.Ruled) (hend : t.atEnd = true)
    (hover : ¬ t.view.isOver = true) : t.length < 81 := by
  have hle : t.length ≤ 81 := h.byRules.length_le
  have hplaced : t.view.placedCount = t.length := by
    rw [h.view_eq_final hend]
    exact h.byRules.placedCount_eq
  have hfull : t.length ≠ 81 := fun heq => hover (h.unblocked_view.full (hplaced.trans heq))
  omega

end Timeline

/-- What a call finds that comes after the calls `before`, in a game that is played on from
the end of `t`. -/
structure Call.Due (t : Timeline) (before : List Call) (c : Call) : Prop where
  undecided : c.position.winner = none
  turn : c.position.turn = mover (t.length + before.length)
  /-- The position is the one that the answers so far have led to. -/
  position : c.position = (t.run ((answers before).map .play)).view
  /-- The game has gone on after legal answers only. -/
  earlier : ∀ b ∈ before, ∃ p, b.choice = some p ∧ b.position.isPlayable p = true

/-- The first call comes at once. -/
theorem Call.due_first {t : Timeline} (ht : t.Ruled) (hend : t.atEnd = true)
    (hover : ¬ t.view.isOver = true) (choice : Option Placement) :
    Call.Due t [] ⟨t.view, choice⟩ where
  undecided := by simpa [Position.isOver] using hover
  turn := ht.turn_view hend
  position := rfl
  earlier := nofun

/-- So does the only one. -/
theorem Call.due_alone {t : Timeline} (ht : t.Ruled) (hend : t.atEnd = true)
    (hover : ¬ t.view.isOver = true) {choice : Option Placement} {before after : List Call}
    {c : Call} (hsplit : [⟨t.view, choice⟩] = before ++ c :: after) : c.Due t before := by
  obtain ⟨rfl, hlast⟩ := (List.append_eq_singleton_iff.mp hsplit.symm).resolve_right nofun
  obtain ⟨rfl, -⟩ := List.cons.inj hlast
  exact due_first ht hend hover choice

/-- A later call comes after the answer to the first has been played. -/
theorem Call.Due.after_play {t u : Timeline} {p : Placement} {outs : List Event}
    {before : List Call} {c : Call} (ht : t.Ruled) (hplay : t.play p = (u, .ok outs))
    (h : Call.Due u before c) : Call.Due t (⟨t.view, some p⟩ :: before) c := by
  obtain ⟨-, hp⟩ := ht.toCoherent.exists_play_ok_iff.mp ⟨outs, congrArg Prod.snd hplay⟩
  refine ⟨h.undecided, ?_, ?_, List.forall_mem_cons.mpr ⟨⟨p, rfl, hp⟩, h.earlier⟩⟩
  · rw [h.turn, ht.length_play hplay, List.length_cons, Nat.add_assoc, Nat.add_comm 1]
  · have hfirst : (t.perform (.play p)).1 = u := congrArg Prod.fst hplay
    show c.position = ((t.perform (.play p)).1.run ((answers before).map .play)).view
    rw [hfirst, h.position]

namespace Transcript

variable {t : Timeline} {calls : List Call} {result : Except Fault Timeline}

/-- **Each call comes in its turn**, on the position that the game has reached. -/
theorem due (h : Transcript t calls result) (ht : t.Ruled) (hend : t.atEnd = true)
    {before after : List Call} {c : Call} (hsplit : calls = before ++ c :: after) :
    c.Due t before := by
  induction h generalizing before with
  | ended _ => simp at hsplit
  | stopped hover => exact Call.due_alone ht hend hover hsplit
  | refused hover _ => exact Call.due_alone ht hend hover hsplit
  | @played t u p outs calls result hover hplay _ ih =>
    obtain ⟨hu, huend, -⟩ := ht.play_of_ok hplay
    cases before with
    | nil =>
      obtain ⟨rfl, -⟩ := List.cons.inj hsplit
      exact Call.due_first ht hend hover (some p)
    | cons b before =>
      obtain ⟨rfl, hrest⟩ := List.cons.inj hsplit
      exact (ih hu huend hrest).after_play ht hplay

/-- **There are no more calls than free tiles.** -/
theorem length_le (h : Transcript t calls result) (ht : t.Ruled) (hend : t.atEnd = true) :
    t.length + calls.length ≤ 81 := by
  induction h with
  | ended _ => exact ht.byRules.length_le
  | stopped hover => exact ht.length_lt hend hover
  | refused hover _ => exact ht.length_lt hend hover
  | @played t u p outs calls result _ hplay _ ih =>
    obtain ⟨hu, huend, -⟩ := ht.play_of_ok hplay
    have hlength := ht.length_play hplay
    have hrest := ih hu huend
    rw [List.length_cons]
    omega

/-- **A game fails on an answer that is not legal, and on nothing else.** -/
theorem error_iff (h : Transcript t calls result) (ht : t.Ruled) (hend : t.atEnd = true)
    (f : Fault) : result = .error f ↔ ∃ c ∈ calls, ∃ p, c.choice = some p ∧
      c.position.isPlayable p = false ∧ f = .illegalMove p := by
  induction h with
  | ended _ => simp
  | stopped _ => simp
  | @refused t u p f' _ hplay =>
    rcases ht.toCoherent.play_error_iff.mp (congrArg Prod.snd hplay) with
      ⟨hnot, -⟩ | ⟨-, hp, rfl⟩
    · rw [hend] at hnot
      cases hnot
    · simp only [List.mem_singleton, exists_eq_left, Option.some.injEq, exists_eq_left', hp,
        true_and, Except.error.injEq]
      exact eq_comm
  | @played t u p outs calls result _ hplay _ ih =>
    obtain ⟨hu, huend, -⟩ := ht.play_of_ok hplay
    obtain ⟨-, hp⟩ := ht.toCoherent.exists_play_ok_iff.mp ⟨outs, congrArg Prod.snd hplay⟩
    rw [ih hu huend]
    simp [hp]

/-- A game that does not fail records the answers, and stays undecided only if an agent
has had no choice. -/
theorem of_ok (h : Transcript t calls result) (ht : t.Ruled) (hend : t.atEnd = true)
    {v : Timeline} (hok : result = .ok v) :
    v.atEnd = true ∧ v.placements = t.placements ++ answers calls ∧
      (v.view.winner = none ↔ ∃ c, calls.getLast? = some c ∧ c.choice = none) := by
  induction h with
  | @ended t hover =>
    cases hok
    refine ⟨hend, (List.append_nil _).symm, ?_⟩
    simpa [Position.isOver, Option.isSome_iff_ne_none] using hover
  | @stopped t hover =>
    cases hok
    refine ⟨hend, (List.append_nil _).symm, ?_⟩
    simpa [Position.isOver] using hover
  | refused _ _ => cases hok
  | @played t u p outs calls result _ hplay hcalls ih =>
    obtain ⟨hu, huend, hmoves, -, -⟩ := ht.play_of_ok hplay
    obtain ⟨hvend, hvplacements, hvwinner⟩ := ih hu huend hok
    have hplacements : u.placements = t.placements ++ [p] := by
      simp [Timeline.placements, hmoves]
    refine ⟨hvend, ?_, ?_⟩
    · rw [hvplacements, hplacements, List.append_assoc]
      rfl
    · rw [hvwinner]
      cases calls with
      | nil => simp
      | cons c calls => simp

end Transcript

/-! ### Games between two agents -/

section Two

variable {σ τ : Type} (red : Agent σ) (blue : Agent τ)

/-- The calls in which it was the player's turn. -/
def callsOf (player : Player) (calls : List Call) : List Call :=
  calls.filter fun c => c.position.turn = player

/-- A game does not depend on what is written down. -/
theorem playOut_noting {σ : Type} (agent : Agent σ) (m : σ) (t : Timeline) :
    (playOut agent m t).1 = (playOut agent.noting (m, []) t).1 ∧
      (playOut agent m t).2 = (playOut agent.noting (m, []) t).2.1 := by
  have h := playOut_alike (a := agent.noting) (b := agent) (R := fun m n => n = m.1)
    (fun m n s h => by rw [h]; exact ⟨rfl, rfl⟩) (m := (m, [])) rfl t
  exact h

/-- Two notebooks hold what one for both players would hold. -/
theorem playOut_versus_noting (r : σ) (b : τ) (t : Timeline) :
    let both := playOut (red.versus blue).noting ((r, b), []) t
    playOut (red.noting.versus blue.noting) ((r, []), (b, [])) t =
      (both.1, (both.2.1.1, callsOf .red both.2.2), (both.2.1.2, callsOf .blue both.2.2)) := by
  intro both
  have h := playOut_alike (a := (red.versus blue).noting) (b := red.noting.versus blue.noting)
    (R := fun m n => n = ((m.1.1, callsOf .red m.2), (m.1.2, callsOf .blue m.2)))
    (fun m n s h => by
      subst h
      cases hs : s.turn with
      | red => simp [Agent.noting, Agent.versus, callsOf, hs]
      | blue => simp [Agent.noting, Agent.versus, callsOf, hs])
    (m := ((r, b), [])) rfl t
  exact Prod.ext h.1 h.2

/-- **What the agents of a game are asked**, whatever they answer and remember: there are
no more calls than tiles, and the players are asked in turn, Red first, always with the
undecided position that the answers so far have led to. The game fails on an answer that is
not legal there, and on nothing else; otherwise its record is that of the answers, and it
stays undecided only if there has been no choice in the end. -/
theorem playGame_transcript (r : σ) (b : τ) :
    let game := playGame red blue r b
    ∃ calls : List Call,
      playGame red.noting blue.noting (r, []) (b, []) =
        (game.1, (game.2.1, callsOf .red calls), (game.2.2, callsOf .blue calls)) ∧
      calls.length ≤ 81 ∧
      (∀ before c after, calls = before ++ c :: after → c.Due .empty before) ∧
      (∀ f, game.1 = .error f ↔ ∃ c ∈ calls, ∃ p, c.choice = some p ∧
        c.position.isPlayable p = false ∧ f = .illegalMove p) ∧
      (∀ t, game.1 = .ok t → t.atEnd = true ∧ t.placements = answers calls ∧
        (t.view.winner = none ↔ ∃ c, calls.getLast? = some c ∧ c.choice = none)) := by
  intro game
  obtain ⟨calls, hnotes, hcalls⟩ := transcript_playOut (red.versus blue) ((r, b), []) .empty
  obtain ⟨hresult, hmemory⟩ := playOut_noting (red.versus blue) (r, b) .empty
  rw [← hresult] at hcalls
  refine ⟨calls, ?_, ?_, ?_, ?_, ?_⟩
  · have htwo := playOut_versus_noting red blue r b .empty
    simp only [hnotes, List.nil_append, ← hresult, ← hmemory] at htwo
    exact htwo
  · have hle := hcalls.length_le Timeline.ruled_empty rfl
    rwa [show Timeline.empty.length = 0 from rfl, Nat.zero_add] at hle
  · exact fun before c after => hcalls.due Timeline.ruled_empty rfl
  · exact hcalls.error_iff Timeline.ruled_empty rfl
  · exact fun t => hcalls.of_ok Timeline.ruled_empty rfl

end Two

end UltimateTicTacToe
