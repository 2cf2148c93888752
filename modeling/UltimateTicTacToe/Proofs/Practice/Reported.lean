/-
# A call on a practice game records what it reports

A call that places a tile can end in four ways. The person's half is refused, if an earlier
position is on view or the tile is not legal; then nothing has changed, and the agent was
not asked. The tile decides the game, or the agent answers it; then what the call reports
is what has joined the record. Or the agent's answer is refused; then the fault names the
agent's tile, and the person's tile has joined the record with all the outcomes it has.
So it is with any agent (`Practice.Records`).

Since a refused call changes neither the record nor the agent, it makes no difference to
the others. They find the same games, and so do the same, when refused calls are put in
between or left out (`Practice.calls_heeded`).

Key definitions: `Practice.refuses`, `Practice.calls`, `Practice.heeded`,
`Practice.Records`.
Key theorems: `Practice.place_of_refuses`, `Practice.events_place`, `Practice.place_error`,
`Practice.calls_heeded`, `Practice.start_records`.
-/
import UltimateTicTacToe.Proofs.Practice.Turns

namespace UltimateTicTacToe
namespace Practice

variable {σ : Type} {agent : Agent σ} {g : Practice σ}

/-! ### The person's half -/

/-- Whether the person's half of the call is refused: an earlier position is on view, or
the tile is not legal. -/
def refuses (g : Practice σ) : PracticeAction → Bool
  | .place p => !(g.timeline.atEnd && g.timeline.view.isPlayable p)
  | _ => false

/-- A refused call leaves the game as it was, with what the agent remembers. -/
theorem place_of_refuses (h : g.timeline.Ruled) {p : Placement}
    (hp : g.refuses (.place p) = true) : g.place agent p =
      (g, .error (if g.timeline.atEnd then .illegalMove p else .reviewing)) := by
  cases hend : g.timeline.atEnd with
  | false => exact place_unchanged h (Timeline.play_of_not_atEnd hend p)
  | true =>
    have hlegal : g.timeline.view.isPlayable p = false := by simpa [refuses, hend] using hp
    exact place_unchanged h (Timeline.play_of_not_isPlayable hend hlegal)

/-- A tile that is not refused is recorded with all the outcomes that it has. -/
theorem exists_play_of_not_refuses (h : g.timeline.Ruled) {p : Placement}
    (hp : g.refuses (.place p) = false) : ∃ t,
      g.timeline.play p = (t, .ok (g.timeline.view.place p).findWins) ∧ t.Ruled ∧
        t.atEnd = true ∧
        t.events = g.timeline.events ++ .placed p :: (g.timeline.view.place p).findWins := by
  obtain ⟨hend, hlegal⟩ : g.timeline.atEnd = true ∧ g.timeline.view.isPlayable p = true := by
    simpa [refuses] using hp
  obtain ⟨s, -, hplay⟩ := h.toCoherent.exists_play_eq hend hlegal
  obtain ⟨ht, htend, -, hevents, -⟩ := h.play_of_ok hplay
  exact ⟨_, hplay, ht, htend, hevents⟩

/-! ### The agent's half -/

/-- What the agent's half reports has joined the record. -/
theorem events_agentTurn (h : g.timeline.Ruled) {es : List Event}
    (hes : (g.agentTurn agent).2 = .ok es) :
    (g.agentTurn agent).1.timeline.events = g.timeline.events ++ es := by
  cases hchoice : (agent.choose g.memory g.timeline.view).1 with
  | none =>
    rw [agentTurn_of_none hchoice] at hes ⊢
    obtain rfl := Except.ok.inj hes
    exact (List.append_nil _).symm
  | some q =>
    rw [agentTurn_of_some hchoice] at hes ⊢
    rcases hplay : g.timeline.play q with ⟨t, f | outs⟩
    · rw [hplay] at hes
      cases hes
    · rw [hplay] at hes
      obtain rfl := Except.ok.inj hes
      exact (h.play_of_ok hplay).2.2.2.1

/-- The agent's half fails for the agent's tile, and changes nothing but what the agent
remembers. -/
theorem agentTurn_error (h : g.timeline.Ruled) (hend : g.timeline.atEnd = true) {f : Fault}
    (hf : (g.agentTurn agent).2 = .error f) : ∃ q,
      (agent.choose g.memory g.timeline.view).1 = some q ∧
        g.timeline.view.isPlayable q = false ∧ f = .illegalMove q ∧
        (g.agentTurn agent).1 =
          { g with memory := (agent.choose g.memory g.timeline.view).2 } := by
  cases hchoice : (agent.choose g.memory g.timeline.view).1 with
  | none =>
    rw [agentTurn_of_none hchoice] at hf
    cases hf
  | some q =>
    rw [agentTurn_of_some hchoice] at hf ⊢
    rcases hplay : g.timeline.play q with ⟨t, f' | outs⟩
    · rw [hplay] at hf
      obtain rfl := Except.error.inj hf
      have hfault := congrArg Prod.snd hplay
      have hsame := h.toCoherent.play_unchanged hfault
      rcases h.toCoherent.play_error_iff.mp hfault with ⟨hnot, -⟩ | ⟨-, hq, hillegal⟩
      · rw [hend] at hnot
        cases hnot
      · rw [hplay] at hsame
        exact ⟨q, rfl, hq, hillegal, by rw [hsame]⟩
    · rw [hplay] at hf
      cases hf

/-! ### Whole calls -/

/-- **What a call reports has joined the record.** -/
theorem events_place (h : g.timeline.Ruled) {p : Placement} {es : List Event}
    (hes : (g.place agent p).2 = .ok es) :
    (g.place agent p).1.timeline.events = g.timeline.events ++ es := by
  cases hp : g.refuses (.place p) with
  | true =>
    rw [place_of_refuses h hp] at hes
    cases hes
  | false =>
    obtain ⟨t, hplay, ht, -, hevents⟩ := exists_play_of_not_refuses h hp
    rw [place_of_play_ok hplay] at hes ⊢
    split at hes
    · rename_i hover
      obtain rfl := Except.ok.inj hes
      rw [if_pos hover]
      exact hevents
    · rename_i hover
      rw [if_neg hover]
      cases hanswer : (agentTurn agent { g with timeline := t }).2 with
      | error f =>
        rw [hanswer] at hes
        cases hes
      | ok answer =>
        have hagent := events_agentTurn (g := { g with timeline := t }) ht hanswer
        rw [hanswer] at hes
        obtain rfl := Except.ok.inj hes
        rw [hagent, hevents, List.append_assoc]

/-- The person's tile `p` is recorded, with all the outcomes that it has and nothing else,
and the agent's answer to it is refused for the tile that it names. -/
structure LeavesUnanswered (agent : Agent σ) (g : Practice σ) (p : Placement) (f : Fault) :
    Prop where
  events : (g.place agent p).1.timeline.events =
    g.timeline.events ++ .placed p :: (g.timeline.view.place p).findWins
  played : (g.place agent p).1.timeline = (g.timeline.play p).1
  answer : ∃ q, (agent.choose g.memory (g.timeline.play p).1.view).1 = some q ∧
    (g.timeline.play p).1.view.isPlayable q = false ∧ f = .illegalMove q
  memory : (g.place agent p).1.memory =
    (agent.choose g.memory (g.timeline.play p).1.view).2

/-- **A call that fails after the person's half** has recorded that half whole. -/
theorem place_error (h : g.timeline.Ruled) {p : Placement} {f : Fault}
    (hp : g.refuses (.place p) = false) (hf : (g.place agent p).2 = .error f) :
    g.LeavesUnanswered agent p f := by
  obtain ⟨t, hplay, ht, htend, hevents⟩ := exists_play_of_not_refuses h hp
  by_cases hover : t.view.isOver = true
  · rw [place_of_play_ok hplay, if_pos hover] at hf
    cases hf
  · have hplace : g.place agent p = _ := (place_of_play_ok hplay).trans (if_neg hover)
    have hagent : (agentTurn agent { g with timeline := t }).2 = .error f := by
      rw [hplace] at hf
      cases hanswer : (agentTurn agent { g with timeline := t }).2 with
      | error f' =>
        rw [hanswer] at hf
        exact hf
      | ok answer =>
        rw [hanswer] at hf
        cases hf
    obtain ⟨q, hchoice, hq, hfault, hgame⟩ :=
      agentTurn_error (g := { g with timeline := t }) ht htend hagent
    rw [hgame] at hplace
    refine ⟨?_, ?_, ⟨q, ?_, ?_, hfault⟩, ?_⟩
    · rw [hplace]
      exact hevents
    · rw [hplace, hplay]
    · rw [hplay]
      exact hchoice
    · rw [hplay]
      exact hq
    · rw [hplace, hplay]

/-! ### Calls in between -/

/-- The calls one after the other, each with the game that it finds. What the call answers
and what it leaves follows from that. -/
def calls (agent : Agent σ) : Practice σ → List PracticeAction →
    List (Practice σ × PracticeAction)
  | _, [] => []
  | g, a :: as => (g, a) :: calls agent (g.perform agent a) as

/-- The calls that are not refused. -/
def heeded (agent : Agent σ) : Practice σ → List PracticeAction → List PracticeAction
  | _, [] => []
  | g, a :: as =>
    if g.refuses a then heeded agent (g.perform agent a) as
    else a :: heeded agent (g.perform agent a) as

theorem run_append (as bs : List PracticeAction) :
    g.run agent (as ++ bs) = (g.run agent as).run agent bs := by
  induction as generalizing g with
  | nil => rfl
  | cons a as ih => exact ih

theorem calls_append (as bs : List PracticeAction) :
    calls agent g (as ++ bs) = calls agent g as ++ calls agent (g.run agent as) bs := by
  induction as generalizing g with
  | nil => rfl
  | cons a as ih => exact congrArg ((g, a) :: ·) ih

theorem perform_of_refuses (h : g.timeline.Ruled) {a : PracticeAction}
    (ha : g.refuses a = true) : g.perform agent a = g := by
  cases a with
  | place p => rw [perform, place_of_refuses h ha]
  | reset => cases ha
  | review step hb => cases ha

/-- **Refused calls can be left out.** The others find the same games then, and the same
game is left. -/
theorem calls_heeded (h : g.timeline.Ruled) (as : List PracticeAction) :
    calls agent g (heeded agent g as) =
        (calls agent g as).filter (fun c => !c.1.refuses c.2) ∧
      g.run agent (heeded agent g as) = g.run agent as := by
  induction as generalizing g with
  | nil => exact ⟨rfl, rfl⟩
  | cons a as ih =>
    obtain ⟨hcalls, hrun⟩ := ih (ruled_perform agent h a)
    rw [heeded, calls, run]
    cases ha : g.refuses a with
    | true =>
      rw [if_pos rfl, List.filter_cons_of_neg (by simp [ha])]
      rw [perform_of_refuses h ha] at hcalls hrun ⊢
      exact ⟨hcalls, hrun⟩
    | false =>
      rw [if_neg nofun, List.filter_cons_of_pos (by simp [ha]), ← hcalls]
      exact ⟨rfl, hrun⟩

/-- A refused call that is put in between finds the game as the next call does without it,
and makes no difference to any other. -/
theorem calls_insert (h : g.timeline.Ruled) {as bs : List PracticeAction} {a : PracticeAction}
    (ha : (g.run agent as).refuses a = true) :
    calls agent g (as ++ a :: bs) =
        calls agent g as ++ (g.run agent as, a) :: calls agent (g.run agent as) bs ∧
      calls agent g (as ++ bs) = calls agent g as ++ calls agent (g.run agent as) bs ∧
      g.run agent (as ++ a :: bs) = g.run agent (as ++ bs) := by
  have hsame : (g.run agent as).perform agent a = g.run agent as :=
    perform_of_refuses (ruled_run agent h as).1 ha
  refine ⟨?_, calls_append as bs, ?_⟩
  · rw [calls_append, calls, hsame]
  · rw [run_append, run_append, run, hsame]

/-! ### Every game -/

/-- What the calls on a practice game record, and how they fail. -/
structure Records (agent : Agent σ) (g : Practice σ) : Prop where
  /-- What a call reports has joined the record, and nothing else has. -/
  reported : ∀ p es, (g.place agent p).2 = .ok es →
    (g.place agent p).1.timeline.events = g.timeline.events ++ es
  /-- While an earlier position is on view, a call changes nothing, nor what the agent
  remembers. -/
  reviewing : ∀ p, g.timeline.atEnd = false → g.place agent p = (g, .error .reviewing)
  /-- A call for a tile that is not legal changes nothing, nor what the agent remembers. -/
  illegal : ∀ p, g.timeline.atEnd = true → g.timeline.view.isPlayable p = false →
    g.place agent p = (g, .error (.illegalMove p))
  /-- Any other call fails for the agent's answer only, when all of the person's half is
  recorded. -/
  unanswered : ∀ p f, g.timeline.atEnd = true → g.timeline.view.isPlayable p = true →
    (g.place agent p).2 = .error f → g.LeavesUnanswered agent p f
  /-- A refused call can be put in between any others. -/
  inserted : ∀ as p bs, (g.run agent as).refuses (.place p) = true →
    calls agent g (as ++ .place p :: bs) =
        calls agent g as ++ (g.run agent as, .place p) :: calls agent (g.run agent as) bs ∧
      calls agent g (as ++ bs) = calls agent g as ++ calls agent (g.run agent as) bs ∧
      g.run agent (as ++ .place p :: bs) = g.run agent (as ++ bs)
  /-- All refused calls can be left out together. -/
  leftOut : ∀ as,
    calls agent g (heeded agent g as) =
        (calls agent g as).filter (fun c => !c.1.refuses c.2) ∧
      g.run agent (heeded agent g as) = g.run agent as

theorem records_of_ruled (h : g.timeline.Ruled) : g.Records agent where
  reported _ _ hes := events_place h hes
  reviewing p hend := by
    have hrefused : g.refuses (.place p) = true := by simp [refuses, hend]
    rw [place_of_refuses h hrefused, hend]
    rfl
  illegal p hend hlegal := by
    have hrefused : g.refuses (.place p) = true := by simp [refuses, hlegal]
    rw [place_of_refuses h hrefused, hend]
    rfl
  unanswered _ _ hend hlegal hf := place_error h (by simp [refuses, hend, hlegal]) hf
  inserted _ _ _ hp := calls_insert h hp
  leftOut := calls_heeded h

/-- **A call records exactly what it reports**, with any agent and in every game that is
begun, played, begun again and gone through. If the person's half is refused, nothing
changes and no other call is influenced; if the agent's answer is refused, the person's
half is recorded whole. -/
theorem start_records (agent : Agent σ) {m : σ} {c : PracticeConfig} {g₀ : Practice σ}
    (hstart : start agent m c = .ok g₀) (as : List PracticeAction) :
    (g₀.run agent as).Records agent :=
  records_of_ruled (ruled_run agent (ruled_start hstart).1 as).1

/-- A call while the empty board is on view, a call for a tile that is taken, one for a tile
to which the bot has no legal answer, and one to which it has none at all. -/
def stubbornCalls : List PracticeAction :=
  [.review .goToBeginning rfl, .place ⟨4, 0⟩, .review .goToEnd rfl, .place ⟨4, 4⟩,
    .place ⟨4, 0⟩, .place ⟨0, 4⟩]

theorem stubbornGame_records :
    start Bot.agent stubborn ⟨true⟩ = .ok stubbornGame ∧ stubbornGame.Records Bot.agent ∧
    (stubbornGame.place Bot.agent ⟨4, 0⟩).2 = .error (.illegalMove ⟨4, 4⟩) ∧
    (stubbornGame.place Bot.agent ⟨4, 0⟩).1.timeline.events = [.placed ⟨4, 4⟩, .placed ⟨4, 0⟩] ∧
    stubbornGame.run Bot.agent [.review .goToBeginning rfl, .review .goToEnd rfl,
      .place ⟨4, 0⟩, .place ⟨0, 4⟩] = stubbornGame.run Bot.agent stubbornCalls := by
  have hstart : start Bot.agent stubborn ⟨true⟩ = .ok stubbornGame := rfl
  have hrecords : stubbornGame.Records Bot.agent := start_records Bot.agent hstart []
  have hfault : (stubbornGame.place Bot.agent ⟨4, 0⟩).2 = .error (.illegalMove ⟨4, 4⟩) := rfl
  have hunanswered := hrecords.unanswered ⟨4, 0⟩ _ rfl rfl hfault
  exact ⟨hstart, hrecords, hfault, hunanswered.events, (hrecords.leftOut stubbornCalls).2⟩

end Practice

end UltimateTicTacToe
