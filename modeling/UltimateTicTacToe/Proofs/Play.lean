/-
# Games that are played by the rules

`Timeline.addEvent` takes outcomes on trust, `Timeline.play` finds them itself. So
a timeline that was only ever played on, cleared and gone through holds a game by
the rules (`ByRules`): each move is a placement that was legal in the position
before it, with the outcomes that the scan finds after it. In such a game every
position on the way is settled, and so is the one on view wherever the cursor is
(`Timeline.run_settled`).

Playing never stops half-way: a legal placement is recorded with all the outcomes
that are found, and any other changes nothing (`Timeline.Coherent.play_eq`).

Key definitions: `ByRules`, `Operation.keepsToRules`, `Timeline.Ruled`.
Key theorems: `ByRules.settled`, `Timeline.Coherent.play_eq`,
`Timeline.Ruled.perform`, `Timeline.run_settled`.
-/
import UltimateTicTacToe.Proofs.Cursor
import UltimateTicTacToe.Proofs.Settled

namespace UltimateTicTacToe

/-- The moves are a game that was played by the rules, and the position is the one
that they lead to. -/
inductive ByRules : List Move → Position → Prop
  | start : ByRules [] .start
  | move {ms : List Move} {s t : Position} {p : Placement} : ByRules ms s →
      s.isPlayable p = true → (s.place p).replay (s.place p).findWins = .ok t →
      ByRules (ms ++ [⟨p, (s.place p).findWins⟩]) t

/-- The placements among the events of moves are those of the moves. -/
theorem Move.placementsOf_events {ms : List Move} (h : ∀ m ∈ ms, m.Proper) :
    placementsOf (ms.flatMap Move.events) = ms.map (·.placement) := by
  induction ms with
  | nil => rfl
  | cons m ms ih =>
    obtain ⟨hm, hms⟩ := List.forall_mem_cons.mp h
    have hmove : placementsOf m.events = [m.placement] :=
      congrArg (m.placement :: ·) (placementsOf_eq_nil hm)
    rw [List.flatMap_cons, placementsOf, List.filterMap_append, List.map_cons, ← ih hms]
    exact congrArg (· ++ _) hmove

namespace ByRules

/-- The moves of a game by the rules are proper. -/
theorem proper {ms : List Move} {s : Position} (h : ByRules ms s) : ∀ m ∈ ms, m.Proper := by
  induction h with
  | start => exact fun _ h => nomatch h
  | move _ _ _ ih =>
    exact List.forall_mem_append.mpr
      ⟨ih, List.forall_mem_singleton.mpr Position.isPlacement_findWins⟩

theorem replay {ms : List Move} {s : Position} (h : ByRules ms s) :
    Position.start.replay (ms.flatMap Move.events) = .ok s := by
  induction h with
  | start => rfl
  | @move ms s t p _ hp ht ih =>
    rw [List.flatMap_append, Position.replay_append_of_ok ih, List.flatMap_singleton, Move.events]
    exact Position.replay_cons_ok.mpr ⟨_, Position.apply_of_isPlayable hp, ht⟩

/-- The first moves of a game are a game. -/
theorem take {ms : List Move} {s : Position} (h : ByRules ms s) (k : Nat) :
    ∃ t, ByRules (ms.take k) t := by
  induction h with
  | start => exact ⟨.start, by simpa using ByRules.start⟩
  | @move ms s t p h hp ht ih =>
    rcases Nat.lt_or_ge ms.length k with hk | hk
    · rw [List.take_of_length_le (by rw [List.length_append, List.length_singleton]; omega)]
      exact ⟨t, h.move hp ht⟩
    · rw [List.take_append_of_le_length hk]
      exact ih

/-- The last move of a game was legal in the position that the others lead to, and has the
outcomes that the scan finds after it. -/
theorem last {ms : List Move} {m : Move} {t : Position} (h : ByRules (ms ++ [m]) t) :
    ∃ s, ByRules ms s ∧ s.isPlayable m.placement = true ∧
      m.outcomes = (s.place m.placement).findWins ∧
      (s.place m.placement).replay (s.place m.placement).findWins = .ok t := by
  generalize hall : ms ++ [m] = all at h
  cases h with
  | start => simp at hall
  | @move ms' s t p h hp ht =>
    obtain ⟨rfl, hm⟩ := List.append_inj' hall rfl
    obtain rfl := List.singleton_inj.mp hm
    exact ⟨s, h, hp, rfl, ht⟩

/-- A game by the rules is settled after every move. -/
theorem settled {ms : List Move} {s : Position} (h : ByRules ms s) : s.Settled := by
  induction h with
  | start => exact Position.settled_start
  | move _ hp ht ih => exact ih.place hp ht

end ByRules

namespace Timeline

/-! ### Playing -/

theorem play_of_not_atEnd {t : Timeline} (h : t.atEnd = false) (p : Placement) :
    t.play p = (t, .error .reviewing) := by
  rw [play, h]
  rfl

theorem play_of_not_isPlayable {t : Timeline} (hend : t.atEnd = true) {p : Placement}
    (hp : t.view.isPlayable p = false) : t.play p = (t, .error (.illegalMove p)) := by
  rw [play, hend, hp]
  rfl

/-- Outcomes that a replay accepts all join the last move. -/
theorem addEvents_outcomes {ms : List Move} {p : Placement} {ws : List Event} {t : Position}
    (hws : ∀ e ∈ ws, e.isPlacement = false) : ∀ {os : List Event} {s : Position},
      s.replay ws = .ok t → addEvents ⟨ms ++ [⟨p, os⟩], ms.length + 1, s, s⟩ ws =
        (⟨ms ++ [⟨p, os ++ ws⟩], ms.length + 1, t, t⟩, .ok ()) := by
  induction ws with
  | nil =>
    intro os s h
    rw [Position.replay, Except.ok.injEq] at h
    rw [h, List.append_nil]
    rfl
  | cons e ws ih =>
    intro os s h
    obtain ⟨u, hu, ht⟩ := Position.replay_cons_ok.mp h
    have hlen (m : Move) : (ms ++ [m]).length = ms.length + 1 := by simp
    have hrec := Move.record_outcome (hws e List.mem_cons_self) ⟨p, os⟩ ms
    have hadd : addEvent ⟨ms ++ [⟨p, os⟩], ms.length + 1, s, s⟩ e =
        .ok ⟨ms ++ [⟨p, os ++ [e]⟩], ms.length + 1, u, u⟩ := by
      refine addEvent_ok.mpr ⟨_, u, hrec, hu, ?_⟩
      rw [if_pos (atEnd_iff.mpr (hlen _).symm), hlen]
    rw [addEvents, hadd]
    simp only
    rw [ih (fun e' he' => hws e' (List.mem_cons_of_mem _ he')) ht, List.append_assoc]
    rfl

/-- **A legal placement is recorded with all that it decides.** -/
theorem Coherent.play_eq {t : Timeline} (h : t.Coherent) (hend : t.atEnd = true) {p : Placement}
    (hp : t.view.isPlayable p = true) {s : Position}
    (hs : (t.view.place p).replay (t.view.place p).findWins = .ok s) :
    t.play p = (⟨t.moves ++ [⟨p, (t.view.place p).findWins⟩], t.moves.length + 1, s, s⟩,
      .ok (t.view.place p).findWins) := by
  have hview := h.view_eq_final hend
  have hadd : t.addEvent (.placed p) =
      .ok ⟨t.moves ++ [⟨p, []⟩], t.moves.length + 1, t.view.place p, t.view.place p⟩ := by
    refine addEvent_ok.mpr ⟨_, t.view.place p, Move.record_placed p t.moves, ?_, ?_⟩
    · rw [← hview]
      exact Position.apply_of_isPlayable hp
    · rw [if_pos hend, List.length_append, List.length_singleton]
  rw [Timeline.play, hend, hp, hadd]
  simp only [Bool.not_true, Bool.false_eq_true, if_false]
  rw [addEvents_outcomes Position.isPlacement_findWins hs]
  rfl

/-! ### Timelines that are only played on -/

end Timeline

/-- Whether the operation leaves it to the rules what is recorded: anything but
adding events by hand. -/
def Operation.keepsToRules : Operation → Bool
  | .addEvent _ => false
  | .addEvents _ => false
  | _ => true

/-- What keeps to the rules is a placement, a new game or a look at the record. -/
theorem Operation.keepsToRules_cases {o : Operation} (h : o.keepsToRules = true) :
    (∃ p, o = .play p) ∨ o = .clear ∨ o.browses = true := by
  cases o with
  | addEvent e => cases h
  | addEvents es => cases h
  | play p => exact Or.inl ⟨p, rfl⟩
  | clear => exact Or.inr (Or.inl rfl)
  | next => exact Or.inr (Or.inr rfl)
  | previous => exact Or.inr (Or.inr rfl)
  | goToBeginning => exact Or.inr (Or.inr rfl)
  | goToEnd => exact Or.inr (Or.inr rfl)
  | goTo p => exact Or.inr (Or.inr rfl)

namespace Timeline

/-- A coherent timeline of a game that was played by the rules. -/
structure Ruled (t : Timeline) : Prop extends Coherent t where
  byRules : ByRules t.moves t.final

theorem ruled_empty : empty.Ruled := ⟨coherent_empty, .start⟩

namespace Ruled

protected theorem openAt {t : Timeline} (h : t.Ruled) {k : Nat} (hk : k ≤ t.moves.length) :
    (t.openAt k).Ruled :=
  ⟨h.toCoherent.openAt hk, h.byRules⟩

/-- The moves up to any position are a game by the rules that leads there. -/
theorem byRules_viewAt {t : Timeline} (h : t.Ruled) (k : Nat) :
    ByRules (t.moves.take k) (t.viewAt k) := by
  obtain ⟨s, hs⟩ := h.byRules.take k
  have hview : t.viewAt k = s := by
    unfold viewAt eventsUpTo
    rw [hs.replay]
  rwa [hview]

theorem byRules_view {t : Timeline} (h : t.Ruled) : ByRules (t.moves.take t.shown) t.view := by
  have hsame : t.viewAt t.shown = t.view := congrArg Timeline.view h.openAt_shown
  exact hsame ▸ h.byRules_viewAt t.shown

theorem settled_view {t : Timeline} (h : t.Ruled) : t.view.Settled := h.byRules_view.settled

/-- A move of the record was played in the position before it, and has led to the one
after it. -/
theorem move_viewAt {t : Timeline} (h : t.Ruled) {k : Nat} {m : Move}
    (hm : t.moves[k]? = some m) :
    (t.viewAt k).isPlayable m.placement = true ∧
      m.outcomes = ((t.viewAt k).place m.placement).findWins ∧
      ((t.viewAt k).place m.placement).replay ((t.viewAt k).place m.placement).findWins =
        .ok (t.viewAt (k + 1)) := by
  have hnext := h.byRules_viewAt (k + 1)
  rw [List.take_add_one, hm, Option.toList_some] at hnext
  obtain ⟨s, hs, hp, hout, hs'⟩ := hnext.last
  have hsame : t.viewAt k = s := Except.ok.inj ((h.replay_viewAt k).symm.trans hs.replay)
  rw [hsame]
  exact ⟨hp, hout, hs'⟩

theorem play {t : Timeline} (h : t.Ruled) (p : Placement) : (t.play p).1.Ruled := by
  by_cases hend : t.atEnd = true
  · by_cases hp : t.view.isPlayable p = true
    · obtain ⟨s, hs⟩ := (t.view.place p).exists_replay_findWins
      refine ⟨h.toCoherent.play p, ?_⟩
      rw [h.play_eq hend hp hs]
      have hb := h.byRules
      rw [← h.view_eq_final hend] at hb
      exact hb.move hp hs
    · rw [play_of_not_isPlayable hend (by simpa using hp)]
      exact h
  · rw [play_of_not_atEnd (by simpa using hend)]
    exact h

/-- What keeps to the rules leaves a game by the rules. -/
theorem perform {t : Timeline} (h : t.Ruled) {o : Operation} (ho : o.keepsToRules = true) :
    (t.perform o).1.Ruled := by
  rcases Operation.keepsToRules_cases ho with ⟨p, rfl⟩ | rfl | hb
  · exact h.play p
  · exact ruled_empty
  · obtain ⟨k, hk, heq⟩ := h.perform_of_browses hb
    rw [heq]
    exact h.openAt hk

theorem run {t : Timeline} (h : t.Ruled) {ops : List Operation}
    (hops : ∀ o ∈ ops, o.keepsToRules = true) : (t.run ops).Ruled := by
  induction ops generalizing t with
  | nil => exact h
  | cons o ops ih =>
    have hrest : ∀ o' ∈ ops, o'.keepsToRules = true := fun o' ho' =>
      hops o' (List.mem_cons_of_mem _ ho')
    exact ih (h.perform (hops o List.mem_cons_self)) hrest

end Ruled

theorem ruled_run {ops : List Operation} (h : ∀ o ∈ ops, o.keepsToRules = true) :
    (empty.run ops).Ruled := ruled_empty.run h

/-- **The recorded outcomes are those of the tiles**, in a timeline that was only
played on, cleared and gone through, with every position of it on view: each
sub-board has the outcome that its tiles show now, the game the outcome that the
sub-boards show, and nothing is left to find. -/
theorem run_settled (ops : List Operation) (h : ∀ o ∈ ops, o.keepsToRules = true) :
    let t := empty.run ops
    (t.view.Settled ∧ t.view.findWins = []) ∧
      ∀ p, (t.goTo p).1.view.Settled ∧ (t.goTo p).1.view.findWins = [] := by
  intro t
  have ht : t.Ruled := ruled_run h
  refine ⟨⟨ht.settled_view, ht.settled_view.findWins_eq_nil⟩, fun p => ?_⟩
  have hp : (t.goTo p).1.view.Settled := (ht.perform (o := .goTo p) rfl).settled_view
  exact ⟨hp, hp.findWins_eq_nil⟩

/-- Red takes the middle sub-board by its top row. Then the last move is taken off
the view, a placement there is refused, and the move is shown again. -/
def topRowGame : List Operation :=
  [.play ⟨4, 0⟩, .play ⟨0, 4⟩, .play ⟨4, 1⟩, .play ⟨1, 4⟩, .play ⟨4, 2⟩, .previous,
    .play ⟨4, 0⟩, .next]

theorem topRowGame_settled :
    (∀ o ∈ topRowGame, o.keepsToRules = true) ∧
    (empty.run topRowGame).view.decided.get 4 = some .red ∧
    ((empty.run topRowGame).view.Settled ∧ (empty.run topRowGame).view.findWins = []) ∧
      ∀ p, ((empty.run topRowGame).goTo p).1.view.Settled ∧
        ((empty.run topRowGame).goTo p).1.view.findWins = [] :=
  ⟨by decide, by decide, run_settled topRowGame (by decide)⟩

end Timeline

end UltimateTicTacToe
