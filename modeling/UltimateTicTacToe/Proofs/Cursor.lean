/-
# The position on view is the one the cursor names

A timeline keeps two positions beside its moves: the one on view and the one at
the end. `Timeline.Coherent` says that both are what a replay of the record gives,
and that the cursor stays within the record. Every operation keeps this, whatever
it is given and whether it succeeds or not, so it holds after every sequence of
operations (`Timeline.coherent_run`).

In a coherent timeline going through the record is looking up: each step and each
walk ends at `Timeline.openAt`, the same record with another position on view, be
it by applying moves, by taking moves back or from the empty board on
(`Timeline.Coherent.walk_next`, `Timeline.Coherent.walk_previous`,
`Timeline.Coherent.goTo_eq`).

Key definitions: `Timeline.eventsUpTo`, `Timeline.Coherent`, `Timeline.openAt`,
`Operation.browses`.
Key theorems: `Timeline.coherent_run`, `Timeline.Coherent.goTo_eq`,
`Timeline.run_shows_replay`.
-/
import UltimateTicTacToe.Game.Operation
import UltimateTicTacToe.Proofs.Record

namespace UltimateTicTacToe
namespace Timeline

/-- The events of the first `k` moves. -/
def eventsUpTo (t : Timeline) (k : Nat) : List Event := (t.moves.take k).flatMap Move.events

/-- The cursor is within the record, and the two positions that the timeline keeps
are those that the record leads to. -/
structure Coherent (t : Timeline) : Prop where
  shown_le : t.shown ≤ t.moves.length
  view : Position.start.replay (t.eventsUpTo t.shown) = .ok t.view
  final : Position.start.replay t.events = .ok t.final

/-- The position after the first `k` moves. -/
def viewAt (t : Timeline) (k : Nat) : Position :=
  match Position.start.replay (t.eventsUpTo k) with
  | .ok s => s
  | .error _ => .start

/-- The same record with the position after its first `k` moves on view. -/
def openAt (t : Timeline) (k : Nat) : Timeline := { t with shown := k, view := t.viewAt k }

theorem eventsUpTo_length (t : Timeline) : t.eventsUpTo t.moves.length = t.events := by
  rw [eventsUpTo, List.take_length]
  rfl

theorem eventsUpTo_succ {t : Timeline} {k : Nat} {m : Move} (h : t.moves[k]? = some m) :
    t.eventsUpTo (k + 1) = t.eventsUpTo k ++ m.events := by
  rw [eventsUpTo, List.take_add_one, h, List.flatMap_append]
  simp [eventsUpTo]

theorem atEnd_iff {t : Timeline} : t.atEnd = true ↔ t.shown = t.moves.length := by
  simp [atEnd]

theorem coherent_empty : empty.Coherent := ⟨Nat.le_refl _, rfl, rfl⟩

/-! ### Looking up positions -/

namespace Coherent

/-- Every prefix of the record can be replayed. -/
theorem replay_viewAt {t : Timeline} (h : t.Coherent) (k : Nat) :
    Position.start.replay (t.eventsUpTo k) = .ok (t.viewAt k) := by
  have hsplit : t.events = t.eventsUpTo k ++ (t.moves.drop k).flatMap Move.events := by
    rw [eventsUpTo, ← List.flatMap_append, List.take_append_drop]
    rfl
  have hf := h.final
  rw [hsplit] at hf
  obtain ⟨s, hs, -⟩ := Position.replay_append_ok.mp hf
  rw [viewAt, hs]

theorem openAt_shown {t : Timeline} (h : t.Coherent) : t.openAt t.shown = t := by
  have hv : t.viewAt t.shown = t.view := by rw [viewAt, h.view]
  rw [openAt, hv]

theorem viewAt_length {t : Timeline} (h : t.Coherent) : t.viewAt t.moves.length = t.final := by
  rw [viewAt, eventsUpTo_length, h.final]

/-- At the end of the record the two positions are one. -/
theorem view_eq_final {t : Timeline} (h : t.Coherent) (hend : t.atEnd = true) :
    t.view = t.final := by
  rw [← h.viewAt_length, ← atEnd_iff.mp hend]
  exact (congrArg Timeline.view h.openAt_shown).symm

protected theorem openAt {t : Timeline} (h : t.Coherent) {k : Nat} (hk : k ≤ t.moves.length) :
    (t.openAt k).Coherent :=
  ⟨hk, h.replay_viewAt k, h.final⟩

/-- The move with number `k` leads from the position after `k` moves to the next. -/
theorem replay_move {t : Timeline} (h : t.Coherent) {k : Nat} {m : Move}
    (hm : t.moves[k]? = some m) : (t.viewAt k).replay m.events = .ok (t.viewAt (k + 1)) := by
  have hk := h.replay_viewAt (k + 1)
  rw [eventsUpTo_succ hm, Position.replay_append_of_ok (h.replay_viewAt k)] at hk
  exact hk

/-! ### Steps and walks -/

theorem next_openAt {t : Timeline} (h : t.Coherent) {k : Nat} (hk : k < t.moves.length) :
    (t.openAt k).next = .ok (some (t.openAt (k + 1))) := by
  have hm : t.moves[k]? = some t.moves[k] := List.getElem?_eq_getElem hk
  have hview := h.replay_move hm
  unfold next openAt
  simp only [hm, hview]

theorem previous_openAt {t : Timeline} (h : t.Coherent) {k : Nat} (hk : k < t.moves.length) :
    (t.openAt (k + 1)).previous = .ok (some (t.openAt k)) := by
  have hm : t.moves[k]? = some t.moves[k] := List.getElem?_eq_getElem hk
  have hview := Position.unwind_replay (h.replay_move hm)
  unfold previous openAt
  simp only [hm, hview]

/-- A step forwards, if there is one, shows one more move. -/
theorem next_eq {t : Timeline} (h : t.Coherent) :
    t.next = .ok (if t.shown < t.moves.length then some (t.openAt (t.shown + 1)) else none) := by
  by_cases hk : t.shown < t.moves.length
  · have := h.next_openAt hk
    rw [h.openAt_shown] at this
    rw [this, if_pos hk]
  · have hm : t.moves[t.shown]? = none := List.getElem?_eq_none (Nat.le_of_not_lt hk)
    rw [next, hm, if_neg hk]

/-- A step back, if there is one, shows one move less. -/
theorem previous_eq {t : Timeline} (h : t.Coherent) :
    t.previous = .ok (if 0 < t.shown then some (t.openAt (t.shown - 1)) else none) := by
  have hle := h.shown_le
  cases hs : t.shown with
  | zero =>
    rw [previous, hs]
    rfl
  | succ k =>
    have := h.previous_openAt (k := k) (by omega)
    rw [← hs, h.openAt_shown] at this
    rw [this, if_pos (Nat.succ_pos k)]
    rfl

theorem walk_next {t : Timeline} (h : t.Coherent) : ∀ {n k : Nat}, k + n ≤ t.moves.length →
    walk next n (t.openAt k) = (t.openAt (k + n), .ok ())
  | 0, _, _ => rfl
  | n + 1, k, hk => by
    have hstep := h.next_openAt (k := k) (by omega)
    have hrest := h.walk_next (n := n) (k := k + 1) (by omega)
    rw [walk, hstep]
    show walk next n (t.openAt (k + 1)) = _
    rw [hrest, Nat.add_right_comm, Nat.add_assoc]

theorem walk_previous {t : Timeline} (h : t.Coherent) : ∀ {n k : Nat}, k + n ≤ t.moves.length →
    walk previous n (t.openAt (k + n)) = (t.openAt k, .ok ())
  | 0, _, _ => rfl
  | n + 1, k, hk => by
    have hstep := h.previous_openAt (k := k + n) (by omega)
    rw [walk, ← Nat.add_assoc, hstep]
    exact h.walk_previous (n := n) (k := k) (by omega)

theorem goToEnd_eq {t : Timeline} (h : t.Coherent) :
    t.goToEnd = (t.openAt t.moves.length, .ok ()) := by
  have hle := h.shown_le
  have := h.walk_next (k := t.shown) (n := t.moves.length - t.shown) (by omega)
  rw [h.openAt_shown, Nat.add_sub_cancel' hle] at this
  exact this

/-- **Both ways back lead to the same timeline**: taking moves back one by one, and
starting again from the empty board. -/
theorem walk_back_eq {t : Timeline} (h : t.Coherent) {k : Nat} (hk : k ≤ t.shown) :
    walk previous (t.shown - k) t = (t.openAt k, .ok ()) ∧
      walk next k t.rewind = (t.openAt k, .ok ()) := by
  have hle := h.shown_le
  constructor
  · have := h.walk_previous (k := k) (n := t.shown - k) (by omega)
    rw [Nat.add_sub_cancel' hk, h.openAt_shown] at this
    exact this
  · have := h.walk_next (k := 0) (n := k) (by omega)
    rw [Nat.zero_add] at this
    exact this

/-- **Every position of the record can be gone to**, from anywhere. -/
theorem goTo_eq {t : Timeline} (h : t.Coherent) {p : Int} (hlo : -1 ≤ p)
    (hhi : p < t.moves.length) : t.goTo p = (t.openAt (p + 1).toNat, .ok ()) := by
  have hle := h.shown_le
  have hgoal : (p + 1).toNat ≤ t.moves.length := by omega
  have harrive : (if t.shown ≤ (p + 1).toNat then walk next ((p + 1).toNat - t.shown) t
      else if (p + 1).toNat < t.shown - (p + 1).toNat then walk next (p + 1).toNat t.rewind
      else walk previous (t.shown - (p + 1).toNat) t) = (t.openAt (p + 1).toNat, .ok ()) := by
    by_cases hfwd : t.shown ≤ (p + 1).toNat
    · have := h.walk_next (k := t.shown) (n := (p + 1).toNat - t.shown) (by omega)
      rw [h.openAt_shown, Nat.add_sub_cancel' hfwd] at this
      rw [if_pos hfwd, this]
    · obtain ⟨hback, hreset⟩ := h.walk_back_eq (k := (p + 1).toNat) (by omega)
      rw [if_neg hfwd, hback, hreset]
      split
      · rfl
      · rfl
  unfold goTo
  rw [if_neg (by omega)]
  simp only [harrive]
  exact if_pos rfl

end Coherent

theorem goTo_eq_of_out {t : Timeline} {p : Int} (h : ¬ (-1 ≤ p ∧ p < t.moves.length)) :
    t.goTo p = (t, .error (.noSuchPosition p t.moves.length)) := by
  unfold goTo
  rw [if_pos (by omega)]

/-! ### Where the record ends -/

namespace Coherent

/-- There is a step forwards except at the last move. -/
theorem exists_next {t : Timeline} (h : t.Coherent) :
    ∃ u, t.next = .ok u ∧ (u = none ↔ t.position = t.length - 1) := by
  have hle := h.shown_le
  refine ⟨_, h.next_eq, ?_⟩
  unfold position length
  split
  · simp only [reduceCtorEq, false_iff]
    omega
  · simp only [true_iff]
    omega

/-- There is a step back except on the empty board. -/
theorem exists_previous {t : Timeline} (h : t.Coherent) :
    ∃ u, t.previous = .ok u ∧ (u = none ↔ t.position = -1) := by
  refine ⟨_, h.previous_eq, ?_⟩
  unfold position
  split
  · simp only [reduceCtorEq, false_iff]
    omega
  · simp only [true_iff]
    omega

theorem goTo_ok_iff {t : Timeline} (h : t.Coherent) {p : Int} :
    (t.goTo p).2 = .ok () ↔ -1 ≤ p ∧ p < t.length := by
  by_cases hp : -1 ≤ p ∧ p < t.moves.length
  · rw [h.goTo_eq hp.1 hp.2]
    exact ⟨fun _ => hp, fun _ => rfl⟩
  · rw [goTo_eq_of_out hp]
    exact ⟨nofun, fun hs => absurd hs hp⟩

theorem position_goTo {t : Timeline} (h : t.Coherent) {p : Int} (hp : (t.goTo p).2 = .ok ()) :
    (t.goTo p).1.position = p := by
  obtain ⟨hlo, hhi⟩ := h.goTo_ok_iff.mp hp
  rw [h.goTo_eq hlo hhi]
  show ((p + 1).toNat : Int) - 1 = p
  omega

/-- A walk never ends anywhere but where it was sent. -/
theorem goTo_ne_strayed {t : Timeline} (h : t.Coherent) {p expected actual : Int} :
    (t.goTo p).2 ≠ .error (.strayed expected actual) := by
  by_cases hp : -1 ≤ p ∧ p < t.moves.length
  · rw [h.goTo_eq hp.1 hp.2]
    exact nofun
  · rw [goTo_eq_of_out hp]
    exact nofun

end Coherent

/-! ### Operations keep the timeline coherent -/

end Timeline

/-- Whether the operation only goes through the record. -/
def Operation.browses : Operation → Bool
  | .next => true
  | .previous => true
  | .goToBeginning => true
  | .goToEnd => true
  | .goTo _ => true
  | _ => false

namespace Timeline
namespace Coherent

/-- Going through the record leads to one of its positions, and changes nothing
else. -/
theorem perform_of_browses {t : Timeline} (h : t.Coherent) {o : Operation}
    (ho : o.browses = true) : ∃ k ≤ t.moves.length, (t.perform o).1 = t.openAt k := by
  have hle := h.shown_le
  cases o with
  | addEvent e => cases ho
  | addEvents es => cases ho
  | play p => cases ho
  | clear => cases ho
  | next =>
    rw [perform, h.next_eq]
    by_cases hlt : t.shown < t.moves.length
    · exact ⟨t.shown + 1, hlt, by rw [if_pos hlt]; rfl⟩
    · exact ⟨t.shown, hle, by rw [if_neg hlt]; exact h.openAt_shown.symm⟩
  | previous =>
    rw [perform, h.previous_eq]
    by_cases hlt : 0 < t.shown
    · exact ⟨t.shown - 1, by omega, by rw [if_pos hlt]; rfl⟩
    · exact ⟨t.shown, hle, by rw [if_neg hlt]; exact h.openAt_shown.symm⟩
  | goToBeginning => exact ⟨0, Nat.zero_le _, rfl⟩
  | goToEnd => exact ⟨t.moves.length, Nat.le_refl _, by rw [perform, h.goToEnd_eq]⟩
  | goTo p =>
    rw [perform]
    by_cases hp : -1 ≤ p ∧ p < t.moves.length
    · exact ⟨(p + 1).toNat, by omega, by rw [h.goTo_eq hp.1 hp.2]⟩
    · exact ⟨t.shown, hle, by rw [goTo_eq_of_out hp]; exact h.openAt_shown.symm⟩

/-- An event that is accepted at the end of the record leaves every prefix of it
alone, so a cursor elsewhere still shows the same position. -/
theorem addEvent {t u : Timeline} {e : Event} (h : t.Coherent) (ha : t.addEvent e = .ok u) :
    u.Coherent := by
  obtain ⟨moves, final, hm, hf, rfl⟩ := addEvent_ok.mp ha
  have hevents : moves.flatMap Move.events = t.events ++ [e] := Move.events_record hm
  have hfinal : Position.start.replay (moves.flatMap Move.events) = .ok final := by
    rw [hevents, Position.replay_append_of_ok h.final]
    exact Position.replay_singleton_ok.mpr hf
  by_cases hend : t.atEnd = true
  · rw [if_pos hend]
    exact ⟨Nat.le_refl _, (eventsUpTo_length ⟨moves, _, final, final⟩).symm ▸ hfinal, hfinal⟩
  · rw [if_neg hend]
    have hlt : t.shown < t.moves.length :=
      Nat.lt_of_le_of_ne h.shown_le fun he => hend (atEnd_iff.mpr he)
    refine ⟨Nat.le_trans h.shown_le (Move.length_le_record hm), ?_, hfinal⟩
    show Position.start.replay ((moves.take t.shown).flatMap Move.events) = .ok t.view
    rw [Move.take_record hm hlt]
    exact h.view

theorem addEvents {t : Timeline} (h : t.Coherent) (es : List Event) :
    (t.addEvents es).1.Coherent := by
  induction es generalizing t with
  | nil => exact h
  | cons e es ih =>
    rw [Timeline.addEvents]
    split
    · rename_i u hu
      exact ih (h.addEvent hu)
    · exact h

theorem play {t : Timeline} (h : t.Coherent) (p : Placement) : (t.play p).1.Coherent := by
  unfold Timeline.play
  split
  · exact h
  · split
    · exact h
    · split
      · exact h
      · rename_i u hu
        have hwins := (h.addEvent hu).addEvents u.view.findWins
        simp only
        split
        · rename_i hv
          rwa [hv] at hwins
        · rename_i hv
          rwa [hv] at hwins

/-- Whatever is done to a coherent timeline, and whether it succeeds or not, a
coherent timeline is left. -/
theorem perform {t : Timeline} (h : t.Coherent) (o : Operation) : (t.perform o).1.Coherent := by
  have hbrowse (ho : o.browses = true) : (t.perform o).1.Coherent := by
    obtain ⟨k, hk, heq⟩ := h.perform_of_browses ho
    rw [heq]
    exact h.openAt hk
  cases o with
  | addEvent e =>
    show (t.settle (t.addEvent e)).1.Coherent
    cases ha : t.addEvent e with
    | ok u => exact h.addEvent ha
    | error f => exact h
  | addEvents es => exact h.addEvents es
  | play p => exact h.play p
  | clear => exact coherent_empty
  | next => exact hbrowse rfl
  | previous => exact hbrowse rfl
  | goToBeginning => exact hbrowse rfl
  | goToEnd => exact hbrowse rfl
  | goTo p => exact hbrowse rfl

theorem run {t : Timeline} (h : t.Coherent) (ops : List Operation) : (t.run ops).Coherent := by
  induction ops generalizing t with
  | nil => exact h
  | cons o ops ih => exact ih (h.perform o)

end Coherent

theorem run_append {t : Timeline} {as bs : List Operation} :
    t.run (as ++ bs) = (t.run as).run bs := by
  induction as generalizing t with
  | nil => rfl
  | cons o as ih => exact ih

/-- Every timeline that operations can reach is coherent. -/
theorem coherent_run (ops : List Operation) : (empty.run ops).Coherent := coherent_empty.run ops

/-- **The position on view is the replay of the moves on view**, after any
operations, failed ones included, and so is the position at the end the replay of
all moves. Steps and walks through the record therefore never fail: there is a step
forwards except at the last move and a step back except on the empty board, and
exactly the positions of the record can be gone to, by taking moves back or from
the empty board on. -/
theorem run_shows_replay (ops : List Operation) :
    let t := empty.run ops
    (-1 ≤ t.position ∧ t.position < t.length ∧ (t.isEmpty = true → t.position = -1)) ∧
    Position.start.replay (t.eventsUpTo (t.position + 1).toNat) = .ok t.view ∧
    Position.start.replay t.events = .ok t.final ∧
    (∃ u, t.next = .ok u ∧ (u = none ↔ t.position = t.length - 1)) ∧
    (∃ u, t.previous = .ok u ∧ (u = none ↔ t.position = -1)) ∧
    (t.goToEnd.2 = .ok () ∧ t.goToEnd.1.position = t.length - 1) ∧
    (∀ p, ((t.goTo p).2 = .ok () ↔ -1 ≤ p ∧ p < t.length) ∧
      ((t.goTo p).2 = .ok () → (t.goTo p).1.position = p) ∧
      ∀ expected actual, (t.goTo p).2 ≠ .error (.strayed expected actual)) ∧
    ∀ k ≤ t.shown, ∃ u, walk previous (t.shown - k) t = (u, .ok ()) ∧
      walk next k t.rewind = (u, .ok ()) ∧ u.position = k - 1 := by
  intro t
  have h : t.Coherent := coherent_run ops
  have hle := h.shown_le
  have hpos : t.position = t.shown - 1 := rfl
  have hlen : t.length = t.moves.length := rfl
  refine ⟨⟨by omega, by omega, fun he => ?_⟩, ?_, h.final, h.exists_next, h.exists_previous, ?_,
    fun p => ⟨h.goTo_ok_iff, h.position_goTo, fun _ _ => h.goTo_ne_strayed⟩, fun k hk => ?_⟩
  · have : t.moves.length = 0 := by simpa [isEmpty] using he
    omega
  · rw [hpos, Int.sub_add_cancel, Int.toNat_natCast]
    exact h.view
  · rw [h.goToEnd_eq]
    exact ⟨rfl, rfl⟩
  · obtain ⟨hback, hreset⟩ := h.walk_back_eq hk
    exact ⟨t.openAt k, hback, hreset, rfl⟩

end Timeline

end UltimateTicTacToe
