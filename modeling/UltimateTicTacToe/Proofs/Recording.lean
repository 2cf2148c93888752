/-
# What recording refuses, and that a refusal changes nothing

An operation that records can fail in few ways, and each has its own cause. An event
is refused if it is an outcome and there is no move for it, or for what is wrong with
it after the whole record. A placement that is played is refused if an earlier
position is on view or if it is not legal there, and for nothing else: the outcomes
that the scan finds can always be recorded (`Position.exists_replay_findWins`), also
in a game whose outcomes are not those of its tiles, so that playing never stops
half-way. Events that are added together are recorded one by one, up to the first
that is refused.

All of this holds of every timeline there can be (`Timeline.Reachable`), be it made by
operations or of a record that somebody else has written.

Key definitions: `Timeline.Reachable`, `Timeline.Accepts`, `Timeline.RecordsUpTo`,
`Timeline.RecordsExactly`.
Key theorems: `Timeline.Coherent.play_error_iff`, `Timeline.Coherent.addEvents_ok_iff`,
`Timeline.Coherent.unchanged_of_error`, `Timeline.Reachable.recordsExactly`.
-/
import UltimateTicTacToe.Proofs.ClosedForm
import UltimateTicTacToe.Proofs.Play

namespace UltimateTicTacToe
namespace Timeline

/-! ### The timelines there can be -/

/-- The timeline is the empty one or that of a whole record, or an operation leaves
it of such a timeline. -/
inductive Reachable : Timeline → Prop
  | empty : Reachable empty
  | ofEvents {es : List Event} {t : Timeline} : ofEvents es = .ok t → Reachable t
  | perform {t : Timeline} (o : Operation) : Reachable t → Reachable (t.perform o).1

theorem coherent_of_ofEvents {es : List Event} {t : Timeline} (h : ofEvents es = .ok t) :
    t.Coherent := by
  have hadded := coherent_empty.addEvents es
  rwa [ofEvents_ok.mp h] at hadded

theorem Reachable.coherent {t : Timeline} (h : t.Reachable) : t.Coherent := by
  induction h with
  | empty => exact coherent_empty
  | ofEvents h => exact coherent_of_ofEvents h
  | perform o _ ih => exact ih.perform o

theorem Reachable.run {t : Timeline} (h : t.Reachable) (ops : List Operation) :
    (t.run ops).Reachable := by
  induction ops generalizing t with
  | nil => exact h
  | cons o ops ih => exact ih (h.perform o)

/-! ### One event -/

namespace Coherent

/-- An event is refused if it is an outcome without a move, and otherwise for what is
wrong with it after the record. -/
theorem addEvent_error_iff {t : Timeline} (h : t.Coherent) {e : Event} {f : Fault} :
    t.addEvent e = .error f ↔
      (e.isPlacement = false ∧ t.moves = [] ∧ f = .orphanOutcome) ∨
        (¬ (e.isPlacement = false ∧ t.moves = []) ∧
          ∃ s, Position.start.replay t.events = .ok s ∧ s.apply e = .error f) := by
  have hreplay : (∃ s, Position.start.replay t.events = .ok s ∧ s.apply e = .error f) ↔
      t.final.apply e = .error f := by
    rw [h.final]
    simp
  have hopen : (t.moves ≠ [] ∨ e.isPlacement = true) ↔
      ¬ (e.isPlacement = false ∧ t.moves = []) := by
    cases e.isPlacement with
    | true => simp
    | false => simp
  rw [addEvent_error, hreplay, hopen]
  constructor
  · rintro (⟨hm, he, hf⟩ | hr)
    · exact Or.inl ⟨he, hm, hf⟩
    · exact Or.inr hr
  · rintro (⟨he, hm, hf⟩ | hr)
    · exact Or.inl ⟨hm, he, hf⟩
    · exact Or.inr hr

/-! ### Playing -/

/-- A legal placement at the end of the record is always played. -/
theorem exists_play_eq {t : Timeline} (h : t.Coherent) (hend : t.atEnd = true) {p : Placement}
    (hp : t.view.isPlayable p = true) :
    ∃ s, (t.view.place p).replay (t.view.place p).findWins = .ok s ∧
      t.play p = (⟨t.moves ++ [⟨p, (t.view.place p).findWins⟩], t.moves.length + 1, s, s⟩,
        .ok (t.view.place p).findWins) := by
  obtain ⟨s, hs⟩ := (t.view.place p).exists_replay_findWins
  exact ⟨s, hs, h.play_eq hend hp hs⟩

/-- Playing fails while an earlier position is on view, and for a placement that is
not legal, and never otherwise. -/
theorem play_error_iff {t : Timeline} (h : t.Coherent) {p : Placement} {f : Fault} :
    (t.play p).2 = .error f ↔
      (t.atEnd = false ∧ f = .reviewing) ∨
        (t.atEnd = true ∧ t.view.isPlayable p = false ∧ f = .illegalMove p) := by
  cases hend : t.atEnd with
  | false =>
    rw [play_of_not_atEnd hend]
    simp [eq_comm (a := f)]
  | true =>
    cases hp : t.view.isPlayable p with
    | false =>
      rw [play_of_not_isPlayable hend hp]
      simp [eq_comm (a := f)]
    | true =>
      obtain ⟨s, -, hplay⟩ := h.exists_play_eq hend hp
      rw [hplay]
      simp

theorem play_unchanged {t : Timeline} (h : t.Coherent) {p : Placement} {f : Fault}
    (hf : (t.play p).2 = .error f) : (t.play p).1 = t := by
  rcases h.play_error_iff.mp hf with ⟨hend, -⟩ | ⟨hend, hp, -⟩
  · rw [play_of_not_atEnd hend]
  · rw [play_of_not_isPlayable hend hp]

/-- What a placement that is played leaves. -/
theorem play_ok {t : Timeline} (h : t.Coherent) {p : Placement} {outs : List Event}
    (ho : (t.play p).2 = .ok outs) :
    ∃ s, t.view.apply (.placed p) = .ok s ∧ outs = s.findWins ∧
      (t.play p).1.moves = t.moves ++ [⟨p, outs⟩] ∧
      (t.play p).1.events = t.events ++ .placed p :: outs ∧
      (t.play p).1.position = t.length ∧ (t.play p).1.atEnd = true := by
  have hnot (f : Fault) : (t.play p).2 ≠ .error f := by rw [ho]; exact nofun
  have hend : t.atEnd = true := by
    by_contra hend
    exact hnot .reviewing (h.play_error_iff.mpr (Or.inl ⟨by simpa using hend, rfl⟩))
  have hp : t.view.isPlayable p = true := by
    by_contra hp
    exact hnot _ (h.play_error_iff.mpr (Or.inr ⟨hend, by simpa using hp, rfl⟩))
  obtain ⟨s, -, hplay⟩ := h.exists_play_eq hend hp
  rw [hplay] at ho
  obtain rfl := Except.ok.inj ho
  refine ⟨t.view.place p, Position.apply_of_isPlayable hp, rfl, ?_⟩
  rw [hplay]
  refine ⟨rfl, ?_, ?_, ?_⟩
  · simp [events, Move.events]
  · simp [position, length]
  · simp [atEnd]

/-! ### Failures -/

/-- **A failure leaves the timeline as it was**, whatever the operation, unless it
adds several events. -/
theorem unchanged_of_error {t : Timeline} (h : t.Coherent) {o : Operation}
    (hone : ∀ es, o ≠ .addEvents es) {f : Fault} (hf : (t.perform o).2 = .error f) :
    (t.perform o).1 = t := by
  have hmap {α β : Type} {g : α → β} {x : Except Fault α} (hx : x.map g = .error f) :
      x = .error f := by
    cases x with
    | error f' => exact congrArg Except.error (Except.error.inj hx)
    | ok a => cases hx
  cases o with
  | addEvent e =>
    rw [Timeline.perform] at hf ⊢
    cases ha : t.addEvent e with
    | error f' => rfl
    | ok u =>
      rw [ha] at hf
      cases hf
  | addEvents es => exact absurd rfl (hone es)
  | play p => exact h.play_unchanged (hmap hf)
  | clear => cases hf
  | next =>
    rw [Timeline.perform, h.next_eq] at hf
    split at hf
    · cases hf
    · cases hf
  | previous =>
    rw [Timeline.perform, h.previous_eq] at hf
    split at hf
    · cases hf
    · cases hf
  | goToBeginning => cases hf
  | goToEnd =>
    rw [Timeline.perform, h.goToEnd_eq] at hf
    cases hf
  | goTo p =>
    rw [Timeline.perform] at hf ⊢
    by_cases hp : -1 ≤ p ∧ p < t.moves.length
    · rw [h.goTo_eq hp.1 hp.2] at hf
      cases hf
    · rw [goTo_eq_of_out hp]

end Coherent

/-! ### Several events -/

/-- The record of the timeline can go on with the events `es`: with them it is the
record of a game. -/
def Accepts (t : Timeline) (es : List Event) : Prop :=
  Opens (t.events ++ es) ∧ Regular (t.events ++ es)

theorem opens_append {t : Timeline} {es : List Event} :
    Opens (t.events ++ es) ↔ t.moves ≠ [] ∨ Opens es := by
  cases hm : t.moves with
  | nil => simp [events, hm]
  | cons m ms => simp [events, hm, Move.events, Opens, Event.isPlacement, Event.placement?]

/-- Adding events succeeds if and only if the record can go on with all of them. -/
theorem Coherent.addEvents_ok_iff {t : Timeline} (h : t.Coherent) {es : List Event} :
    (t.addEvents es).2 = .ok () ↔ t.Accepts es := by
  have hregular : Regular (t.events ++ es) ↔ ∃ s, t.final.replay es = .ok s := by
    rw [Position.regular_iff_replay, Position.replay_append_of_ok h.final]
  by_cases hopen : t.moves ≠ [] ∨ Opens es
  · rw [addEvents_snd hopen, Accepts, opens_append, hregular]
    cases t.final.replay es with
    | error f => simp [Except.map]
    | ok s => simp [Except.map, hopen]
  · obtain ⟨hnil, hnot⟩ := not_or.mp hopen
    rw [Accepts, opens_append]
    refine iff_of_false (fun hs => ?_) fun ha => hopen ha.1
    cases es with
    | nil => exact hnot (by simp [Opens])
    | cons e es =>
      have he : e.isPlacement = false := by simpa [Opens] using hnot
      have hfail : t.addEvent e = .error .orphanOutcome :=
        addEvent_error.mpr (Or.inl ⟨by simpa using hnil, he, rfl⟩)
      rw [Timeline.addEvents, hfail] at hs
      cases hs

theorem events_addEvents {es : List Event} {t : Timeline} (h : (t.addEvents es).2 = .ok ()) :
    (t.addEvents es).1.events = t.events ++ es := by
  induction es generalizing t with
  | nil => simp [addEvents]
  | cons e es ih =>
    rw [addEvents] at h ⊢
    cases ha : t.addEvent e with
    | error f =>
      rw [ha] at h
      cases h
    | ok u =>
      rw [ha] at h
      obtain ⟨moves, final, hm, -, hu⟩ := addEvent_ok.mp ha
      have hmoves : u.moves = moves := by
        rw [hu]
        split
        · rfl
        · rfl
      have hevents : u.events = t.events ++ [e] := by
        rw [events, hmoves]
        exact Move.events_record hm
      simp only
      rw [ih h, hevents, List.append_assoc, List.singleton_append]

/-- Events are added up to the first that is refused. -/
theorem addEvents_split (es : List Event) (t : Timeline) :
    ∃ accepted rest, es = accepted ++ rest ∧ t.addEvents accepted = ((t.addEvents es).1, .ok ()) ∧
      ((rest = [] ∧ (t.addEvents es).2 = .ok ()) ∨
        ∃ e more f, rest = e :: more ∧ (t.addEvents es).1.addEvent e = .error f ∧
          (t.addEvents es).2 = .error f) := by
  induction es generalizing t with
  | nil => exact ⟨[], [], rfl, rfl, Or.inl ⟨rfl, rfl⟩⟩
  | cons e es ih =>
    cases ha : t.addEvent e with
    | error f =>
      have hstop : t.addEvents (e :: es) = (t, .error f) := by rw [addEvents, ha]
      rw [hstop]
      exact ⟨[], e :: es, rfl, rfl, Or.inr ⟨e, es, f, rfl, ha, rfl⟩⟩
    | ok u =>
      have hgo (es' : List Event) : t.addEvents (e :: es') = u.addEvents es' := by
        rw [addEvents, ha]
      obtain ⟨accepted, rest, hsplit, hacc, hend⟩ := ih u
      rw [hgo]
      exact ⟨e :: accepted, rest, by rw [hsplit, List.cons_append], by rw [hgo, hacc], hend⟩

theorem addEvents_append_ok {as bs : List Event} {t : Timeline} :
    (t.addEvents (as ++ bs)).2 = .ok () ↔
      (t.addEvents as).2 = .ok () ∧ ((t.addEvents as).1.addEvents bs).2 = .ok () := by
  induction as generalizing t with
  | nil => simp [addEvents]
  | cons e as ih =>
    rw [List.cons_append, addEvents, addEvents]
    cases t.addEvent e with
    | error f => simp
    | ok u => exact ih

/-- Where adding stops, every shorter prefix of the events would have been added, and
no longer one. -/
theorem addEvents_ok_iff_length_le {accepted rest as : List Event} {t : Timeline}
    (h : (t.addEvents accepted).2 = .ok ())
    (hstop : ∀ e more, rest = e :: more → ∃ f, (t.addEvents accepted).1.addEvent e = .error f)
    (has : as <+: accepted ++ rest) :
    (t.addEvents as).2 = .ok () ↔ as.length ≤ accepted.length := by
  have hacc : accepted <+: accepted ++ rest := List.prefix_append _ _
  rcases Nat.le_total as.length accepted.length with hle | hle
  · refine iff_of_true ?_ hle
    obtain ⟨more, hmore⟩ := List.prefix_of_prefix_length_le has hacc hle
    rw [← hmore] at h
    exact (addEvents_append_ok.mp h).1
  · obtain ⟨tail, rfl⟩ := List.prefix_of_prefix_length_le hacc has hle
    cases tail with
    | nil => simp [h]
    | cons e tail =>
      obtain ⟨more, hmore⟩ := (List.prefix_append_right_inj accepted).mp has
      obtain ⟨f, hf⟩ := hstop e (tail ++ more) hmore.symm
      refine iff_of_false (fun hs => ?_) (by simp)
      have hlast := (addEvents_append_ok.mp hs).2
      rw [addEvents, hf] at hlast
      cases hlast

/-- Of the events `es` exactly those of `accepted` are recorded: the longest prefix
with which the record can go on. The event after it is refused. -/
structure RecordsUpTo (t : Timeline) (es accepted : List Event) : Prop where
  begins : accepted <+: es
  longest : ∀ as, as <+: es → (t.Accepts as ↔ as.length ≤ accepted.length)
  result : t.addEvents accepted = ((t.addEvents es).1, .ok ())
  events : (t.addEvents es).1.events = t.events ++ accepted
  all : (t.addEvents es).2 = .ok () ↔ accepted = es
  refused : ∀ e more, es = accepted ++ e :: more → ∃ f,
    (t.addEvents es).1.addEvent e = .error f ∧ (t.addEvents es).2 = .error f

theorem Coherent.exists_recordsUpTo {t : Timeline} (h : t.Coherent) (es : List Event) :
    ∃ accepted, t.RecordsUpTo es accepted := by
  obtain ⟨accepted, rest, rfl, hacc, hend⟩ := addEvents_split es t
  have hok : (t.addEvents accepted).2 = .ok () := by rw [hacc]
  have hsame : (t.addEvents accepted).1 = (t.addEvents (accepted ++ rest)).1 := by rw [hacc]
  have hstop : ∀ e more, rest = e :: more → ∃ f,
      (t.addEvents (accepted ++ rest)).1.addEvent e = .error f ∧
        (t.addEvents (accepted ++ rest)).2 = .error f := by
    intro e more hrest
    rcases hend with ⟨hnil, -⟩ | ⟨e', more', f, hrest', hf, hfail⟩
    · rw [hnil] at hrest
      cases hrest
    · rw [hrest'] at hrest
      obtain ⟨rfl, -⟩ := List.cons.inj hrest
      exact ⟨f, hf, hfail⟩
  refine ⟨accepted, List.prefix_append _ _, fun as has => ?_, hacc, ?_, ?_, fun e more he => ?_⟩
  · rw [← h.addEvents_ok_iff]
    refine addEvents_ok_iff_length_le hok (fun e more hrest => ?_) has
    obtain ⟨f, hf, -⟩ := hstop e more hrest
    exact ⟨f, by rw [hsame]; exact hf⟩
  · rw [← hsame]
    exact events_addEvents hok
  · rcases hend with ⟨hnil, hs⟩ | ⟨e, more, f, hrest, -, hs⟩
    · exact iff_of_true hs (by rw [hnil, List.append_nil])
    · rw [hs, hrest]
      simp
  · exact hstop e more (List.append_cancel_left he)

/-! ### Every timeline -/

/-- What recording does, and when it fails. -/
structure RecordsExactly (t : Timeline) : Prop where
  /-- An event is refused if it is an outcome and there is no move, or for what is
  wrong with it after the record. -/
  event_error : ∀ e f, t.addEvent e = .error f ↔
    (e.isPlacement = false ∧ t.moves = [] ∧ f = .orphanOutcome) ∨
      (¬ (e.isPlacement = false ∧ t.moves = []) ∧
        ∃ s, Position.start.replay t.events = .ok s ∧ s.apply e = .error f)
  /-- A placement is refused while an earlier position is on view, or if it is not
  legal. -/
  play_error : ∀ p f, (t.play p).2 = .error f ↔
    (t.atEnd = false ∧ f = .reviewing) ∨
      (t.atEnd = true ∧ t.view.isPlayable p = false ∧ f = .illegalMove p)
  /-- A placement that is played makes one move with all the outcomes that are found
  after it, and the cursor is on that move. -/
  play_ok : ∀ p outs, (t.play p).2 = .ok outs → ∃ s, t.view.apply (.placed p) = .ok s ∧
    outs = s.findWins ∧ (t.play p).1.moves = t.moves ++ [⟨p, outs⟩] ∧
    (t.play p).1.events = t.events ++ .placed p :: outs ∧
    (t.play p).1.position = t.length ∧ (t.play p).1.atEnd = true
  /-- An operation that fails changes nothing, unless it adds several events. -/
  unchanged : ∀ o f, (∀ es, o ≠ .addEvents es) → (t.perform o).2 = .error f →
    (t.perform o).1 = t
  /-- Of several events a prefix is recorded. -/
  upTo : ∀ es, ∃ accepted, t.RecordsUpTo es accepted

/-- **Recording is exact**, in every timeline there can be. -/
theorem Reachable.recordsExactly {t : Timeline} (h : t.Reachable) : t.RecordsExactly where
  event_error _ _ := h.coherent.addEvent_error_iff
  play_error _ _ := h.coherent.play_error_iff
  play_ok _ _ := h.coherent.play_ok
  unchanged _ _ hone hf := h.coherent.unchanged_of_error hone hf
  upTo := h.coherent.exists_recordsUpTo

theorem strayOutcomes_recordsExactly :
    ∃ t, ofEvents strayOutcomes = .ok t ∧ t.Reachable ∧ t.RecordsExactly := by
  obtain ⟨t, ht⟩ : ∃ t, ofEvents strayOutcomes = .ok t := ⟨_, rfl⟩
  exact ⟨t, ht, .ofEvents ht, (Reachable.ofEvents ht).recordsExactly⟩

end Timeline

end UltimateTicTacToe
