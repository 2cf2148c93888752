/-
# The records that a timeline accepts

Which lists of events make a record is decided event by event, by a position that
is carried along. It can as well be said of the whole list (`Regular`): every number
lies on the board, no tile is taken twice, no sub-board is decided twice, and
nothing follows the end of the game. Together with a placement at the beginning
this is all that a timeline asks. Whether a sub-board's outcome is the one that its
tiles show is not asked, nor is whose turn it is or where the next player was sent.

A list that is not regular has a first event that breaks it, and the fault is the
one that this event meets there, whatever follows it (`Timeline.ofEvents_language`).

Key definitions: `Regular`, `Follows`.
Key theorems: `regular_snoc`, `Position.apply_ok_iff_follows`,
`Position.regular_iff_replay`, `Timeline.ofEvents_language`.
-/
import Mathlib.Data.List.Nodup
import UltimateTicTacToe.Proofs.Record
import UltimateTicTacToe.Proofs.Tally

namespace UltimateTicTacToe

/-- Whether the numbers that the event names lie on the board. -/
def Event.onBoard : Event → Bool
  | .placed p => p.onBoard
  | .decided g _ => isIndex g
  | .ended _ => true

/-- The sub-board that the event decides, if it decides one. -/
def Event.grid? : Event → Option Nat
  | .decided g _ => some g
  | _ => none

/-- The events contradict neither the board nor one another. -/
structure Regular (es : List Event) : Prop where
  onBoard : ∀ e ∈ es, e.onBoard = true
  tilesOnce : (placementsOf es).Nodup
  gridsOnce : (es.filterMap Event.grid?).Nodup
  endsLast : ∀ before o after, es = before ++ .ended o :: after → after = []

/-- The event can come after the events `es`. -/
structure Follows (es : List Event) (e : Event) : Prop where
  running : ∀ o, .ended o ∉ es
  onBoard : e.onBoard = true
  tileFree : ∀ p, e = .placed p → .placed p ∉ es
  gridOpen : ∀ g o, e = .decided g o → ∀ o', .decided g o' ∉ es

theorem mem_filterMap_grid {es : List Event} {g : Nat} :
    g ∈ es.filterMap Event.grid? ↔ ∃ o, .decided g o ∈ es := by
  rw [List.mem_filterMap]
  constructor
  · rintro ⟨e, he, hg⟩
    cases e with
    | placed p => cases hg
    | decided g' o =>
      rw [Event.grid?, Option.some.injEq] at hg
      exact ⟨o, hg ▸ he⟩
    | ended o => cases hg
  · rintro ⟨o, h⟩
    exact ⟨_, h, rfl⟩

theorem regular_nil : Regular [] where
  onBoard := by simp
  tilesOnce := List.nodup_nil
  gridsOnce := List.nodup_nil
  endsLast := by simp

/-- Nothing follows the end of the game. -/
theorem endsLast_snoc {es : List Event} {e : Event} :
    (∀ before o after, es ++ [e] = before ++ .ended o :: after → after = []) ↔
      ∀ o, .ended o ∉ es := by
  constructor
  · intro h o hmem
    obtain ⟨before, after, rfl⟩ := List.append_of_mem hmem
    have := h before o (after ++ [e]) (by simp)
    simp at this
  · intro h before o after heq
    rcases snoc_eq_append_cons.mp heq with ⟨-, -, hnil⟩ | ⟨init, -, rfl⟩
    · exact hnil
    · exact absurd (by simp) (h o)

theorem nodup_snoc_filterMap {β : Type} {f : Event → Option β} {es : List Event} {e : Event} :
    ((es ++ [e]).filterMap f).Nodup ↔
      (es.filterMap f).Nodup ∧ ∀ b, f e = some b → b ∉ es.filterMap f := by
  rw [List.filterMap_append]
  cases he : f e with
  | none => simp [he]
  | some b =>
    have hsingle : [e].filterMap f = [b] := by simp [he]
    rw [hsingle, ← List.concat_eq_append, List.nodup_concat, and_comm]
    simp

/-- A regular list is made by one event after another. -/
theorem regular_snoc {es : List Event} {e : Event} :
    Regular (es ++ [e]) ↔ Regular es ∧ Follows es e := by
  constructor
  · rintro ⟨hb, ht, hg, he⟩
    obtain ⟨ht, htile⟩ := nodup_snoc_filterMap.mp ht
    obtain ⟨hg, hgrid⟩ := nodup_snoc_filterMap.mp hg
    have hrun := endsLast_snoc.mp he
    refine ⟨⟨fun e' he' => hb e' (List.mem_append_left _ he'), ht, hg,
      fun before o after heq => ?_⟩, hrun, hb e (by simp), fun p hp hmem => ?_,
      fun g o hd o' hmem => ?_⟩
    · exact absurd (by rw [heq]; simp) (hrun o)
    · exact htile p (by rw [hp]; rfl) (mem_placementsOf.mpr hmem)
    · exact hgrid g (by rw [hd]; rfl) (mem_filterMap_grid.mpr ⟨o', hmem⟩)
  · rintro ⟨⟨hb, ht, hg, -⟩, hrun, hbe, htile, hgrid⟩
    refine ⟨fun e' he' => ?_, nodup_snoc_filterMap.mpr ⟨ht, fun p hp hmem => ?_⟩,
      nodup_snoc_filterMap.mpr ⟨hg, fun g hd hmem => ?_⟩, endsLast_snoc.mpr hrun⟩
    · rcases List.mem_append.mp he' with he' | he'
      · exact hb e' he'
      · rw [List.mem_singleton.mp he']
        exact hbe
    · cases e with
      | placed q =>
        rw [Event.placement?, Option.some.injEq] at hp
        exact htile q rfl (mem_placementsOf.mp (hp ▸ hmem))
      | decided g o => cases hp
      | ended o => cases hp
    · obtain ⟨o', ho'⟩ := mem_filterMap_grid.mp hmem
      cases e with
      | placed q => cases hd
      | decided g' o =>
        rw [Event.grid?, Option.some.injEq] at hd
        exact hgrid g' o rfl o' (hd ▸ ho')
      | ended o => cases hd

theorem Regular.of_prefix {es fs : List Event} (h : Regular fs) (hp : es <+: fs) : Regular es := by
  obtain ⟨rest, rfl⟩ := hp
  induction rest using List.reverseRecOn with
  | nil => rwa [List.append_nil] at h
  | append_singleton rest e ih =>
    rw [← List.append_assoc] at h
    exact ih (regular_snoc.mp h).1

namespace Position

/-- A position accepts exactly the events that can come after its record. -/
theorem apply_ok_iff_follows {s : Position} {es : List Event} (h : s.Tells es) {e : Event} :
    (∃ t, s.apply e = .ok t) ↔ Follows es e := by
  cases e with
  | placed p =>
    constructor
    · rintro ⟨t, ht⟩
      obtain ⟨hw, hp, ho, -⟩ := apply_placed.mp ht
      refine ⟨h.winner_eq_none.mp hw, hp, fun q hq => ?_, fun g o hd => ?_⟩
      · rw [← Event.placed.inj hq]
        exact h.owner_eq_none.mp ho
      · cases hd
    · rintro ⟨hrun, hp, htile, -⟩
      exact ⟨_, apply_placed.mpr
        ⟨h.winner_eq_none.mpr hrun, hp, h.owner_eq_none.mpr (htile p rfl), rfl⟩⟩
  | decided g o =>
    constructor
    · rintro ⟨t, ht⟩
      obtain ⟨hw, hg, hd, -⟩ := apply_decided.mp ht
      refine ⟨h.winner_eq_none.mp hw, by simpa [Event.onBoard, isIndex] using hg,
        fun p hp => ?_, fun g' o' he => ?_⟩
      · cases hp
      · rw [← (Event.decided.inj he).1]
        exact h.decided_eq_none.mp hd
    · rintro ⟨hrun, hg, -, hgrid⟩
      exact ⟨_, apply_decided.mpr ⟨h.winner_eq_none.mpr hrun,
        by simpa [Event.onBoard, isIndex] using hg, h.decided_eq_none.mpr (hgrid g o rfl), rfl⟩⟩
  | ended o =>
    constructor
    · rintro ⟨t, ht⟩
      refine ⟨h.winner_eq_none.mp (apply_ended.mp ht).1, rfl, fun p hp => ?_, fun g o' hd => ?_⟩
      · cases hp
      · cases hd
    · rintro ⟨hrun, -, -, -⟩
      exact ⟨_, apply_ended.mpr ⟨h.winner_eq_none.mpr hrun, rfl⟩⟩

/-- **Replays accept the regular lists**, and no others. -/
theorem regular_iff_replay (es : List Event) : Regular es ↔ ∃ s, start.replay es = .ok s := by
  induction es using List.reverseRecOn with
  | nil => exact ⟨fun _ => ⟨start, rfl⟩, fun _ => regular_nil⟩
  | append_singleton es e ih =>
    rw [regular_snoc, ih]
    constructor
    · rintro ⟨⟨s, hs⟩, hf⟩
      obtain ⟨t, ht⟩ := (apply_ok_iff_follows (tells_of_replay hs)).mpr hf
      exact ⟨t, replay_append_ok.mpr ⟨s, hs, replay_singleton_ok.mpr ht⟩⟩
    · rintro ⟨t, ht⟩
      obtain ⟨s, hs, ht⟩ := replay_append_ok.mp ht
      exact ⟨⟨s, hs⟩, (apply_ok_iff_follows (tells_of_replay hs)).mp
        ⟨t, replay_singleton_ok.mp ht⟩⟩

/-- The event at which a replay stops is the first that breaks the list. -/
theorem first_break_of_error {es : List Event} {f : Fault} (h : start.replay es = .error f) :
    ∃ before e after s, es = before ++ e :: after ∧ Regular before ∧ ¬ Regular (before ++ [e]) ∧
      start.replay before = .ok s ∧ s.apply e = .error f := by
  obtain ⟨before, e, after, s, rfl, hs, hf⟩ := replay_error h
  refine ⟨before, e, after, s, rfl, (regular_iff_replay before).mpr ⟨s, hs⟩, fun hr => ?_, hs, hf⟩
  obtain ⟨t, ht⟩ := (apply_ok_iff_follows (tells_of_replay hs)).mpr (regular_snoc.mp hr).2
  rw [hf] at ht
  cases ht

end Position

namespace Timeline

theorem ofEvents_eq (es : List Event) :
    ofEvents es = (empty.addEvents es).2.map fun _ => (empty.addEvents es).1 := by
  unfold ofEvents
  split
  · rename_i h
    rw [h]
    rfl
  · rename_i h
    rw [h]
    rfl

theorem ofEvents_ok {es : List Event} {t : Timeline} :
    ofEvents es = .ok t ↔ empty.addEvents es = (t, .ok ()) := by
  unfold ofEvents
  rcases empty.addEvents es with ⟨u, f | a⟩
  · simp
  · simp

theorem ofEvents_of_not_opens {es : List Event} (h : ¬ Opens es) :
    ofEvents es = .error .orphanOutcome := by
  cases es with
  | nil => exact absurd (by simp [Opens]) h
  | cons e es =>
    have he : e.isPlacement = false := by simpa [Opens] using h
    have ha : empty.addEvent e = .error .orphanOutcome :=
      addEvent_error.mpr (Or.inl ⟨rfl, he, rfl⟩)
    rw [ofEvents, addEvents, ha]

/-- A record that begins with a placement is accepted or refused as a replay. -/
theorem ofEvents_of_opens {es : List Event} (h : Opens es) :
    ofEvents es = (Position.start.replay es).map fun _ => (empty.addEvents es).1 := by
  have hsnd := addEvents_snd (t := empty) (Or.inr h)
  have hfinal : empty.final = .start := rfl
  rw [ofEvents_eq, hsnd, hfinal]
  cases Position.start.replay es with
  | ok s => rfl
  | error f => rfl

/-- **The accepted records** are the regular lists that are empty or begin with a
placement. Any other list is refused: for its first event if that is no placement,
and otherwise for the first event that breaks it, with the fault that this event
meets after the events before it. -/
theorem ofEvents_language (es : List Event) :
    ((∃ t, ofEvents es = .ok t) ↔ Opens es ∧ Regular es) ∧
    (¬ Opens es → ofEvents es = .error .orphanOutcome) ∧
    (Opens es → ¬ Regular es → ∃ before e after s f, es = before ++ e :: after ∧
      (∀ shorter, shorter <+: before → Regular shorter) ∧ ¬ Regular (before ++ [e]) ∧
      Position.start.replay before = .ok s ∧ s.apply e = .error f ∧ ofEvents es = .error f) := by
  refine ⟨⟨?_, ?_⟩, ofEvents_of_not_opens, fun hopen hreg => ?_⟩
  · rintro ⟨t, ht⟩
    by_cases hopen : Opens es
    · refine ⟨hopen, (Position.regular_iff_replay es).mpr ?_⟩
      rw [ofEvents_of_opens hopen] at ht
      cases hr : Position.start.replay es with
      | ok s => exact ⟨s, rfl⟩
      | error f =>
        rw [hr] at ht
        cases ht
    · rw [ofEvents_of_not_opens hopen] at ht
      cases ht
  · rintro ⟨hopen, hreg⟩
    obtain ⟨s, hs⟩ := (Position.regular_iff_replay es).mp hreg
    exact ⟨_, by rw [ofEvents_of_opens hopen, hs]; rfl⟩
  · cases hr : Position.start.replay es with
    | ok s => exact absurd ((Position.regular_iff_replay es).mpr ⟨s, hr⟩) hreg
    | error f =>
      obtain ⟨before, e, after, s, heq, hb, hbe, hs, hf⟩ := Position.first_break_of_error hr
      refine ⟨before, e, after, s, f, heq, fun shorter hsh => hb.of_prefix hsh, hbe, hs, hf, ?_⟩
      rw [ofEvents_of_opens hopen, hr]
      rfl

end Timeline

end UltimateTicTacToe
