/-
# Opening a record again

The events of a timeline are its moves one after the other, each move a placement with the
outcomes behind it. Whatever is done to a timeline, only outcomes come to stand behind a
placement (`Timeline.Reachable.proper`), so the events say where each move begins: the
moves are found again by putting to each placement the run of outcomes up to the next one
(`Move.group_events`). When the events are recorded anew, every placement opens a move
and the outcomes join it, so the same moves come out (`Timeline.addEvents_moves`). A
timeline is therefore found again from its events, with the end on view, and a list of
events is found again in the timeline that is made of it (`Timeline.ofEvents_grouping`).

Key definitions: `Move.group`, `Timeline.Grouped`.
Key theorems: `Move.group_events`, `Timeline.addEvents_moves`,
`Timeline.Coherent.ofEvents_events`, `Timeline.Ruled.ofEvents_events`,
`Timeline.ofEvents_grouping`.
-/
import UltimateTicTacToe.Proofs.Recording

namespace UltimateTicTacToe

/-! ### Moves and their events -/

namespace Move

/-- Every placement with the outcomes that stand behind it, up to the next placement. -/
def group : List Event → List Move
  | [] => []
  | .placed p :: es => ⟨p, es.takeWhile fun e => !e.isPlacement⟩ :: group es
  | _ :: es => group es

theorem group_outcomes {outs : List Event} (h : ∀ e ∈ outs, e.isPlacement = false)
    (es : List Event) : group (outs ++ es) = group es := by
  induction outs with
  | nil => rfl
  | cons e outs ih =>
    obtain ⟨he, houts⟩ := List.forall_mem_cons.mp h
    cases e with
    | placed p => cases he
    | decided g o => exact ih houts
    | ended o => exact ih houts

/-- The run of outcomes ends where the next placement stands. -/
theorem takeWhile_outcomes {outs es : List Event} (h : ∀ e ∈ outs, e.isPlacement = false)
    (hes : Opens es) : (outs ++ es).takeWhile (fun e => !e.isPlacement) = outs := by
  rw [List.takeWhile_append_of_pos fun e he => by rw [h e he]; rfl]
  cases es with
  | nil => exact List.append_nil outs
  | cons e es =>
    have he : e.isPlacement = true := hes e rfl
    rw [List.takeWhile_cons_of_neg (by simp [he]), List.append_nil]

theorem opens_events (ms : List Move) : Opens (ms.flatMap events) := by
  cases ms with
  | nil => exact fun _ h => nomatch h
  | cons m ms =>
    intro e he
    obtain rfl := Option.some.inj he
    rfl

/-- **The events of moves say which moves they are.** -/
theorem group_events {ms : List Move} (h : ∀ m ∈ ms, m.Proper) :
    group (ms.flatMap events) = ms := by
  induction ms with
  | nil => rfl
  | cons m ms ih =>
    obtain ⟨hm, hms⟩ := List.forall_mem_cons.mp h
    rw [List.flatMap_cons, events, List.cons_append, group, group_outcomes hm, ih hms,
      takeWhile_outcomes hm (opens_events ms)]

end Move

namespace Timeline

/-! ### Behind a placement there are outcomes only -/

theorem proper_addEvent {t u : Timeline} {e : Event} (h : ∀ m ∈ t.moves, m.Proper)
    (ha : t.addEvent e = .ok u) : ∀ m ∈ u.moves, m.Proper := by
  obtain ⟨moves, final, hm, -, rfl⟩ := addEvent_ok.mp ha
  have hmoves := Move.proper_record h hm
  split
  · exact hmoves
  · exact hmoves

theorem proper_addEvents (es : List Event) {t : Timeline} (h : ∀ m ∈ t.moves, m.Proper) :
    ∀ m ∈ (t.addEvents es).1.moves, m.Proper := by
  induction es generalizing t with
  | nil => exact h
  | cons e es ih =>
    rw [addEvents]
    cases ha : t.addEvent e with
    | error f => exact h
    | ok u => exact ih (proper_addEvent h ha)

/-- Every operation leaves proper moves, whether it succeeds or not. -/
theorem Coherent.proper_perform {t : Timeline} (h : t.Coherent) (hms : ∀ m ∈ t.moves, m.Proper)
    (o : Operation) : ∀ m ∈ (t.perform o).1.moves, m.Proper := by
  have hbrowse (ho : o.browses = true) : ∀ m ∈ (t.perform o).1.moves, m.Proper := by
    obtain ⟨k, -, hk⟩ := h.perform_of_browses ho
    rw [hk]
    exact hms
  cases o with
  | addEvent e =>
    rw [Timeline.perform]
    cases ha : t.addEvent e with
    | error f => exact hms
    | ok u => exact proper_addEvent hms ha
  | addEvents es => exact proper_addEvents es hms
  | play p =>
    rw [Timeline.perform]
    cases hp : (t.play p).2 with
    | error f =>
      rw [h.play_unchanged hp]
      exact hms
    | ok outs =>
      obtain ⟨s, -, houts, hmoves, -⟩ := h.play_ok hp
      have hmove : Move.Proper ⟨p, outs⟩ := houts ▸ Position.isPlacement_findWins
      rw [hmoves]
      exact List.forall_mem_append.mpr ⟨hms, List.forall_mem_singleton.mpr hmove⟩
  | clear => exact List.forall_mem_nil _
  | next => exact hbrowse rfl
  | previous => exact hbrowse rfl
  | goToBeginning => exact hbrowse rfl
  | goToEnd => exact hbrowse rfl
  | goTo p => exact hbrowse rfl

theorem proper_of_ofEvents {es : List Event} {t : Timeline} (h : ofEvents es = .ok t) :
    ∀ m ∈ t.moves, m.Proper := by
  have hadded := proper_addEvents es (t := empty) (List.forall_mem_nil _)
  rwa [ofEvents_ok.mp h] at hadded

/-- **In every timeline there can be, the moves are proper.** -/
theorem Reachable.proper {t : Timeline} (h : t.Reachable) : ∀ m ∈ t.moves, m.Proper := by
  induction h with
  | empty => exact List.forall_mem_nil _
  | ofEvents h => exact proper_of_ofEvents h
  | perform o h ih => exact h.coherent.proper_perform ih o

/-! ### Recording anew -/

theorem addEvents_append {t u : Timeline} {as : List Event} (h : t.addEvents as = (u, .ok ()))
    (bs : List Event) : t.addEvents (as ++ bs) = u.addEvents bs := by
  induction as generalizing t with
  | nil =>
    cases h
    rfl
  | cons e as ih =>
    rw [addEvents] at h
    rw [List.cons_append, addEvents]
    cases he : t.addEvent e with
    | ok v =>
      rw [he] at h
      exact ih h
    | error f =>
      rw [he] at h
      cases h

/-- **Events that are recorded anew make the same moves.** -/
theorem addEvents_moves {ms : List Move} {s : Position} (hproper : ∀ m ∈ ms, m.Proper)
    (h : Position.start.replay (ms.flatMap Move.events) = .ok s) :
    empty.addEvents (ms.flatMap Move.events) = (⟨ms, ms.length, s, s⟩, .ok ()) := by
  induction ms using List.reverseRecOn generalizing s with
  | nil =>
    cases h
    rfl
  | append_singleton ms m ih =>
    obtain ⟨hms, hm⟩ := List.forall_mem_append.mp hproper
    have hm : m.Proper := List.forall_mem_singleton.mp hm
    rw [List.flatMap_append, List.flatMap_singleton] at h ⊢
    obtain ⟨r, hr, hmove⟩ := Position.replay_append_ok.mp h
    obtain ⟨u, hu, hs⟩ := Position.replay_cons_ok.mp hmove
    have hadd : addEvent ⟨ms, ms.length, r, r⟩ (.placed m.placement) =
        .ok ⟨ms ++ [⟨m.placement, []⟩], ms.length + 1, u, u⟩ := by
      refine addEvent_ok.mpr ⟨_, u, Move.record_placed m.placement ms, hu, ?_⟩
      rw [if_pos (atEnd_iff.mpr rfl), List.length_append, List.length_singleton]
    rw [addEvents_append (ih hms hr), Move.events, addEvents, hadd]
    simp only
    rw [addEvents_outcomes hm hs, List.length_append, List.length_singleton]
    rfl

/-- **A timeline is found again from its events**, with the end on view. -/
theorem Coherent.ofEvents_events {t : Timeline} (h : t.Coherent)
    (hproper : ∀ m ∈ t.moves, m.Proper) :
    ofEvents t.events = .ok (t.openAt t.moves.length) := by
  have hadd : empty.addEvents t.events = (⟨t.moves, t.moves.length, t.final, t.final⟩, .ok ()) :=
    addEvents_moves hproper h.final
  rw [ofEvents, hadd, openAt, h.viewAt_length]

theorem Ruled.ofEvents_events {t : Timeline} (h : t.Ruled) (hend : t.atEnd = true) :
    ofEvents t.events = .ok t := by
  have hopen : t.openAt t.moves.length = t := by
    rw [← atEnd_iff.mp hend]
    exact h.openAt_shown
  rw [h.toCoherent.ofEvents_events h.byRules.proper, hopen]

/-! ### There and back -/

/-- The timeline holds the events `es`, in their order, as moves: each placement among
them opens one, which the outcomes behind it belong to, and the last one is on view. -/
structure Grouped (t : Timeline) (es : List Event) : Prop where
  events : t.events = es
  moves : t.moves = Move.group es
  length : t.length = es.countP Event.isPlacement
  placements : t.placements = placementsOf es
  atEnd : t.atEnd = true

theorem grouped_of_ofEvents {es : List Event} {t : Timeline} (h : ofEvents es = .ok t) :
    t.Grouped es := by
  have hproper := proper_of_ofEvents h
  have hevents : t.events = es := by
    have hadd := ofEvents_ok.mp h
    have hrecorded := events_addEvents (t := empty) (congrArg Prod.snd hadd)
    rwa [hadd] at hrecorded
  have hplacements : t.placements = placementsOf es := by
    rw [← hevents]
    exact (Move.placementsOf_events hproper).symm
  refine ⟨hevents, ?_, ?_, hplacements, ?_⟩
  · rw [← hevents]
    exact (Move.group_events hproper).symm
  · have hlength : t.length = t.placements.length := (List.length_map _).symm
    rw [hlength, hplacements, placementsOf, List.length_filterMap_eq_countP]
    rfl
  · have hagain := (coherent_of_ofEvents h).ofEvents_events hproper
    rw [hevents, h] at hagain
    rw [Except.ok.inj hagain]
    exact atEnd_iff.mpr rfl

/-- **Grouping loses nothing.** A list of events that makes a timeline is found in it as
it was, each placement with the outcomes up to the next one as a move, and the end on
view. And every timeline there can be, whatever is on view, is found again from its
events: they make the timeline that it is with its last position on view. -/
theorem ofEvents_grouping :
    (∀ es t, ofEvents es = .ok t → t.Grouped es) ∧
    ∀ t : Timeline, t.Reachable → ∃ u, ofEvents t.events = .ok u ∧ u.moves = t.moves ∧
      t.goToEnd = (u, .ok ()) := by
  refine ⟨fun es t => grouped_of_ofEvents, fun t h => ?_⟩
  exact ⟨t.openAt t.moves.length, h.coherent.ofEvents_events h.proper, rfl, h.coherent.goToEnd_eq⟩

/-- Events are added one by one and together, some of them in vain; an outcome joins the
last move while the empty board is on view, and an earlier record is cleared away. -/
def patchedRecord : List Operation :=
  [.addEvent (.placed ⟨8, 8⟩), .clear, .addEvents [.ended .red], .play ⟨4, 0⟩,
    .addEvents [.placed ⟨0, 4⟩, .decided 0 .blue, .placed ⟨4, 0⟩, .placed ⟨4, 1⟩], .goTo (-1),
    .addEvent (.decided 4 .stalemate), .next]

theorem patchedRecord_grouping :
    let es : List Event := [.placed ⟨4, 0⟩, .placed ⟨0, 4⟩, .decided 0 .blue, .decided 4 .stalemate]
    (empty.run patchedRecord).events = es ∧ ∃ u, ofEvents es = .ok u ∧ u.Grouped es ∧
      u.moves = [⟨⟨4, 0⟩, []⟩, ⟨⟨0, 4⟩, [.decided 0 .blue, .decided 4 .stalemate]⟩] ∧
      (empty.run patchedRecord).goToEnd = (u, .ok ()) := by
  intro es
  obtain ⟨hgrouped, hfound⟩ := ofEvents_grouping
  have hevents : (empty.run patchedRecord).events = es := rfl
  obtain ⟨u, hu, hmoves, hend⟩ := hfound _ (Reachable.empty.run patchedRecord)
  rw [hevents] at hu
  exact ⟨hevents, u, hu, hgrouped es u hu, hmoves, hend⟩

end Timeline

end UltimateTicTacToe
