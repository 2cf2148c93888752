/-
# What a position says about its record

A position that a replay has reached can be read off the record without replaying
it: the tiles belong to the players in turn, in the order in which they were
taken, and an outcome stands in the position exactly when its event stands in the
record. `Position.Tells` says so, and every replay from the start keeps it.

Key definitions: `mover`, `placementsOf`, `ownerAfter`, `Position.Tells`.
Key theorems: `Position.tells_of_replay`.
-/
import UltimateTicTacToe.Proofs.Replay

namespace UltimateTicTacToe

/-- The player of the placement with number `i`, counted from 0. -/
def mover (i : Nat) : Player := if i % 2 = 0 then .red else .blue

theorem mover_succ (i : Nat) : mover (i + 1) = (mover i).opponent := by
  unfold mover
  by_cases h : i % 2 = 0
  · rw [if_pos h, if_neg (by omega)]
    rfl
  · rw [if_neg h, if_pos (by omega)]
    rfl

/-- The placements of a record, in order. -/
def placementsOf (es : List Event) : List Placement := es.filterMap Event.placement?

theorem mem_placementsOf {es : List Event} {p : Placement} :
    p ∈ placementsOf es ↔ .placed p ∈ es := by
  unfold placementsOf
  rw [List.mem_filterMap]
  constructor
  · rintro ⟨e, he, hp⟩
    cases e with
    | placed q =>
      rw [Event.placement?, Option.some.injEq] at hp
      exact hp ▸ he
    | decided g o => cases hp
    | ended o => cases hp
  · exact fun h => ⟨.placed p, h, rfl⟩

theorem placementsOf_eq_nil {es : List Event} (h : ∀ e ∈ es, e.isPlacement = false) :
    placementsOf es = [] := by
  refine List.eq_nil_iff_forall_not_mem.mpr fun p hp => ?_
  cases h _ (mem_placementsOf.mp hp)

theorem placementsOf_snoc (es : List Event) (e : Event) :
    placementsOf (es ++ [e]) = placementsOf es ++ e.placement?.toList := by
  unfold placementsOf
  rw [List.filterMap_append]
  cases e with
  | placed p => rfl
  | decided g o => rfl
  | ended o => rfl

/-- The owner of a tile after the placements `ps`: the player who took it, none
if nobody did. -/
def ownerAfter (ps : List Placement) (q : Placement) : Option Player := (ps.idxOf? q).map mover

theorem ownerAfter_eq_none {ps : List Placement} {q : Placement} :
    ownerAfter ps q = none ↔ q ∉ ps := by
  simp [ownerAfter]

/-- One more placement gives its tile to the player to move, if it was free. -/
theorem ownerAfter_snoc (ps : List Placement) (p q : Placement) :
    ownerAfter (ps ++ [p]) q =
      (ownerAfter ps q).or (if p = q then some (mover ps.length) else none) := by
  unfold ownerAfter List.idxOf?
  rw [List.findIdx?_append]
  cases ps.findIdx? (· == q) with
  | some i => simp
  | none =>
    by_cases h : p = q
    · simp [h]
    · simp [h]

namespace Position

/-- The position holds what the record `es` says, and nothing else. -/
structure Tells (s : Position) (es : List Event) : Prop where
  turn : s.turn = mover (placementsOf es).length
  owner : ∀ q, s.owner q = ownerAfter (placementsOf es) q
  decided : ∀ g o, s.decided.get g = some o ↔ .decided g o ∈ es
  winner : ∀ o, s.winner = some o ↔ .ended o ∈ es

theorem owner_start (q : Placement) : start.owner q = none := by
  have hboard : start.board q.grid = .empty := by
    simp only [board, start, Vector.getElem?_replicate]
    split
    · rfl
    · rfl
  rw [owner, tile, hboard, Cells.get_empty]

theorem tells_start : start.Tells [] where
  turn := rfl
  owner := owner_start
  decided g o := by simp [start, Cells.get_empty]
  winner o := by simp [start]

theorem Tells.decided_eq_none {s : Position} {es : List Event} (h : s.Tells es) {g : Nat} :
    s.decided.get g = none ↔ ∀ o, .decided g o ∉ es := by
  rw [Option.eq_none_iff_forall_ne_some]
  exact forall_congr' fun o => not_congr (h.decided g o)

theorem Tells.winner_eq_none {s : Position} {es : List Event} (h : s.Tells es) :
    s.winner = none ↔ ∀ o, .ended o ∉ es := by
  rw [Option.eq_none_iff_forall_ne_some]
  exact forall_congr' fun o => not_congr (h.winner o)

theorem Tells.owner_eq_none {s : Position} {es : List Event} (h : s.Tells es) {p : Placement} :
    s.owner p = none ↔ .placed p ∉ es := by
  rw [h.owner, ownerAfter_eq_none, mem_placementsOf]

/-- One more event in the record, one more fact in the position. -/
theorem Tells.apply {s t : Position} {es : List Event} {e : Event} (h : s.Tells es)
    (ha : s.apply e = .ok t) : t.Tells (es ++ [e]) := by
  cases e with
  | placed p =>
    obtain ⟨-, hp, ho, rfl⟩ := apply_placed.mp ha
    have hps : placementsOf (es ++ [.placed p]) = placementsOf es ++ [p] := placementsOf_snoc _ _
    refine ⟨?_, fun q => ?_, fun g o => ?_, fun o => ?_⟩
    · rw [hps, List.length_append, List.length_singleton, mover_succ, ← h.turn]
      rfl
    · rw [hps, ownerAfter_snoc, ← h.owner, ← h.turn, owner_place]
      by_cases hpq : p = q
      · rw [← hpq, ho]
        simp [hp]
      · simp [hpq]
    · simpa using h.decided g o
    · simpa using h.winner o
  | decided g o =>
    obtain ⟨-, hg, hd, rfl⟩ := apply_decided.mp ha
    have hps : placementsOf (es ++ [.decided g o]) = placementsOf es :=
      (placementsOf_snoc _ _).trans (List.append_nil _)
    refine ⟨?_, fun q => ?_, fun g' o' => ?_, fun o' => ?_⟩
    · rw [hps]
      exact h.turn
    · rw [hps]
      exact h.owner q
    · have hnew := h.decided_eq_none.mp hd
      simp only [Cells.get_put, List.mem_append, List.mem_singleton, Event.decided.injEq]
      by_cases hgg : g = g'
      · rw [if_pos ⟨hgg, hg⟩, Option.some.injEq]
        constructor
        · exact fun ho => Or.inr ⟨hgg.symm, ho.symm⟩
        · rintro (hmem | ⟨-, ho⟩)
          · exact absurd hmem (hgg ▸ hnew o')
          · exact ho.symm
      · rw [if_neg fun h' => hgg h'.1, h.decided]
        simp [Ne.symm hgg]
    · simpa using h.winner o'
  | ended o =>
    obtain ⟨hw, rfl⟩ := apply_ended.mp ha
    have hps : placementsOf (es ++ [.ended o]) = placementsOf es :=
      (placementsOf_snoc _ _).trans (List.append_nil _)
    refine ⟨?_, fun q => ?_, fun g' o' => ?_, fun o' => ?_⟩
    · rw [hps]
      exact h.turn
    · rw [hps]
      exact h.owner q
    · simpa using h.decided g' o'
    · have hnew := h.winner_eq_none.mp hw
      simp only [List.mem_append, List.mem_singleton, Event.ended.injEq, hnew o', false_or,
        Option.some.injEq]
      exact eq_comm

/-- **A replay ends where its record says.** -/
theorem tells_of_replay {s : Position} {es : List Event} (h : start.replay es = .ok s) :
    s.Tells es :=
  replay_induction (motive := fun es s => s.Tells es) tells_start
    (fun _ _ _ _ _ ht ha => ht.apply ha) h

end Position

end UltimateTicTacToe
