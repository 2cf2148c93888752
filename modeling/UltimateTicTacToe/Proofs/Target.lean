/-
# Where a move sends the next player

A placement sends the next player to the sub-board that its tile points at, unless that one
is decided already. What the placement itself decides comes later and changes nothing about
this, so a player may be sent to a sub-board that is decided by then. A legal placement
decides no sub-board but its own, and so this happens in one way only: tile `g` of sub-board
`g` is taken, and that decides sub-board `g` (`Position.Settled.sentToDecided_iff`).

The position on view is that of the moves on view, wherever the cursor has come from. So
the same holds of a timeline that has been gone through in any way: what the move on view
has been sent by, or has sent on, can be read off that move and the position one step back
(`Timeline.run_target`).

Key definitions: `Timeline.SendsBack`.
Key theorems: `Position.Settled.sentToDecided_iff`, `Timeline.Ruled.sentToDecided_iff`,
`Timeline.run_target`.
-/
import UltimateTicTacToe.Proofs.Play

namespace UltimateTicTacToe

/-! ### One placement -/

namespace Position

/-- The outcomes of a placement leave alone where it sends the next player. -/
theorem target_of_place {s t : Position} {p : Placement}
    (ht : (s.place p).replay (s.place p).findWins = .ok t) :
    t.target = if s.decided.get p.tile = none then some p.tile else none :=
  (frame_of_outcomes isPlacement_findWins ht).2.1

namespace Settled

variable {s t : Position} {p : Placement}

/-- A legal placement reports its own sub-board and no other, with the outcome that the
tiles show. -/
theorem decided_mem_findWins_place (h : s.Settled) (hp : s.isPlayable p = true) {g : Nat}
    {o : Outcome} : .decided g o ∈ (s.place p).findWins ↔
      p.grid = g ∧ subBoardOutcome ((s.place p).board p.grid) = some o := by
  rw [h.findWins_place hp]
  cases subBoardOutcome ((s.place p).board p.grid) with
  | none => simp
  | some o' => simp [eq_comm]

/-- A legal placement changes the recorded outcome of its own sub-board only. -/
theorem decided_of_place (h : s.Settled) (hp : s.isPlayable p = true)
    (ht : (s.place p).replay (s.place p).findWins = .ok t) (g : Nat) :
    t.decided.get g =
      if p.grid = g then subBoardOutcome ((s.place p).board p.grid) else s.decided.get g := by
  obtain ⟨-, hb, -⟩ := isPlayable_iff.mp hp
  have hg := (Placement.onBoard_iff.mp hb).1
  rw [h.eq_of_place hp ht]
  show (s.decided.put p.grid _).get g = _
  simp [Cells.get_put, hg]

/-- **A player is sent to a decided sub-board in one case only**: the placement has
decided the sub-board to which it sends, and that is its own. -/
theorem sentToDecided_iff (h : s.Settled) (hp : s.isPlayable p = true)
    (ht : (s.place p).replay (s.place p).findWins = .ok t) (g : Nat) :
    t.target = some g ∧ t.decided.get g ≠ none ↔
      p = ⟨g, g⟩ ∧ ∃ o, .decided g o ∈ (s.place p).findWins := by
  obtain ⟨-, -, -, hd, -⟩ := isPlayable_iff.mp hp
  simp only [target_of_place ht, h.decided_of_place hp ht, h.decided_mem_findWins_place hp]
  constructor
  · rintro ⟨htarget, hdecided⟩
    -- the sub-board was open when the placement pointed at it
    by_cases hopen : s.decided.get p.tile = none
    · rw [if_pos hopen, Option.some.injEq] at htarget
      subst htarget
      by_cases hgrid : p.grid = p.tile
      · rw [if_pos hgrid] at hdecided
        obtain ⟨o, ho⟩ := Option.ne_none_iff_exists'.mp hdecided
        exact ⟨congrArg (Placement.mk · p.tile) hgrid, o, hgrid, ho⟩
      · rw [if_neg hgrid] at hdecided
        exact absurd hopen hdecided
    · rw [if_neg hopen] at htarget
      cases htarget
  · rintro ⟨rfl, o, -, ho⟩
    rw [if_pos hd, if_pos rfl, ho]
    exact ⟨rfl, nofun⟩

end Settled
end Position

/-! ### The move on view -/

namespace Timeline

/-- The last move on view took tile `g` of sub-board `g` and decided this sub-board: the
next player is sent where nobody can play any more. -/
def SendsBack (t : Timeline) (g : Nat) : Prop :=
  0 ≤ t.position ∧ ∃ m o, t.moves[t.position.toNat]? = some m ∧ m.placement = ⟨g, g⟩ ∧
    .decided g o ∈ m.outcomes

/-- A move is on view unless the empty board is, and one step back is the position that it
was played in. -/
theorem Coherent.exists_shown {t : Timeline} (h : t.Coherent) (hpos : 0 ≤ t.position) :
    ∃ k m, t.position.toNat = k ∧ t.moves[k]? = some m ∧ t.previous = .ok (some (t.openAt k)) ∧
      t.view = t.viewAt (k + 1) := by
  have hle := h.shown_le
  have hposition : t.position = t.shown - 1 := rfl
  obtain ⟨k, hk⟩ : ∃ k, t.shown = k + 1 := ⟨t.shown - 1, by omega⟩
  refine ⟨k, t.moves[k], by omega, List.getElem?_eq_getElem (by omega), ?_, ?_⟩
  · rw [h.previous_eq, if_pos (by omega), hk, Nat.add_sub_cancel]
  · rw [← hk]
    exact (congrArg Timeline.view h.openAt_shown).symm

theorem Coherent.view_eq_start {t : Timeline} (h : t.Coherent) (hpos : t.position < 0) :
    t.view = .start := by
  have hposition : t.position = t.shown - 1 := rfl
  have hview := h.view
  rw [show t.shown = 0 by omega] at hview
  exact (Except.ok.inj hview).symm

/-- A player is sent to a decided sub-board by a move that sends back, and by no other. -/
theorem Ruled.sentToDecided_iff {t : Timeline} (h : t.Ruled) (g : Nat) :
    t.view.target = some g ∧ t.view.decided.get g ≠ none ↔ t.SendsBack g := by
  by_cases hpos : 0 ≤ t.position
  · obtain ⟨k, m, hk, hm, -, hview⟩ := h.toCoherent.exists_shown hpos
    obtain ⟨hp, hout, ht⟩ := h.move_viewAt hm
    rw [hview, (h.byRules_viewAt k).settled.sentToDecided_iff hp ht, ← hout]
    simp [SendsBack, hpos, hk, hm]
  · rw [h.toCoherent.view_eq_start (Int.not_le.mp hpos)]
    simp [SendsBack, hpos, Position.start]

/-- **Where the next player is sent**, in a timeline that was only played on, cleared and
gone through: anywhere on the empty board, and after a move to the sub-board that its tile
points at, unless that sub-board had an outcome one step back. The sub-board to which the
player is sent is decided if and only if the move has decided it itself, by taking the tile
that points back at the sub-board it is in. -/
theorem run_target (ops : List Operation) (h : ∀ o ∈ ops, o.keepsToRules = true) :
    let t := empty.run ops
    (t.position = -1 → t.view.target = none) ∧
    (0 ≤ t.position → ∃ m u, t.moves[t.position.toNat]? = some m ∧ t.previous = .ok (some u) ∧
      t.view.target =
        if u.view.decided.get m.placement.tile = none then some m.placement.tile else none) ∧
    ∀ g, (t.view.target = some g ∧ t.view.decided.get g ≠ none ↔ t.SendsBack g) := by
  intro t
  have ht : t.Ruled := ruled_run h
  refine ⟨fun hpos => ?_, fun hpos => ?_, ht.sentToDecided_iff⟩
  · rw [ht.view_eq_start (by omega)]
    rfl
  · obtain ⟨k, m, hk, hm, hprevious, hview⟩ := ht.exists_shown hpos
    obtain ⟨-, -, hs⟩ := ht.move_viewAt hm
    refine ⟨m, t.openAt k, hk ▸ hm, hprevious, ?_⟩
    rw [hview, Position.target_of_place hs]
    rfl

/-- Red decides the middle sub-board by its middle tile, and Blue plays elsewhere. Then
Blue's move is taken off the view. -/
def middleGame : List Operation :=
  [.play ⟨4, 0⟩, .play ⟨0, 4⟩, .play ⟨4, 8⟩, .play ⟨8, 4⟩, .play ⟨4, 4⟩, .play ⟨2, 4⟩, .previous]

theorem middleGame_target :
    (∀ o ∈ middleGame, o.keepsToRules = true) ∧ (empty.run middleGame).position = 4 ∧
    (empty.run middleGame).view.target = some 4 ∧
    (empty.run middleGame).view.decided.get 4 = some .red ∧ (empty.run middleGame).SendsBack 4 ∧
    ∃ m u, (empty.run middleGame).moves[4]? = some m ∧
      (empty.run middleGame).previous = .ok (some u) ∧
      (empty.run middleGame).view.target =
        if u.view.decided.get m.placement.tile = none then some m.placement.tile else none := by
  have h := run_target middleGame (by decide)
  exact ⟨by decide, by decide, by decide, by decide, (h.2.2 4).mp ⟨by decide, by decide⟩,
    h.2.1 (by decide)⟩

end Timeline

end UltimateTicTacToe
