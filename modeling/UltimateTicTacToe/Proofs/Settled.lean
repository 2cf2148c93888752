/-
# A placement settles what it decides

A position is settled when it records exactly what its tiles show: every sub-board
has the outcome of its tiles, and the game the outcome of the sub-boards. A
settled position has nothing left for `Position.findWins` to report
(`Position.Settled.findWins_eq_nil`). A legal placement changes the tiles of one
undecided sub-board, so the scan can report at most that sub-board and then the
game (`Position.Settled.findWins_place`), and once this is recorded the position is
settled again (`Position.Settled.place`), although the scan stops as soon as the
game is decided and looks at the game only after a new sub-board outcome.

Key definitions: `Position.Settled`.
Key theorems: `Position.Settled.findWins_place`, `Position.Settled.place`.
-/
import UltimateTicTacToe.Proofs.MoveList
import UltimateTicTacToe.Proofs.Scan

namespace UltimateTicTacToe
namespace Position

/-! ### A single sub-board -/

/-- A sub-board's outcome and then, if it is decided by it, the game's. -/
theorem replay_decided_ended {s : Position} {g : Nat} (hw : s.winner = none) (hg : g < 9)
    (hd : s.decided.get g = none) (o : Outcome) (v : Option Outcome) :
    s.replay (.decided g o :: v.toList.map .ended) =
      .ok { s with decided := s.decided.put g (some o), winner := v } := by
  refine replay_cons_ok.mpr ⟨_, apply_decided.mpr ⟨hw, hg, hd, rfl⟩, ?_⟩
  cases v with
  | none => rw [Option.toList_none, List.map_nil, replay, hw]
  | some w => exact replay_singleton_ok.mpr (apply_ended.mpr ⟨hw, rfl⟩)

/-- With one sub-board that may have been decided, the scan reports at most that one
and the game. -/
theorem newOutcomes_single {s : Position} {d : Cells Outcome} {g : Nat} {gs : List Nat}
    (hnodup : gs.Nodup) (hmem : g ∈ gs) (hopen : d.get g = none)
    (hquiet : ∀ g' ∈ gs, g' ≠ g → d.get g' = none → subBoardOutcome (s.board g') = none) :
    s.newOutcomes d gs = match subBoardOutcome (s.board g) with
      | none => []
      | some o => .decided g o :: (overallOutcome (d.put g (some o))).toList.map .ended := by
  induction gs with
  | nil => cases hmem
  | cons a gs ih =>
    obtain ⟨hnot, hnodup⟩ := List.nodup_cons.mp hnodup
    by_cases hag : a = g
    · subst hag
      -- the sub-boards after it are quiet, also with the new outcome recorded
      have hrest (d' : Cells Outcome) (hd' : ∀ g' ≠ a, d'.get g' = d.get g') :
          s.newOutcomes d' gs = [] := by
        refine newOutcomes_eq_nil fun g' hg' hn => ?_
        have hne : g' ≠ a := fun he => hnot (he ▸ hg')
        exact hquiet g' (List.mem_cons_of_mem _ hg') hne (by rw [← hd' g' hne]; exact hn)
      cases ho : subBoardOutcome (s.board a) with
      | none =>
        rw [newOutcomes_skip fun _ => ho]
        exact hrest d fun _ _ => rfl
      | some o =>
        rw [newOutcomes_found gs hopen ho]
        cases hv : overallOutcome (d.put a (some o)) with
        | some v => simp [hv]
        | none =>
          have hput : ∀ g' ≠ a, (d.put a (some o)).get g' = d.get g' := fun g' hne => by
            rw [Cells.get_put, if_neg fun h => hne h.1.symm]
          simp [hrest _ hput, hv]
    · have hmem : g ∈ gs := (List.mem_cons.mp hmem).resolve_left fun h => hag h.symm
      rw [newOutcomes_skip (hquiet a List.mem_cons_self hag)]
      exact ih hnodup hmem fun g' hg' => hquiet g' (List.mem_cons_of_mem _ hg')

/-! ### Settled positions -/

/-- The position records exactly what its tiles show. -/
structure Settled (s : Position) : Prop where
  decided : ∀ g < 9, s.decided.get g = subBoardOutcome (s.board g)
  winner : s.winner = overallOutcome s.decided

theorem settled_start : start.Settled where
  decided := by decide
  winner := by decide

namespace Settled

/-- Nothing is left to report. -/
theorem findWins_eq_nil {s : Position} (h : s.Settled) : s.findWins = [] := by
  unfold findWins
  split
  · rfl
  · refine newOutcomes_eq_nil fun g hg hn => ?_
    rw [← h.decided g (List.mem_range.mp hg)]
    exact hn

/-- After a legal placement the scan reports the sub-board that was played in, if
the placement has decided it, and then the game, if that has decided the game. -/
theorem findWins_place {s : Position} (h : s.Settled) {p : Placement}
    (hp : s.isPlayable p = true) :
    (s.place p).findWins = match subBoardOutcome ((s.place p).board p.grid) with
      | none => []
      | some o => .decided p.grid o ::
          (overallOutcome (s.decided.put p.grid (some o))).toList.map .ended := by
  obtain ⟨hw, hb, -, hd, -⟩ := isPlayable_iff.mp hp
  have hg := (Placement.onBoard_iff.mp hb).1
  have hover : (s.place p).isOver = false := by rw [isOver, winner_place, hw]; rfl
  have hquiet : ∀ g ∈ List.range 9, g ≠ p.grid → s.decided.get g = none →
      subBoardOutcome ((s.place p).board g) = none := by
    intro g hg' hne hn
    rw [board_place_of_ne s hne.symm, ← h.decided g (List.mem_range.mp hg')]
    exact hn
  unfold findWins
  rw [hover, decided_place]
  exact newOutcomes_single List.nodup_range (List.mem_range.mpr hg) hd hquiet

/-- **What a legal placement comes to**, once its outcomes are recorded: its sub-board has
the outcome that the tiles show now, and the game the one that the sub-boards show. -/
theorem eq_of_place {s t : Position} (h : s.Settled) {p : Placement} (hp : s.isPlayable p = true)
    (ht : (s.place p).replay (s.place p).findWins = .ok t) :
    t = { s.place p with
      decided := s.decided.put p.grid (subBoardOutcome ((s.place p).board p.grid))
      winner := overallOutcome
        (s.decided.put p.grid (subBoardOutcome ((s.place p).board p.grid))) } := by
  obtain ⟨hw, hb, -, hd, -⟩ := isPlayable_iff.mp hp
  have hg := (Placement.onBoard_iff.mp hb).1
  rw [h.findWins_place hp] at ht
  cases ho : subBoardOutcome ((s.place p).board p.grid) with
  | none =>
    have hput : s.decided.put p.grid none = s.decided := by rw [← hd, Cells.put_get]
    rw [ho, replay, Except.ok.injEq] at ht
    rw [hput, ← h.winner, ← ht]
    rfl
  | some o =>
    simp only [ho] at ht
    rw [replay_decided_ended (s := s.place p) hw hg hd, Except.ok.injEq] at ht
    exact ht.symm

/-- **A legal placement leaves a settled position**, once its outcomes are
recorded. -/
theorem place {s t : Position} (h : s.Settled) {p : Placement} (hp : s.isPlayable p = true)
    (ht : (s.place p).replay (s.place p).findWins = .ok t) : t.Settled := by
  obtain ⟨-, hb, -⟩ := isPlayable_iff.mp hp
  have hg := (Placement.onBoard_iff.mp hb).1
  rw [h.eq_of_place hp ht]
  refine ⟨fun g hg' => ?_, rfl⟩
  show (s.decided.put p.grid _).get g = subBoardOutcome ((s.place p).board g)
  rw [Cells.get_put]
  by_cases hgp : p.grid = g
  · rw [if_pos ⟨hgp, hg⟩, hgp]
  · rw [if_neg fun h' => hgp h'.1, board_place_of_ne s hgp]
    exact h.decided g hg'

end Settled

end Position

end UltimateTicTacToe
