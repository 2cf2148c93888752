/-
# There is always a legal placement

A player could be left without a choice in two ways: sent to a sub-board that is full
and not recorded as decided, or with every sub-board decided in a game that is not.
Neither happens in a settled position, where an undecided sub-board has an empty tile
and an undecided game has an undecided sub-board
(`Position.Settled.exists_isPlayable`). A game by the rules has settled positions
only, so nobody is ever stuck in it before it is decided (`Timeline.run_unblocked`).
Outcomes that are recorded by hand can block a game.

Key definitions: `Position.Unblocked`.
Key theorems: `Position.Settled.exists_isPlayable`, `Timeline.run_unblocked`.
-/
import UltimateTicTacToe.Proofs.ClosedForm
import UltimateTicTacToe.Proofs.TileRules

namespace UltimateTicTacToe
namespace Position

/-! ### Settled positions -/

namespace Settled

/-- An undecided sub-board has an empty tile. -/
theorem exists_tile_eq_none {s : Position} (h : s.Settled) {g : Nat} (hg : g < 9)
    (hd : s.decided.get g = none) : ∃ t < 9, s.tile g t = none := by
  rw [h.decided g hg] at hd
  have hfull : ¬ Filled (s.board g).get := (Cells.verdict_eq_none.mp hd).2
  simpa [Filled, tile] using hfull

/-- An undecided game has an undecided sub-board. -/
theorem exists_decided_eq_none {s : Position} (h : s.Settled) (hw : s.winner = none) :
    ∃ g < 9, s.decided.get g = none := by
  rw [h.winner] at hw
  have hfull : ¬ Filled s.decided.get := (Cells.verdict_eq_none.mp hw).2
  simpa [Filled] using hfull

/-- **The player to move can move**, as long as the game is undecided. -/
theorem exists_isPlayable {s : Position} (h : s.Settled) (ht : s.TargetOnBoard)
    (hw : s.winner = none) : ∃ p, s.isPlayable p = true := by
  -- where to play: in the sub-board that the player is sent to, if that is open
  obtain ⟨g, hg, hd, hsent⟩ : ∃ g < 9, s.decided.get g = none ∧
      ∀ g', s.target = some g' → s.decided.get g' = none → g = g' := by
    by_cases hopen : ∃ g, s.target = some g ∧ s.decided.get g = none
    · obtain ⟨g, htarget, hd⟩ := hopen
      refine ⟨g, ht g htarget, hd, fun g' htarget' _ => ?_⟩
      rw [htarget] at htarget'
      exact Option.some.inj htarget'
    · obtain ⟨g, hg, hd⟩ := h.exists_decided_eq_none hw
      exact ⟨g, hg, hd, fun g' htarget hd' => absurd ⟨g', htarget, hd'⟩ hopen⟩
  obtain ⟨t, ht, ho⟩ := h.exists_tile_eq_none hg hd
  exact ⟨⟨g, t⟩, isPlayable_iff.mpr ⟨hw, Placement.onBoard_iff.mpr ⟨hg, ht⟩, ho, hd, hsent⟩⟩

end Settled

/-! ### Full boards -/

/-- With all tiles counted as taken there is none that is not. -/
theorem owner_ne_none_of_placedCount {s : Position} (h : s.placedCount = 81) {p : Placement}
    (hp : p.onBoard = true) : s.owner p ≠ none := by
  rw [placedCount, tiles_eq_map_owner, List.countP_map] at h
  have hlength : UltimateTicTacToe.placements.length = 81 := by decide
  have hall := List.countP_eq_length.mp (h.trans hlength.symm) p (mem_placements.mpr hp)
  simpa [Option.isSome_iff_ne_none] using hall

/-- Nothing but the end of the game keeps the player to move from moving. -/
structure Unblocked (s : Position) : Prop where
  choice : s.playableTiles = [] ↔ s.isOver = true
  full : s.placedCount = 81 → s.isOver = true
  legal : s.winner = none → ∃ p ∈ s.playableTiles, s.isPlayable p = true

theorem Settled.unblocked {s : Position} (h : s.Settled) (ht : s.TargetOnBoard) : s.Unblocked := by
  have hlegal : s.winner = none → ∃ p ∈ s.playableTiles, s.isPlayable p = true := by
    intro hw
    obtain ⟨p, hp⟩ := h.exists_isPlayable ht hw
    exact ⟨p, (mem_playableTiles_iff_isPlayable ht).mpr hp, hp⟩
  refine ⟨⟨fun hnil => ?_, playableTiles_of_isOver⟩, fun hcount => ?_, hlegal⟩
  · by_contra hover
    obtain ⟨p, hp, -⟩ := hlegal (isOver_eq_false.mp (by simpa using hover))
    rw [hnil] at hp
    cases hp
  · by_contra hover
    obtain ⟨p, -, hp⟩ := hlegal (isOver_eq_false.mp (by simpa using hover))
    obtain ⟨-, hboard, ho, -, -⟩ := isPlayable_iff.mp hp
    exact owner_ne_none_of_placedCount hcount hboard ho

end Position

/-! ### Games by the rules -/

theorem ByRules.targetOnBoard {ms : List Move} {s : Position} (h : ByRules ms s) :
    s.TargetOnBoard := by
  intro g hg
  cases hlast : (ms.map (·.placement)).getLast? with
  | none =>
    rw [h.follows.first hlast] at hg
    cases hg
  | some q =>
    obtain ⟨hq, ht | ⟨ht, -⟩⟩ := h.follows.sent q hlast
    · rw [ht] at hg
      exact Option.some.inj hg ▸ hq
    · rw [ht] at hg
      cases hg

theorem ByRules.unblocked {ms : List Move} {s : Position} (h : ByRules ms s) : s.Unblocked :=
  h.settled.unblocked h.targetOnBoard

namespace Timeline

theorem Ruled.targetOnBoard_view {t : Timeline} (h : t.Ruled) : t.view.TargetOnBoard :=
  h.byRules_view.targetOnBoard

theorem Ruled.unblocked_view {t : Timeline} (h : t.Ruled) : t.view.Unblocked :=
  h.byRules_view.unblocked

/-- A placement can be played at the end of an undecided game. -/
theorem Ruled.exists_play_ok {t : Timeline} (h : t.Ruled) (hend : t.atEnd = true)
    (hw : t.view.winner = none) : ∃ p outs, (t.play p).2 = .ok outs := by
  obtain ⟨p, -, hp⟩ := h.unblocked_view.legal hw
  obtain ⟨s, hs⟩ := (t.view.place p).exists_replay_findWins
  exact ⟨p, _, by rw [h.play_eq hend hp hs]⟩

/-- **There is a legal placement until the game is decided**, in a timeline that was
only played on, cleared and gone through, with every position of it on view. A full
board is decided, and at the end of an undecided game a placement can be played. -/
theorem run_unblocked (ops : List Operation) (h : ∀ o ∈ ops, o.keepsToRules = true) :
    let t := empty.run ops
    (t.view.Unblocked ∧ ∀ p, (t.goTo p).1.view.Unblocked) ∧
      (t.atEnd = true → t.view.winner = none → ∃ p outs, (t.play p).2 = .ok outs) := by
  intro t
  have ht : t.Ruled := ruled_run h
  refine ⟨⟨ht.unblocked_view, fun p => ?_⟩, ht.exists_play_ok⟩
  have hp : (t.goTo p).1.Ruled := ht.perform (o := .goTo p) rfl
  exact hp.unblocked_view

/-- Red decides the middle sub-board by the placement that sends Blue there. -/
def sentBackGame : List Operation :=
  [.play ⟨4, 0⟩, .play ⟨0, 4⟩, .play ⟨4, 8⟩, .play ⟨8, 4⟩, .play ⟨4, 4⟩]

theorem sentBackGame_unblocked :
    (∀ o ∈ sentBackGame, o.keepsToRules = true) ∧
    (empty.run sentBackGame).view.target = some 4 ∧
    (empty.run sentBackGame).view.decided.get 4 = some .red ∧
    ((empty.run sentBackGame).view.Unblocked ∧
      ∀ p, ((empty.run sentBackGame).goTo p).1.view.Unblocked) ∧
    ∃ p outs, ((empty.run sentBackGame).play p).2 = .ok outs := by
  have h := run_unblocked sentBackGame (by decide)
  exact ⟨by decide, by decide, by decide, h.1, h.2 (by decide) (by decide)⟩

end Timeline

end UltimateTicTacToe
