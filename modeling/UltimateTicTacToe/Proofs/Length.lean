/-
# How many moves a game takes

A line takes three tiles of one player, and a win three sub-boards in a line, so the
winner has nine tiles at least. A stalemate takes three full sub-boards in a line, or
nine decided ones, and both are twenty-seven tiles. Players take turns and Red begins,
so no game is won before the 17th move, none by Blue before the 18th, and none is a
stalemate before the 27th (`ByRules.le_length_of_winner`). Nor has a game more moves
than there are tiles (`ByRules.length_le`).

Both levels are counted alike: where at least `n` of something is found in each of some
parts, the whole holds as many times `n` (`length_mul_le_countP_flatMap`).

Key definitions: `leastMoves`.
Key theorems: `Position.Settled.le_ownedCount_of_winner`,
`Position.Settled.le_placedCount_of_stalemate`, `ByRules.le_length_of_winner`.
-/
import Mathlib.Data.List.Flatten
import Mathlib.Data.List.Perm.Subperm
import UltimateTicTacToe.Proofs.ClosedForm
import UltimateTicTacToe.Proofs.TileRules

namespace UltimateTicTacToe

/-! ### Counting by parts -/

/-- If each of some parts holds `n`, all the parts together hold as many times `n`. -/
theorem length_mul_le_countP_flatMap {α β : Type} {f : α → List β} {q : β → Bool} {n : Nat}
    {parts all : List α} (hnodup : parts.Nodup) (hsub : parts ⊆ all)
    (h : ∀ a ∈ parts, n ≤ (f a).countP q) : parts.length * n ≤ (all.flatMap f).countP q := by
  have hparts : ∀ as : List α, (∀ a ∈ as, n ≤ (f a).countP q) →
      as.length * n ≤ (as.flatMap f).countP q := by
    intro as has
    induction as with
    | nil => simp
    | cons a as ih =>
      obtain ⟨ha, has⟩ := List.forall_mem_cons.mp has
      have hrest := ih has
      rw [List.flatMap_cons, List.countP_append, List.length_cons, Nat.succ_mul]
      omega
  obtain ⟨as, hperm, hsublist⟩ := hnodup.subperm hsub
  calc parts.length * n ≤ (parts.flatMap f).countP q := hparts parts h
    _ = (as.flatMap f).countP q := ((hperm.flatMap_right f).countP_eq q).symm
    _ ≤ (all.flatMap f).countP q := (hsublist.flatMap f).countP_le

theorem nodup_of_mem_lines : ∀ l ∈ lines, [l.1, l.2.1, l.2.2].Nodup := by decide

theorem subset_range_of_mem_lines {l : Nat × Nat × Nat} (hl : l ∈ lines) :
    [l.1, l.2.1, l.2.2] ⊆ List.range 9 := by
  obtain ⟨h1, h2, h3⟩ := lines_lt l hl
  simp [h1, h2, h3]

/-! ### A sub-board -/

theorem Player.outcome_injective {m m' : Player} (h : m.outcome = m'.outcome) : m = m' := by
  revert m m'
  decide

namespace Cells

variable {α : Type}

/-- A line holds its mark three times. -/
theorem three_le_countP_of_lineOf {cells : Cells α} {m : α} (h : LineOf cells.get m)
    {q : Option α → Bool} (hq : q (some m) = true) : 3 ≤ cells.toList.countP q := by
  obtain ⟨l, hl, h1, h2, h3⟩ := h
  have hplaces : cells.toList = (List.range 9).flatMap fun i => [cells.get i] := by
    rw [toList_eq_map_get, List.map_eq_flatMap]
  rw [hplaces]
  refine length_mul_le_countP_flatMap (n := 1) (nodup_of_mem_lines l hl)
    (subset_range_of_mem_lines hl) ?_
  simp [h1, h2, h3, hq]

theorem countP_isSome_of_filled {cells : Cells α} (h : Filled cells.get) :
    cells.toList.countP Option.isSome = 9 := by
  have hall : ∀ x ∈ cells.toList, x.isSome = true := by
    intro x hx
    rw [toList_eq_map_get] at hx
    obtain ⟨i, hi, rfl⟩ := List.mem_map.mp hx
    exact Option.isSome_iff_ne_none.mpr (h i (List.mem_range.mp hi))
  rw [List.countP_eq_length.mpr hall, toList, Vector.length_toList]

/-- A sub-board that is decided has three tiles taken at least. -/
theorem three_le_countP_of_endsAs {tiles : Cells Player} {o : Outcome}
    (h : EndsAs Player.outcome tiles.get o) : 3 ≤ tiles.toList.countP Option.isSome := by
  rcases h with ⟨m, hm, -⟩ | ⟨-, hf, -⟩
  · exact three_le_countP_of_lineOf hm rfl
  · rw [countP_isSome_of_filled hf]
    decide

/-- A sub-board that a player has won holds three of the player's tiles. -/
theorem three_le_countP_of_won {tiles : Cells Player} {m : Player}
    (h : EndsAs Player.outcome tiles.get m.outcome) :
    3 ≤ tiles.toList.countP (· = some m) := by
  rcases h with ⟨m', hm, heq⟩ | ⟨-, -, heq⟩
  · rw [Player.outcome_injective heq] at hm
    exact three_le_countP_of_lineOf hm (by simp)
  · cases m <;> cases heq

/-- A sub-board in a stalemate is full. -/
theorem nine_le_countP_of_stalemate {tiles : Cells Player}
    (h : EndsAs Player.outcome tiles.get .stalemate) :
    9 ≤ tiles.toList.countP Option.isSome := by
  rcases h with ⟨m, -, heq⟩ | ⟨-, hf, -⟩
  · cases m <;> cases heq
  · rw [countP_isSome_of_filled hf]

end Cells

/-! ### The whole board -/

namespace Position
namespace Settled

theorem endsAs {s : Position} (h : s.Settled) {g : Nat} (hg : g < 9) {o : Outcome}
    (hd : s.decided.get g = some o) : EndsAs Player.outcome (s.board g).get o :=
  Cells.endsAs_of_verdict ((h.decided g hg).symm.trans hd)

theorem endsAs_winner {s : Position} (h : s.Settled) {o : Outcome} (hw : s.winner = some o) :
    EndsAs id s.decided.get o :=
  Cells.endsAs_of_verdict (h.winner.symm.trans hw)

/-- Three sub-boards in a line that have ended alike hold three times as many tiles as
any sub-board with that outcome. -/
theorem le_countP_of_lineOf {s : Position} (h : s.Settled) {o : Outcome}
    (hline : LineOf s.decided.get o) {n : Nat} {q : Option Player → Bool}
    (hq : ∀ tiles : Cells Player, EndsAs Player.outcome tiles.get o → n ≤ tiles.toList.countP q) :
    3 * n ≤ (s.boards.toList.flatMap Cells.toList).countP q := by
  obtain ⟨l, hl, h1, h2, h3⟩ := hline
  obtain ⟨hl1, hl2, hl3⟩ := lines_lt l hl
  rw [toList_boards, List.flatMap_map]
  refine length_mul_le_countP_flatMap (nodup_of_mem_lines l hl) (subset_range_of_mem_lines hl) ?_
  intro g hg
  simp only [List.mem_cons, List.not_mem_nil, or_false] at hg
  rcases hg with rfl | rfl | rfl
  · exact hq _ (h.endsAs hl1 h1)
  · exact hq _ (h.endsAs hl2 h2)
  · exact hq _ (h.endsAs hl3 h3)

/-- **Who wins owns nine tiles.** -/
theorem le_ownedCount_of_winner {s : Position} (h : s.Settled) {m : Player}
    (hw : s.winner = some m.outcome) : 9 ≤ s.ownedCount m := by
  rcases h.endsAs_winner hw with ⟨o, hline, rfl⟩ | ⟨-, -, heq⟩
  · exact h.le_countP_of_lineOf hline fun _ => Cells.three_le_countP_of_won
  · cases m <;> cases heq

/-- **A stalemate takes twenty-seven tiles.** -/
theorem le_placedCount_of_stalemate {s : Position} (h : s.Settled)
    (hw : s.winner = some .stalemate) : 27 ≤ s.placedCount := by
  rcases h.endsAs_winner hw with ⟨o, hline, rfl⟩ | ⟨-, hfull, -⟩
  · exact h.le_countP_of_lineOf hline fun _ => Cells.nine_le_countP_of_stalemate
  · -- all nine sub-boards are decided, with three tiles taken in each
    rw [placedCount, toList_boards, List.flatMap_map]
    show (List.range 9).length * 3 ≤ _
    refine length_mul_le_countP_flatMap List.nodup_range (List.Subset.refl _) fun g hg => ?_
    have hg := List.mem_range.mp hg
    obtain ⟨o, ho⟩ := Option.ne_none_iff_exists'.mp (hfull g hg)
    exact Cells.three_le_countP_of_endsAs (h.endsAs hg ho)

end Settled

theorem placedCount_le (s : Position) : s.placedCount ≤ 81 := by
  rw [placedCount, tiles_eq_map_owner]
  calc (UltimateTicTacToe.placements.map s.owner).countP Option.isSome
      ≤ (UltimateTicTacToe.placements.map s.owner).length := List.countP_le_length
    _ = UltimateTicTacToe.placements.length := List.length_map _
    _ = 81 := by decide

end Position

/-! ### Games by the rules -/

/-- The fewest moves in which a game can end with the outcome. -/
def leastMoves : Outcome → Nat
  | .red => 17
  | .blue => 18
  | .stalemate => 27

namespace ByRules

theorem length_placements {ms : List Move} {s : Position} (h : ByRules ms s) :
    (placementsOf (ms.flatMap Move.events)).length = ms.length := by
  rw [h.placementsOf_events, List.length_map]

/-- As many tiles are taken as moves were made. -/
theorem placedCount_eq {ms : List Move} {s : Position} (h : ByRules ms s) :
    s.placedCount = ms.length := by
  rw [(Position.counts_of_replay h.replay).1, h.length_placements]

/-- A game has no more moves than the board has tiles. -/
theorem length_le {ms : List Move} {s : Position} (h : ByRules ms s) : ms.length ≤ 81 := by
  rw [← h.placedCount_eq]
  exact s.placedCount_le

/-- **No game ends before its time.** -/
theorem le_length_of_winner {ms : List Move} {s : Position} (h : ByRules ms s) {o : Outcome}
    (hw : s.winner = some o) : leastMoves o ≤ ms.length := by
  obtain ⟨hplaced, hred, hblue⟩ := Position.counts_of_replay h.replay
  rw [h.length_placements] at hplaced hred hblue
  cases o with
  | red =>
    have hnine := h.settled.le_ownedCount_of_winner (m := .red) hw
    show 17 ≤ ms.length
    omega
  | blue =>
    have hnine := h.settled.le_ownedCount_of_winner (m := .blue) hw
    show 18 ≤ ms.length
    omega
  | stalemate =>
    have htiles := h.settled.le_placedCount_of_stalemate hw
    show 27 ≤ ms.length
    omega

end ByRules

end UltimateTicTacToe
