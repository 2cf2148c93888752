/-
# The list of legal placements

There are two ways to ask what is legal. `Position.playableTiles` lists the placements,
for whoever has to choose one, and `Position.isPlayable` tests a single one, which may name
any numbers. The list is made from the sub-boards down to their empty tiles; the test looks
at the tile first and then for its sub-board. They agree in every position, also in one that
no game leads to, as long as the sub-board that the player is sent to lies on the board
(`Position.TargetOnBoard.listsMoves`). A placement is missing from the list for one of five
reasons, and they are all there are (`Position.bars_iff`).

Key definitions: `Placement.Before`, `Position.TargetOnBoard`, `Position.Bars`,
`Position.ListsMoves`.
Key theorems: `Position.isPlayable_iff`, `Position.mem_playableTiles_iff_isPlayable`,
`Position.pairwise_playableTiles`, `Position.TargetOnBoard.listsMoves`.
-/
import UltimateTicTacToe.Proofs.Replay

namespace UltimateTicTacToe

/-- The order of the placements in reading order: by sub-board, and in a sub-board by
tile. -/
def Placement.Before (p q : Placement) : Prop :=
  p.grid < q.grid ∨ p.grid = q.grid ∧ p.tile < q.tile

theorem Placement.Before.ne {p q : Placement} (h : p.Before q) : p ≠ q := by
  rintro rfl
  unfold Before at h
  omega

namespace Position

/-! ### The test -/

theorem mem_openGrids {s : Position} {g : Nat} :
    g ∈ s.openGrids ↔ g < 9 ∧ s.decided.get g = none := by
  simp [openGrids]

/-- A placement is legal on an empty tile of an undecided sub-board while the game
is on, and in the sub-board that the player is sent to unless that one is decided. -/
theorem isPlayable_iff {s : Position} {p : Placement} :
    s.isPlayable p = true ↔ s.winner = none ∧ p.onBoard = true ∧ s.owner p = none ∧
      s.decided.get p.grid = none ∧
      ∀ g, s.target = some g → s.decided.get g = none → p.grid = g := by
  unfold isPlayable playableGrids isOver
  simp only [Bool.and_eq_true, Option.isNone_iff_eq_none, List.contains_iff_mem]
  cases hw : s.winner with
  | some o => simp
  | none =>
    by_cases hp : p.onBoard = true
    · have hg := (Placement.onBoard_iff.mp hp).1
      cases ht : s.target with
      | none => simp [hp, mem_openGrids, hg]
      | some h =>
        by_cases hd : s.decided.get h = none
        · simp only [hp, hd, Option.isSome_none, Bool.false_eq_true, if_false, if_true, true_and,
            List.mem_singleton, Option.some.injEq, forall_eq']
          constructor
          · rintro ⟨ho, hgh⟩
            exact ⟨ho, by rw [hgh]; exact hd, fun _ => hgh⟩
          · rintro ⟨ho, -, hgh⟩
            exact ⟨ho, hgh trivial⟩
        · simp [hp, hd, mem_openGrids, hg]
    · simp [hp]

theorem apply_of_isPlayable {s : Position} {p : Placement} (h : s.isPlayable p = true) :
    s.apply (.placed p) = .ok (s.place p) := by
  obtain ⟨hw, hp, ho, -, -⟩ := isPlayable_iff.mp h
  exact apply_placed.mpr ⟨hw, hp, ho, rfl⟩

/-- Why a placement is not legal. -/
inductive Bars (s : Position) (p : Placement) : Prop
  | finished : s.isOver = true → Bars s p
  | offBoard : p.onBoard = false → Bars s p
  | taken {m : Player} : s.owner p = some m → Bars s p
  | decided {o : Outcome} : s.decided.get p.grid = some o → Bars s p
  /-- The player is sent to another sub-board, and that one is undecided. -/
  | elsewhere {g : Nat} : s.target = some g → s.decided.get g = none → p.grid ≠ g → Bars s p

/-- **A placement is legal unless there is a reason against it.** -/
theorem bars_iff {s : Position} {p : Placement} : s.Bars p ↔ ¬ s.isPlayable p = true := by
  rw [isPlayable_iff]
  constructor
  · rintro hbars ⟨hw, hb, ho, hd, hs⟩
    cases hbars with
    | finished h => simp [isOver, hw] at h
    | offBoard h => simp [hb] at h
    | taken h => simp [ho] at h
    | decided h => simp [hd] at h
    | elsewhere ht hopen hne => exact hne (hs _ ht hopen)
  · intro hnot
    by_contra hfree
    refine hnot ⟨?_, ?_, ?_, ?_, fun g ht hopen => ?_⟩
    · by_contra hw
      exact hfree (.finished (Option.isSome_iff_ne_none.mpr hw))
    · by_contra hb
      exact hfree (.offBoard (by simpa using hb))
    · exact Option.eq_none_iff_forall_ne_some.mpr fun m hm => hfree (.taken hm)
    · exact Option.eq_none_iff_forall_ne_some.mpr fun o ho => hfree (.decided ho)
    · by_contra hne
      exact hfree (.elsewhere ht hopen hne)

/-! ### The list -/

/-- A sub-board to which the player to move is sent lies on the board. -/
def TargetOnBoard (s : Position) : Prop := ∀ g, s.target = some g → g < 9

theorem mem_playableTiles {s : Position} {p : Placement} :
    p ∈ s.playableTiles ↔ p.grid ∈ s.playableGrids ∧ p.tile < 9 ∧ s.owner p = none := by
  obtain ⟨g, t⟩ := p
  simp [playableTiles, emptyTiles, owner]

theorem TargetOnBoard.lt_of_mem_playableGrids {s : Position} (h : s.TargetOnBoard) {g : Nat}
    (hg : g ∈ s.playableGrids) : g < 9 := by
  unfold playableGrids at hg
  split at hg
  · cases hg
  · split at hg
    · rename_i g' ht
      split at hg
      · rw [List.mem_singleton.mp hg]
        exact h g' ht
      · exact (mem_openGrids.mp hg).1
    · exact (mem_openGrids.mp hg).1

/-- **The list of legal placements holds what the test allows.** -/
theorem mem_playableTiles_iff_isPlayable {s : Position} (h : s.TargetOnBoard) {p : Placement} :
    p ∈ s.playableTiles ↔ s.isPlayable p = true := by
  rw [mem_playableTiles, isPlayable]
  simp only [Bool.and_eq_true, Option.isNone_iff_eq_none, List.contains_iff_mem,
    Placement.onBoard_iff]
  constructor
  · rintro ⟨hg, ht, ho⟩
    exact ⟨⟨⟨h.lt_of_mem_playableGrids hg, ht⟩, ho⟩, hg⟩
  · rintro ⟨⟨⟨-, ht⟩, ho⟩, hg⟩
    exact ⟨hg, ht, ho⟩

theorem playableTiles_of_isOver {s : Position} (h : s.isOver = true) : s.playableTiles = [] := by
  rw [playableTiles, playableGrids, if_pos h]
  rfl

theorem pairwise_playableGrids (s : Position) : s.playableGrids.Pairwise (· < ·) := by
  have hopen : s.openGrids.Pairwise (· < ·) := List.pairwise_lt_range.filter _
  unfold playableGrids
  split
  · exact .nil
  · split
    · split
      · exact List.pairwise_singleton _ _
      · exact hopen
    · exact hopen

/-- **The list is in reading order.** -/
theorem pairwise_playableTiles (s : Position) : s.playableTiles.Pairwise Placement.Before := by
  rw [playableTiles, List.pairwise_flatMap]
  constructor
  · intro g _
    rw [List.pairwise_map]
    exact (List.pairwise_lt_range.filter _).imp fun h => Or.inr ⟨rfl, h⟩
  · refine s.pairwise_playableGrids.imp fun {g g'} hlt p hp q hq => ?_
    obtain ⟨t, -, rfl⟩ := List.mem_map.mp hp
    obtain ⟨t', -, rfl⟩ := List.mem_map.mp hq
    exact Or.inl hlt

/-- The list of legal placements says exactly what is legal. -/
structure ListsMoves (s : Position) : Prop where
  agrees : ∀ p, s.isPlayable p = true ↔ p ∈ s.playableTiles
  ascending : s.playableTiles.Pairwise Placement.Before
  nodup : s.playableTiles.Nodup
  accepted : ∀ p ∈ s.playableTiles, s.apply (.placed p) = .ok (s.place p)
  barred : ∀ p, p ∉ s.playableTiles ↔ s.Bars p

/-- **The list and the test agree**, whatever the tiles and the recorded outcomes are. -/
theorem TargetOnBoard.listsMoves {s : Position} (h : s.TargetOnBoard) : s.ListsMoves where
  agrees _ := (mem_playableTiles_iff_isPlayable h).symm
  ascending := s.pairwise_playableTiles
  nodup := s.pairwise_playableTiles.imp Placement.Before.ne
  accepted _ hp := apply_of_isPlayable ((mem_playableTiles_iff_isPlayable h).mp hp)
  barred _ := (not_congr (mem_playableTiles_iff_isPlayable h)).trans bars_iff.symm

/-- A position that no game leads to: Blue is to move on the empty board and is sent to a
sub-board that is recorded as won. -/
def sentAstray : Position :=
  { start with turn := .blue, target := some 3, decided := Cells.empty.put 3 (some .red) }

theorem sentAstray_listsMoves :
    sentAstray.TargetOnBoard ∧ sentAstray.ListsMoves ∧ sentAstray.playableTiles.length = 72 := by
  have htarget : sentAstray.TargetOnBoard := by
    intro g hg
    cases hg
    decide
  exact ⟨htarget, htarget.listsMoves, by decide⟩

end Position

end UltimateTicTacToe
