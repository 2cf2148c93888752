/-
# A game fills the board

No event ever clears a tile, and a placement takes one that was empty. So the
number of empty tiles goes down with every move that is played, which is what
ends a game in the end.

Key definitions: `placements`, `Position.emptyCount`.
Key theorems: `Position.emptyCount_place_lt`, `Position.emptyCount_apply_le`,
`Timeline.emptyCount_play_lt`.
-/
import UltimateTicTacToe.Game.Timeline

namespace UltimateTicTacToe

/-- All the tiles, ascending by sub-board and then by tile. -/
def placements : List Placement :=
  (List.range 9).flatMap fun g => (List.range 9).map fun t => ⟨g, t⟩

theorem mem_placements {p : Placement} : p ∈ placements ↔ p.onBoard = true := by
  obtain ⟨g, t⟩ := p
  simp [placements, Placement.onBoard, isIndex]

/-! ### Cells -/

namespace Cells

variable {α : Type}

theorem get_put (cells : Cells α) (i j : Nat) (mark : Option α) :
    (cells.put i mark).get j = if i = j ∧ i < 9 then mark else cells.get j := by
  simp only [get, put, Vector.getElem?_setIfInBounds]
  by_cases hij : i = j
  · subst hij
    by_cases hi : i < 9
    · simp [hi]
    · simp [hi]
  · simp [hij]

end Cells

/-! ### Positions -/

namespace Position

/-- The number of tiles that nobody owns. -/
def emptyCount (s : Position) : Nat := placements.countP fun p => (s.owner p).isNone

theorem board_setOwner (s : Position) (p : Placement) (o : Option Player) (g : Nat) :
    (s.setOwner p o).board g =
      if p.grid = g ∧ p.grid < 9 then (s.board g).put p.tile o else s.board g := by
  simp only [board, setOwner, Vector.getElem?_setIfInBounds]
  by_cases hg : p.grid = g
  · subst hg
    by_cases h9 : p.grid < 9
    · simp [h9]
    · simp [h9]
  · simp [hg]

/-- The tile that is given to a player is the only one to change hands. -/
theorem owner_setOwner (s : Position) (p q : Placement) (o : Option Player) :
    (s.setOwner p o).owner q = if p = q ∧ p.onBoard = true then o else s.owner q := by
  obtain ⟨g, t⟩ := p
  obtain ⟨g', t'⟩ := q
  simp only [owner, tile, board_setOwner, Placement.mk.injEq, Placement.onBoard, isIndex,
    Bool.and_eq_true, decide_eq_true_eq]
  by_cases hg : g = g' ∧ g < 9
  · rw [if_pos hg, Cells.get_put]
    by_cases ht : t = t' ∧ t < 9
    · rw [if_pos ht, if_pos ⟨⟨hg.1, ht.1⟩, hg.2, ht.2⟩]
    · rw [if_neg ht, if_neg fun h => ht ⟨h.1.2, h.2.2⟩]
  · rw [if_neg hg, if_neg fun h => hg ⟨h.1.1, h.2.1⟩]

theorem countP_lt_countP {α : Type} {p q : α → Bool} {a : α} :
    ∀ {l : List α}, (∀ x, q x = true → p x = true) → a ∈ l → p a = true → q a = false →
      l.countP q < l.countP p
  | b :: l, h, hmem, hp, hq => by
    have hle : l.countP q ≤ l.countP p := List.countP_mono_left fun x _ => h x
    rcases List.mem_cons.mp hmem with rfl | hmem
    · rw [List.countP_cons_of_pos hp, List.countP_cons_of_neg (by simp [hq])]
      omega
    · have hlt := countP_lt_countP h hmem hp hq
      have hb : (if q b = true then 1 else 0) ≤ if p b = true then 1 else 0 := by
        by_cases hqb : q b = true
        · simp [hqb, h b hqb]
        · simp [hqb]
      rw [List.countP_cons, List.countP_cons]
      omega

/-- Taking an empty tile leaves fewer of them. -/
theorem emptyCount_place_lt {s : Position} {p : Placement} (hp : p.onBoard = true)
    (hs : s.owner p = none) : (s.place p).emptyCount < s.emptyCount := by
  have howner (q : Placement) : (s.place p).owner q = (s.setOwner p (some s.turn)).owner q := rfl
  refine countP_lt_countP (a := p) (fun q hq => ?_) (mem_placements.mpr hp) (by simp [hs]) ?_
  · rw [howner, owner_setOwner] at hq
    split at hq
    · simp at hq
    · exact hq
  · simp [howner, owner_setOwner, hp]

/-- A placement that is applied leaves fewer empty tiles. -/
theorem emptyCount_apply_placed_lt {s t : Position} {p : Placement}
    (h : s.apply (.placed p) = .ok t) : t.emptyCount < s.emptyCount := by
  unfold apply at h
  split at h
  · simp at h
  · simp only at h
    split at h
    · rename_i hp
      split at h
      · simp at h
      · rename_i hs
        simp only [Except.ok.injEq] at h
        exact h ▸ emptyCount_place_lt hp hs
    · simp at h

/-- No event that is applied leaves more empty tiles. -/
theorem emptyCount_apply_le {s t : Position} {e : Event} (h : s.apply e = .ok t) :
    t.emptyCount ≤ s.emptyCount := by
  cases e with
  | placed p => exact Nat.le_of_lt (emptyCount_apply_placed_lt h)
  | decided g o =>
    unfold apply at h
    split at h
    · simp at h
    · simp only at h
      split at h
      · split at h
        · simp at h
        · simp only [Except.ok.injEq] at h
          subst h
          exact Nat.le_refl _
      · simp at h
  | ended o =>
    unfold apply at h
    split at h
    · simp at h
    · simp only [Except.ok.injEq] at h
      subst h
      exact Nat.le_refl _

end Position

/-! ### Timelines -/

namespace Timeline

/-- An event that is recorded has been applied to the end of the record. -/
theorem apply_final_of_addEvent {t u : Timeline} {e : Event} (h : t.addEvent e = .ok u) :
    t.final.apply e = .ok u.final := by
  unfold addEvent at h
  split at h
  · simp at h
  · split at h
    · simp at h
    · rename_i hf
      split at h
      · simp only [Except.ok.injEq] at h
        exact h ▸ hf
      · simp only [Except.ok.injEq] at h
        exact h ▸ hf

theorem emptyCount_addEvents_le : ∀ (es : List Event) (t : Timeline),
    (t.addEvents es).1.final.emptyCount ≤ t.final.emptyCount
  | [], t => Nat.le_refl _
  | e :: es, t => by
    unfold addEvents
    split
    · rename_i u hu
      exact Nat.le_trans (emptyCount_addEvents_le es u)
        (Position.emptyCount_apply_le (apply_final_of_addEvent hu))
    · exact Nat.le_refl _

/-- **A move that is played leaves fewer empty tiles.** -/
theorem emptyCount_play_lt {t u : Timeline} {p : Placement} {es : List Event}
    (h : t.play p = (u, .ok es)) : u.final.emptyCount < t.final.emptyCount := by
  unfold play at h
  split at h
  · simp at h
  · split at h
    · simp at h
    · split at h
      · simp at h
      · rename_i v hv
        have hlt := Position.emptyCount_apply_placed_lt (apply_final_of_addEvent hv)
        have hle := emptyCount_addEvents_le v.view.findWins v
        simp only at h
        split at h
        · rename_i w hw
          simp only [Prod.mk.injEq] at h
          rw [hw, h.1] at hle
          exact Nat.lt_of_le_of_lt hle hlt
        · simp at h

end Timeline

end UltimateTicTacToe
