/-
# What the status line says of the next move

The line above the board names the sub-board to which the next player is sent, or says
`any`. It takes that from the position as it stands. The rules take it from there too, but
ask first whether the sub-board is still open. So the line tells a player where to play, as
long as nobody is sent to a decided sub-board: where it says `any` there is a legal
placement in every open sub-board, and where it names a sub-board all of them are in that
one. Only after a move that sends back (`Timeline.SendsBack`) it does not. It names the
sub-board that has just been decided, in which there is no legal placement, although the
player may play in any other that is open (`Timeline.run_status`).

Key definitions: `Diagram.NamesGrid`.
Key theorems: `Diagram.namesGrid_status`, `Timeline.run_status`.
-/
import Mathlib.Data.List.Basic
import UltimateTicTacToe.Game.Diagram
import UltimateTicTacToe.Proofs.Choice
import UltimateTicTacToe.Proofs.Json.Numeral
import UltimateTicTacToe.Proofs.Target

namespace UltimateTicTacToe

/-! ### Reading the line -/

theorem not_mem_toString_nat {c : Char} (hc : c.isDigit = false) (n : Nat) :
    c ∉ (toString n).toList := by
  rw [Nat.toString_eq_repr, Nat.toList_repr]
  intro h
  rw [isDigit_of_mem_toDigits h] at hc
  cases hc

/-- Numbers are written differently: from its digits each can be computed. -/
theorem toString_nat_inj {m n : Nat} : toString m = toString n ↔ m = n := by
  refine ⟨fun h => ?_, fun h => h ▸ rfl⟩
  have hdigits := congrArg String.toList h
  rw [Nat.toString_eq_repr, Nat.toString_eq_repr, Nat.toList_repr, Nat.toList_repr] at hdigits
  calc
    m = Nat.ofDigitChars 10 (Nat.toDigits 10 m) 0 := Nat.ofDigitChars_ten_toDigits.symm
    _ = Nat.ofDigitChars 10 (Nat.toDigits 10 n) 0 := by rw [hdigits]
    _ = n := Nat.ofDigitChars_ten_toDigits

theorem toString_nat_ne_any (n : Nat) : toString n ≠ "any" := by
  intro h
  have ha := not_mem_toString_nat (c := 'a') (by decide) n
  rw [h] at ha
  exact ha (by decide)

namespace Diagram

/-- The line has the text `field` between the two labels where a status line says where
the next player has to play. -/
def NamesGrid (line field : String) : Prop :=
  ∃ before after, line = before ++ "  Grid: " ++ field ++ "  Winner: " ++ after

theorem not_mem_constraint {c : Char} (hdigit : c.isDigit = false) (hany : c ∉ "any".toList)
    (s : Position) : c ∉ (constraint s).toList := by
  unfold constraint
  split
  · exact not_mem_toString_nat hdigit _
  · exact hany

/-- The first letters of the two labels occur nowhere else in a status line. -/
theorem exists_status_eq (t : Timeline) : ∃ before after,
    status t = before ++ "  Grid: " ++ constraint t.view ++ "  Winner: " ++ after ∧
      'G' ∉ before.toList ∧ 'G' ∉ after.toList ∧ 'W' ∉ after.toList := by
  refine ⟨_, _, rfl, ?_, ?_, ?_⟩
  · have hshown := not_mem_toString_nat (c := 'G') (by decide) t.shown
    have hlength := not_mem_toString_nat (c := 'G') (by decide) t.length
    have hturn : 'G' ∉ (toString t.view.turn.letter).toList := by
      cases t.view.turn with
      | red => decide
      | blue => decide
    simp only [String.toList_append, List.mem_append, hshown, hlength, hturn, not_or, or_false]
    decide
  · rcases t.view.winner with _ | _ | _ | _ <;> decide
  · rcases t.view.winner with _ | _ | _ | _ <;> decide

/-- **A status line names the constraint of the position on view**, and can be read in no
other way. -/
theorem namesGrid_status {t : Timeline} {field : String} :
    NamesGrid (status t) field ↔ field = constraint t.view := by
  obtain ⟨b, a, hstatus, hb, ha, ha'⟩ := exists_status_eq t
  rw [hstatus]
  constructor
  · rintro ⟨before, after, h⟩
    have hg := not_mem_constraint (c := 'G') (by decide) (by decide) t.view
    have hw := not_mem_constraint (c := 'W') (by decide) (by decide) t.view
    have hlist := congrArg String.toList h
    have hline : b.toList ++ [' ', ' '] ++ 'G' :: ("rid: ".toList ++ (constraint t.view).toList ++
          [' ', ' '] ++ 'W' :: ("inner: ".toList ++ a.toList)) =
        before.toList ++ [' ', ' '] ++ 'G' :: ("rid: ".toList ++ field.toList ++ [' ', ' '] ++
          'W' :: ("inner: ".toList ++ after.toList)) := by
      simpa using hlist
    obtain ⟨-, -, hrest⟩ :=
      (List.append_cons_inj_of_notMem (by simp [hb]) (by simp [hg, ha])).mp hline
    obtain ⟨hfield, -, -⟩ :=
      (List.append_cons_inj_of_notMem (by simp [hw]) (by simp [ha'])).mp hrest
    exact String.toList_inj.mp (by simpa using hfield.symm)
  · rintro rfl
    exact ⟨b, a, rfl⟩

theorem namesGrid_any {t : Timeline} : NamesGrid (status t) "any" ↔ t.view.target = none := by
  rw [namesGrid_status, constraint]
  cases t.view.target with
  | none => simp
  | some g => simpa using (toString_nat_ne_any g).symm

theorem namesGrid_number {t : Timeline} {g : Nat} :
    NamesGrid (status t) (toString g) ↔ t.view.target = some g := by
  rw [namesGrid_status, constraint]
  cases t.view.target with
  | none => simpa using toString_nat_ne_any g
  | some g' => simp only [toString_nat_inj, Option.some.injEq, eq_comm]

end Diagram

/-! ### Where the legal placements are -/

namespace Position

variable {s : Position}

/-- A player who is not sent to an open sub-board can play in any that is open. -/
theorem Settled.exists_mem_playableTiles (h : s.Settled) (htarget : s.TargetOnBoard)
    (hw : s.winner = none) (hfree : ∀ g, s.target = some g → s.decided.get g ≠ none) {g : Nat}
    (hg : g < 9) (hd : s.decided.get g = none) : ∃ p ∈ s.playableTiles, p.grid = g := by
  obtain ⟨t, ht, ho⟩ := h.exists_tile_eq_none hg hd
  refine ⟨⟨g, t⟩, (mem_playableTiles_iff_isPlayable htarget).mpr (isPlayable_iff.mpr ?_), rfl⟩
  exact ⟨hw, Placement.onBoard_iff.mpr ⟨hg, ht⟩, ho, hd,
    fun g' htarget' hd' => absurd hd' (hfree g' htarget')⟩

/-- A player who is sent to an open sub-board has to play there. -/
theorem TargetOnBoard.grid_eq (h : s.TargetOnBoard) {g : Nat} (htarget : s.target = some g)
    (hd : s.decided.get g = none) {p : Placement} (hp : p ∈ s.playableTiles) : p.grid = g := by
  obtain ⟨-, -, -, -, hsent⟩ := isPlayable_iff.mp ((mem_playableTiles_iff_isPlayable h).mp hp)
  exact hsent g htarget hd

/-- Nobody can play in a decided sub-board. -/
theorem TargetOnBoard.grid_ne (h : s.TargetOnBoard) {g : Nat} (hd : s.decided.get g ≠ none)
    {p : Placement} (hp : p ∈ s.playableTiles) : p.grid ≠ g := by
  obtain ⟨-, -, -, hopen, -⟩ := isPlayable_iff.mp ((mem_playableTiles_iff_isPlayable h).mp hp)
  rintro rfl
  exact hd hopen

end Position

/-! ### The line and the rules -/

namespace Timeline

/-- **The status line says where the next player can play, with one exception**, in an
undecided position of a timeline that was only played on, cleared and gone through. Where
it says `any`, there is a legal placement in every open sub-board. Where it names a
sub-board, all legal placements are in it, unless the move on view sends back to it; then
none of them is, and there is one in every open sub-board. -/
theorem run_status (ops : List Operation) (h : ∀ o ∈ ops, o.keepsToRules = true) :
    let t := empty.run ops
    t.view.winner = none →
      (Diagram.NamesGrid (Diagram.status t) "any" ∨
        ∃ g < 9, Diagram.NamesGrid (Diagram.status t) (toString g)) ∧
      (Diagram.NamesGrid (Diagram.status t) "any" →
        ∀ g < 9, t.view.decided.get g = none → ∃ p ∈ t.view.playableTiles, p.grid = g) ∧
      ∀ g, Diagram.NamesGrid (Diagram.status t) (toString g) →
        ((∀ p ∈ t.view.playableTiles, p.grid = g) ↔ ¬ t.SendsBack g) ∧
        (t.SendsBack g → (∀ p ∈ t.view.playableTiles, p.grid ≠ g) ∧
          ∀ g' < 9, t.view.decided.get g' = none → ∃ p ∈ t.view.playableTiles, p.grid = g') := by
  intro t hw
  have ht : t.Ruled := ruled_run h
  have hsettled := ht.settled_view
  have htarget := ht.targetOnBoard_view
  simp only [Diagram.namesGrid_any, Diagram.namesGrid_number]
  refine ⟨?_, fun hnone g hg hd => ?_, fun g hg => ?_⟩
  · cases hsent : t.view.target with
    | none => exact Or.inl rfl
    | some g => exact Or.inr ⟨g, htarget g hsent, rfl⟩
  · refine hsettled.exists_mem_playableTiles htarget hw (fun g' hg' => ?_) hg hd
    rw [hnone] at hg'
    cases hg'
  · have hback : t.SendsBack g ↔ t.view.decided.get g ≠ none := by
      rw [← ht.sentToDecided_iff g, and_iff_right hg]
    have hfree (hsent : t.SendsBack g) : ∀ g', t.view.target = some g' →
        t.view.decided.get g' ≠ none := by
      intro g' hg'
      rw [hg, Option.some.injEq] at hg'
      exact hg' ▸ hback.mp hsent
    refine ⟨⟨fun hall hsent => ?_, fun hnot p hp => ?_⟩, fun hsent => ⟨fun p hp => ?_, ?_⟩⟩
    · -- there is a legal placement, and it would have to be in a decided sub-board
      obtain ⟨p, hp, -⟩ := ht.unblocked_view.legal hw
      exact htarget.grid_ne (hback.mp hsent) hp (hall p hp)
    · exact htarget.grid_eq hg (Classical.not_not.mp fun hd => hnot (hback.mpr hd)) hp
    · exact htarget.grid_ne (hback.mp hsent) hp
    · exact fun g' hg' hd' =>
        hsettled.exists_mem_playableTiles htarget hw (hfree hsent) hg' hd'

theorem sentBackGame_run_status :
    (∀ o ∈ sentBackGame, o.keepsToRules = true) ∧ (empty.run sentBackGame).view.winner = none ∧
    Diagram.NamesGrid (Diagram.status (empty.run sentBackGame)) (toString 4) ∧
    (empty.run sentBackGame).SendsBack 4 ∧
    (∀ p ∈ (empty.run sentBackGame).view.playableTiles, p.grid ≠ 4) ∧
    ∀ g < 9, (empty.run sentBackGame).view.decided.get g = none →
      ∃ p ∈ (empty.run sentBackGame).view.playableTiles, p.grid = g := by
  have hfour : Diagram.NamesGrid (Diagram.status (empty.run sentBackGame)) (toString 4) :=
    Diagram.namesGrid_number.mpr (by decide)
  have hback : (empty.run sentBackGame).SendsBack 4 :=
    ⟨by decide, ⟨⟨4, 4⟩, [.decided 4 .red]⟩, .red, by decide, rfl, by decide⟩
  have h := (run_status sentBackGame (by decide) (by decide)).2.2 4 hfour
  exact ⟨by decide, by decide, hfour, hback, (h.2 hback).1, (h.2 hback).2⟩

/-- **The line can name a sub-board in which nobody can play.** Red has just won the middle
sub-board, and Blue, who can play in any of the others, is told to play there. -/
theorem sentBackGame_status_misleads :
    (∀ o ∈ sentBackGame, o.keepsToRules = true) ∧ (empty.run sentBackGame).view.winner = none ∧
    Diagram.status (empty.run sentBackGame) = "Move 5/5  Next: B  Grid: 4  Winner: -" ∧
    Diagram.NamesGrid (Diagram.status (empty.run sentBackGame)) (toString 4) ∧
    ¬ ∀ p ∈ (empty.run sentBackGame).view.playableTiles, p.grid = 4 :=
  ⟨by decide, by decide, by decide, Diagram.namesGrid_number.mpr (by decide), by decide⟩

end Timeline

end UltimateTicTacToe
