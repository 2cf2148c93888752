/-
# A replayed position in closed form

`Position.Tells` says whose the tiles are and which outcomes are recorded. What is
left to read off a record is where the players have been sent, and how many tiles
there are of each colour. A placement sends the next player to the sub-board that
its tile points at, unless an outcome of that sub-board stands in the record before
it; what comes later has no influence (`sendings`). Nothing that a placement once
pushed on the stack of constraints is lost or changed, so after any replay the stack
holds the constraints of the whole game in order.

With the counts this is the closed form of a position, `Position.ReadsAs`: six fields
that evolve together, each as a function of the record alone.

Key definitions: `sendings`, `Position.targets`, `Position.ownedCount`,
`Position.ReadsAs`.
Key theorems: `Position.targets_of_replay`, `Position.ownedCount_place`,
`Position.readsAs_of_replay`.
-/
import UltimateTicTacToe.Proofs.Language

namespace UltimateTicTacToe

/-! ### Where the players are sent -/

/-- Where the placement `p` sends the next player, when it comes after the events
`before`. -/
def sentBy (before : List Event) (p : Placement) : Option Nat :=
  if p.tile ∈ before.filterMap Event.grid? then none else some p.tile

/-- Where the placements among the second events send the next player, one after the
other, when all of them come after the events `before`. -/
def sendings (before : List Event) : List Event → List (Option Nat)
  | [] => []
  | .placed p :: es => sentBy before p :: sendings (before ++ [.placed p]) es
  | e :: es => sendings (before ++ [e]) es

theorem sendings_append : ∀ (before as bs : List Event),
    sendings before (as ++ bs) = sendings before as ++ sendings (before ++ as) bs
  | before, [], bs => by simp [sendings]
  | before, e :: as, bs => by
    have ih := sendings_append (before ++ [e]) as bs
    rw [List.append_assoc, List.singleton_append] at ih
    cases e with
    | placed p => rw [List.cons_append, sendings, sendings, ih, List.cons_append]
    | decided g o => exact ih
    | ended o => exact ih

theorem length_sendings : ∀ before es, (sendings before es).length = (placementsOf es).length
  | _, [] => rfl
  | before, e :: es => by
    have ih := length_sendings (before ++ [e]) es
    cases e with
    | placed p => exact congrArg (· + 1) ih
    | decided g o => exact ih
    | ended o => exact ih

/-- In a list without repetitions an item has only one number. -/
theorem idxOf_of_getElem {α : Type} [DecidableEq α] {l : List α} (hl : l.Nodup) {i : Nat} {a : α}
    (h : l[i]? = some a) : l.idxOf? a = some i := by
  obtain ⟨hi, rfl⟩ := List.getElem?_eq_some_iff.mp h
  refine List.findIdx?_eq_some_iff_getElem.mpr ⟨hi, by simp, fun j hj => ?_⟩
  have hne : l[j] ≠ l[i] := fun he => Nat.ne_of_lt hj ((hl.getElem_inj_iff).mp he)
  simpa using hne

/-- A new value at one place, where the old one did not count, adds at most one. -/
theorem countP_map_of_update {α β : Type} {l : List α} (hl : l.Nodup) {a : α} (ha : a ∈ l)
    {f g : α → β} (hother : ∀ b, b ≠ a → g b = f b) {q : β → Bool} (hold : q (f a) = false) :
    (l.map g).countP q = (l.map f).countP q + if q (g a) = true then 1 else 0 := by
  induction l with
  | nil => cases ha
  | cons b l ih =>
    obtain ⟨hnot, hnodup⟩ := List.nodup_cons.mp hl
    rw [List.map_cons, List.map_cons, List.countP_cons, List.countP_cons]
    by_cases hba : b = a
    · subst hba
      have hsame : l.map g = l.map f := by
        refine List.map_congr_left fun c hc => hother c ?_
        rintro rfl
        exact hnot hc
      rw [hsame, hold]
      simp
    · have hmem : a ∈ l := (List.mem_cons.mp ha).resolve_left fun h => hba h.symm
      rw [hother b hba, ih hnodup hmem]
      omega

namespace Cells

variable {α : Type}

theorem toList_eq_map_get (cells : Cells α) : cells.toList = (List.range 9).map cells.get := by
  refine List.ext_getElem (by simp [toList]) fun i h₁ h₂ => ?_
  have hi : i < 9 := by simpa using h₂
  simp [toList, get, hi]

end Cells

namespace Position

/-- The constraints of the game in order: the one before the first placement, then
the one after each placement. -/
def targets (s : Position) : List (Option Nat) := s.pastTargets.reverse ++ [s.target]

/-- The number of tiles that a player owns. -/
def ownedCount (s : Position) (m : Player) : Nat :=
  (s.boards.toList.flatMap Cells.toList).countP (· = some m)

theorem length_targets (s : Position) : s.targets.length = s.pastTargets.length + 1 := by
  simp [targets]

/-- A placement adds one constraint, and keeps those before it. -/
theorem targets_place (s : Position) (p : Placement) :
    (s.place p).targets =
      s.targets ++ [if s.decided.get p.tile = none then some p.tile else none] := by
  have htarget : (s.place p).target =
      if s.decided.get p.tile = none then some p.tile else none := rfl
  rw [targets, targets, pastTargets_place, List.reverse_cons, htarget]

/-- **The stack holds the constraints of the whole game**, each as the record up to
its placement has it. -/
theorem targets_of_replay {s : Position} {es : List Event} (h : start.replay es = .ok s) :
    s.targets = none :: sendings [] es := by
  refine replay_induction (motive := fun es s => s.targets = none :: sendings [] es) rfl ?_ h
  intro es e t u ht ih ha
  have hsnoc := sendings_append [] es [e]
  rw [List.nil_append] at hsnoc
  cases e with
  | placed p =>
    obtain ⟨-, -, -, rfl⟩ := apply_placed.mp ha
    have hopen : t.decided.get p.tile = none ↔ p.tile ∉ es.filterMap Event.grid? := by
      rw [(tells_of_replay ht).decided_eq_none, mem_filterMap_grid, not_exists]
    have hsent : (if t.decided.get p.tile = none then some p.tile else none) = sentBy es p := by
      unfold sentBy
      by_cases hmem : p.tile ∈ es.filterMap Event.grid?
      · rw [if_neg fun hn => hopen.mp hn hmem, if_pos hmem]
      · rw [if_pos (hopen.mpr hmem), if_neg hmem]
    rw [targets_place, ih, hsent, hsnoc]
    rfl
  | decided g o =>
    obtain ⟨-, -, -, rfl⟩ := apply_decided.mp ha
    rw [hsnoc]
    exact ih.trans (by simp [sendings])
  | ended o =>
    obtain ⟨-, rfl⟩ := apply_ended.mp ha
    rw [hsnoc]
    exact ih.trans (by simp [sendings])

/-! ### How many tiles are taken -/

theorem toList_boards (s : Position) : s.boards.toList = (List.range 9).map s.board := by
  refine List.ext_getElem (by simp) fun i h₁ h₂ => ?_
  have hi : i < 9 := by simpa using h₂
  simp [board, hi]

/-- The tiles of a position are those that `placements` lists. -/
theorem tiles_eq_map_owner (s : Position) :
    s.boards.toList.flatMap Cells.toList = UltimateTicTacToe.placements.map s.owner := by
  rw [toList_boards, List.flatMap_map, UltimateTicTacToe.placements, List.map_flatMap]
  refine List.flatMap_congr fun g _ => ?_
  rw [Cells.toList_eq_map_get, List.map_map]
  rfl

theorem nodup_placements : UltimateTicTacToe.placements.Nodup := by
  unfold UltimateTicTacToe.placements
  refine List.nodup_flatMap.mpr ⟨fun g _ => ?_, ?_⟩
  · refine List.nodup_range.map fun t t' h => ?_
    exact congrArg Placement.tile h
  · refine List.nodup_range.imp fun {g g'} hne => ?_
    intro p hp hp'
    obtain ⟨t, -, rfl⟩ := List.mem_map.mp hp
    obtain ⟨t', -, h⟩ := List.mem_map.mp hp'
    exact hne (congrArg Placement.grid h).symm

/-- A placement on an empty tile changes what is counted of one tile only. -/
theorem countP_place {s : Position} {p : Placement} (hp : p.onBoard = true)
    (ho : s.owner p = none) {q : Option Player → Bool} (hq : q none = false) :
    ((s.place p).boards.toList.flatMap Cells.toList).countP q =
      (s.boards.toList.flatMap Cells.toList).countP q +
        if q (some s.turn) = true then 1 else 0 := by
  have hself : (s.place p).owner p = some s.turn := by simp [owner_place, hp]
  have hother : ∀ r, r ≠ p → (s.place p).owner r = s.owner r := by
    intro r hr
    rw [owner_place, if_neg fun h => hr h.1.symm]
  rw [tiles_eq_map_owner, tiles_eq_map_owner,
    countP_map_of_update nodup_placements (mem_placements.mpr hp) hother (by rw [ho, hq]), hself]

theorem placedCount_place {s : Position} {p : Placement} (hp : p.onBoard = true)
    (ho : s.owner p = none) : (s.place p).placedCount = s.placedCount + 1 :=
  countP_place hp ho rfl

theorem ownedCount_place {s : Position} {p : Placement} (hp : p.onBoard = true)
    (ho : s.owner p = none) (m : Player) :
    (s.place p).ownedCount m = s.ownedCount m + if s.turn = m then 1 else 0 := by
  have h := countP_place hp ho (q := fun x => x = some m) (by simp)
  simpa [ownedCount] using h

/-- After `k` placements Red has the larger half of the `k` tiles. -/
theorem counts_of_replay {s : Position} {es : List Event} (h : start.replay es = .ok s) :
    s.placedCount = (placementsOf es).length ∧
      s.ownedCount .red = ((placementsOf es).length + 1) / 2 ∧
      s.ownedCount .blue = (placementsOf es).length / 2 := by
  refine replay_induction (motive := fun es s => s.placedCount = (placementsOf es).length ∧
    s.ownedCount .red = ((placementsOf es).length + 1) / 2 ∧
    s.ownedCount .blue = (placementsOf es).length / 2) (by decide) ?_ h
  intro es e t u ht ih ha
  obtain ⟨hplaced, hred, hblue⟩ := ih
  rw [placementsOf_snoc]
  cases e with
  | placed p =>
    obtain ⟨-, hp, ho, rfl⟩ := apply_placed.mp ha
    have hturn := (tells_of_replay ht).turn
    rw [placedCount_place hp ho, ownedCount_place hp ho, ownedCount_place hp ho, hplaced, hred,
      hblue, hturn]
    unfold mover
    by_cases heven : (placementsOf es).length % 2 = 0
    · simp [heven, Event.placement?]
      omega
    · simp [heven, Event.placement?]
      omega
  | decided g o =>
    obtain ⟨-, -, -, rfl⟩ := apply_decided.mp ha
    simpa [Event.placement?] using ⟨hplaced, hred, hblue⟩
  | ended o =>
    obtain ⟨-, rfl⟩ := apply_ended.mp ha
    simpa [Event.placement?] using ⟨hplaced, hred, hblue⟩

/-! ### The closed form -/

/-- The position is what the record says, field by field. Placements are counted from
0 here, so that Red's have the even numbers. -/
structure ReadsAs (s : Position) (es : List Event) : Prop where
  taken : ∀ i p, (placementsOf es)[i]? = some p →
    s.tile p.grid p.tile = some (if i % 2 = 0 then .red else .blue)
  free : ∀ g t, ⟨g, t⟩ ∉ placementsOf es → s.tile g t = none
  decided : ∀ g o, s.decided.get g = some o ↔ .decided g o ∈ es
  winner : ∀ o, s.winner = some o ↔ .ended o ∈ es
  turn : s.turn = .red ↔ (placementsOf es).length % 2 = 0
  targets : s.targets = none :: sendings [] es
  placed : s.placedCount = (placementsOf es).length
  past : s.pastTargets.length = (placementsOf es).length
  surplus : s.ownedCount .red = s.ownedCount .blue + (placementsOf es).length % 2

/-- **A replayed position in closed form.** -/
theorem readsAs_of_replay {s : Position} {es : List Event} (h : start.replay es = .ok s) :
    s.ReadsAs es := by
  have htells := tells_of_replay h
  have htargets := targets_of_replay h
  obtain ⟨hplaced, hred, hblue⟩ := counts_of_replay h
  have hnodup : (placementsOf es).Nodup := ((regular_iff_replay es).mpr ⟨s, h⟩).tilesOnce
  refine ⟨fun i p hi => ?_, fun g t hnot => ?_, htells.decided, htells.winner, ?_, htargets,
    hplaced, ?_, by omega⟩
  · have hidx := idxOf_of_getElem hnodup hi
    have howner := htells.owner p
    rw [ownerAfter, hidx] at howner
    exact howner
  · rw [← ownerAfter_eq_none, ← htells.owner] at hnot
    exact hnot
  · rw [htells.turn, mover]
    split
    · simpa
    · rename_i hodd
      simpa using hodd
  · have hlen := congrArg List.length htargets
    rw [length_targets, List.length_cons, length_sendings] at hlen
    omega

end Position

/-- A game in which no recorded outcome is that of the tiles. The second placement
points at a sub-board whose outcome comes before it, the third at one whose outcome
comes after it. -/
def strayOutcomes : List Event :=
  [.placed ⟨4, 0⟩, .decided 4 .stalemate, .placed ⟨0, 4⟩, .placed ⟨8, 7⟩, .decided 7 .blue]

theorem strayOutcomes_readsAs : ∃ s, Position.start.replay strayOutcomes = .ok s ∧
    s.ReadsAs strayOutcomes ∧ s.targets = [none, some 0, none, some 7] := by
  obtain ⟨s, hs⟩ : ∃ s, Position.start.replay strayOutcomes = .ok s := ⟨_, rfl⟩
  have h := Position.readsAs_of_replay hs
  exact ⟨s, hs, h, h.targets⟩

end UltimateTicTacToe
