/-
# The rules, read off the tiles

A player at the board needs no record of outcomes to see what is legal. The tiles
say which sub-boards are decided, by a line or by being full, and how; the decided
sub-boards say whether the game is; and the placement before says where the next
one has to go. `LegalAfter` is this rule, for a game that is given by its
placements alone, with the players taking turns.

A timeline goes another way. It asks the outcomes that it has recorded, sends the
next player on before it has looked at what the placement decides, and asks again
when the next placement comes. It allows the same games
(`Timeline.plays_iff_legalGame`): also where a player is sent to a sub-board that
is decided already, or that the very placement which sends there has decided.

Key definitions: `GridDecided`, `GameDecided`, `LegalAfter`, `LegalGame`.
Key theorems: `ByRules.follows`, `Position.FollowsTiles.isPlayable_iff`,
`Timeline.plays_iff_legalGame`.
-/
import Mathlib.Data.Fintype.Basic
import UltimateTicTacToe.Proofs.Play
import UltimateTicTacToe.Proofs.Tally

namespace UltimateTicTacToe

/-! ### The rule -/

/-- The owners of the tiles of sub-board `g` after the placements `ps`. -/
def tilesAfter (ps : List Placement) (g t : Nat) : Option Player := ownerAfter ps ⟨g, t⟩

/-- The tiles of sub-board `g` hold a line, or all of them are taken. -/
def GridDecided (ps : List Placement) (g : Nat) : Prop :=
  (∃ m, LineOf (tilesAfter ps g) m) ∨ Filled (tilesAfter ps g)

/-- Sub-board `g` has ended with outcome `o`. -/
def GridEnds (ps : List Placement) (g : Nat) (o : Outcome) : Prop :=
  EndsAs Player.outcome (tilesAfter ps g) o

/-- Three sub-boards in a line have ended with the same outcome, or all sub-boards
are decided. -/
def GameDecided (ps : List Placement) : Prop :=
  (∃ o, ∃ l ∈ lines, GridEnds ps l.1 o ∧ GridEnds ps l.2.1 o ∧ GridEnds ps l.2.2 o) ∨
    ∀ g < 9, GridDecided ps g

/-- The placement `p` is legal after the placements `ps`. -/
structure LegalAfter (ps : List Placement) (p : Placement) : Prop where
  running : ¬ GameDecided ps
  onBoard : p.grid < 9 ∧ p.tile < 9
  free : tilesAfter ps p.grid p.tile = none
  undecided : ¬ GridDecided ps p.grid
  sent : ∀ q, ps.getLast? = some q → ¬ GridDecided ps q.tile → p.grid = q.tile

/-- Each of the placements is legal after those before it. -/
def LegalGame (ps : List Placement) : Prop :=
  ∀ before p after, ps = before ++ p :: after → LegalAfter before p

/-! ### The rule is decidable -/

instance : Fintype Player where
  elems := {.red, .blue}
  complete m := by cases m <;> decide

instance : Fintype Outcome where
  elems := {.red, .blue, .stalemate}
  complete o := by cases o <;> decide

instance (ps : List Placement) : DecidablePred (GridDecided ps) := fun _ =>
  inferInstanceAs (Decidable (_ ∨ _))

instance (ps : List Placement) (g : Nat) : DecidablePred (GridEnds ps g) := fun _ =>
  inferInstanceAs (Decidable (_ ∨ _))

instance : DecidablePred GameDecided := fun _ => inferInstanceAs (Decidable (_ ∨ _))

instance : DecidableRel LegalAfter := fun ps p =>
  decidable_of_iff (¬ GameDecided ps ∧ (p.grid < 9 ∧ p.tile < 9) ∧
      tilesAfter ps p.grid p.tile = none ∧ ¬ GridDecided ps p.grid ∧
      ∀ q ∈ ps.getLast?, ¬ GridDecided ps q.tile → p.grid = q.tile)
    ⟨fun ⟨hw, hb, ho, hd, hs⟩ => ⟨hw, hb, ho, hd, hs⟩,
      fun ⟨hw, hb, ho, hd, hs⟩ => ⟨hw, hb, ho, hd, hs⟩⟩

/-! ### Positions of a game by the rules -/

theorem lines_lt : ∀ l ∈ lines, l.1 < 9 ∧ l.2.1 < 9 ∧ l.2.2 < 9 := by decide

namespace Position

/-- The position is the one that the tiles of the placements `ps` show. -/
structure FollowsTiles (s : Position) (ps : List Placement) : Prop where
  tiles : ∀ g, (s.board g).get = tilesAfter ps g
  settled : s.Settled
  lineUnique : ∀ g m m', LineOf (s.board g).get m → LineOf (s.board g).get m' → m = m'
  first : ps.getLast? = none → s.target = none
  sent : ∀ q, ps.getLast? = some q → q.tile < 9 ∧
    (s.target = some q.tile ∨ s.target = none ∧ s.decided.get q.tile ≠ none)

namespace FollowsTiles

theorem decided_eq_none {s : Position} {ps : List Placement} (h : s.FollowsTiles ps) {g : Nat}
    (hg : g < 9) : s.decided.get g = none ↔ ¬ GridDecided ps g := by
  rw [h.settled.decided g hg, subBoardOutcome, Cells.verdict_eq_none, h.tiles, GridDecided, not_or,
    not_exists]

theorem decided_eq_some {s : Position} {ps : List Placement} (h : s.FollowsTiles ps) {g : Nat}
    (hg : g < 9) {o : Outcome} : s.decided.get g = some o ↔ GridEnds ps g o := by
  rw [h.settled.decided g hg, subBoardOutcome, Cells.verdict_eq_some (h.lineUnique g), h.tiles,
    GridEnds]

theorem winner_eq_none {s : Position} {ps : List Placement} (h : s.FollowsTiles ps) :
    s.winner = none ↔ ¬ GameDecided ps := by
  have hline : (∃ o, LineOf s.decided.get o) ↔
      ∃ o, ∃ l ∈ lines, GridEnds ps l.1 o ∧ GridEnds ps l.2.1 o ∧ GridEnds ps l.2.2 o := by
    refine exists_congr fun o => exists_congr fun l => and_congr_right fun hl => ?_
    obtain ⟨h1, h2, h3⟩ := lines_lt l hl
    rw [h.decided_eq_some h1, h.decided_eq_some h2, h.decided_eq_some h3]
  have hfull : Filled s.decided.get ↔ ∀ g < 9, GridDecided ps g := by
    refine forall_congr' fun g => imp_congr_right fun hg => ?_
    rw [Ne, h.decided_eq_none hg, Classical.not_not]
  rw [h.settled.winner, overallOutcome, Cells.verdict_eq_none, GameDecided, ← hline, ← hfull,
    not_or, not_exists]

/-- **The timeline's test is the rule.** -/
theorem isPlayable_iff {s : Position} {ps : List Placement} (h : s.FollowsTiles ps)
    (p : Placement) : s.isPlayable p = true ↔ LegalAfter ps p := by
  have howner : s.owner p = tilesAfter ps p.grid p.tile := by
    rw [owner, tile, h.tiles]
  have hsent : (∀ g, s.target = some g → s.decided.get g = none → p.grid = g) ↔
      ∀ q, ps.getLast? = some q → ¬ GridDecided ps q.tile → p.grid = q.tile := by
    cases hlast : ps.getLast? with
    | none => simp [h.first hlast]
    | some q =>
      obtain ⟨hq, ht | ⟨ht, hd⟩⟩ := h.sent q hlast
      · simp [ht, h.decided_eq_none hq]
      · rw [Ne, h.decided_eq_none hq, Classical.not_not] at hd
        simp [ht, hd]
  rw [Position.isPlayable_iff, h.winner_eq_none, howner, hsent, Placement.onBoard_iff]
  constructor
  · rintro ⟨hw, hb, ho, hd, hs⟩
    exact ⟨hw, hb, ho, (h.decided_eq_none hb.1).mp hd, hs⟩
  · rintro ⟨hw, hb, ho, hd, hs⟩
    exact ⟨hw, hb, ho, (h.decided_eq_none hb.1).mpr hd, hs⟩

end FollowsTiles
end Position

namespace ByRules

theorem placementsOf_events {ms : List Move} {s : Position} (h : ByRules ms s) :
    placementsOf (ms.flatMap Move.events) = ms.map (·.placement) :=
  Move.placementsOf_events h.proper

/-- In a game by the rules the tiles say everything. -/
theorem follows {ms : List Move} {s : Position} (h : ByRules ms s) :
    s.FollowsTiles (ms.map (·.placement)) := by
  have htiles {ms : List Move} {s : Position} (h : ByRules ms s) (g : Nat) :
      (s.board g).get = tilesAfter (ms.map (·.placement)) g := by
    funext t
    rw [← h.placementsOf_events]
    exact (Position.tells_of_replay h.replay).owner ⟨g, t⟩
  induction h with
  | start =>
    refine ⟨htiles .start, Position.settled_start, fun g m m' hm _ => ?_, fun _ => rfl, nofun⟩
    obtain ⟨l, -, hl, -⟩ := hm
    rw [htiles .start] at hl
    cases hl
  | @move ms s t p h hp ht ih =>
    obtain ⟨hboards, htarget, hkept⟩ :=
      Position.frame_of_outcomes Position.isPlacement_findWins ht
    obtain ⟨-, hb, -, hd, -⟩ := Position.isPlayable_iff.mp hp
    obtain ⟨hg, htile⟩ := Placement.onBoard_iff.mp hb
    refine ⟨htiles (h.move hp ht), ih.settled.place hp ht, fun g m m' hm hm' => ?_,
      fun hn => ?_, fun q hq => ?_⟩
    · rw [Position.board_congr hboards] at hm hm'
      by_cases hpg : p.grid = g
      · -- the sub-board had no line before, so all its lines are the mover's
        have hno : ∀ m, ¬ LineOf (s.board p.grid).get m := by
          rw [ih.settled.decided p.grid hg] at hd
          exact (Cells.verdict_eq_none.mp hd).1
        rw [← hpg, Position.board_place_self s hg] at hm hm'
        rw [Cells.eq_of_lineOf_put hno hm, Cells.eq_of_lineOf_put hno hm']
      · rw [Position.board_place_of_ne s hpg] at hm hm'
        exact ih.lineUnique g m m' hm hm'
    · simp at hn
    · rw [List.map_append, List.map_singleton, List.getLast?_concat, Option.some.injEq] at hq
      subst hq
      refine ⟨htile, ?_⟩
      rw [htarget]
      by_cases hopen : s.decided.get p.tile = none
      · exact Or.inl (if_pos hopen)
      · exact Or.inr ⟨if_neg hopen, by rw [hkept _ hopen]; exact hopen⟩

end ByRules

/-! ### Whole games -/

theorem forall_split_snoc {α : Type} {P : List α → α → Prop} {l : List α} {x : α} :
    (∀ before y after, l ++ [x] = before ++ y :: after → P before y) ↔
      (∀ before y after, l = before ++ y :: after → P before y) ∧ P l x := by
  constructor
  · intro h
    exact ⟨fun before y after heq => h before y (after ++ [x]) (by simp [heq]), h l x [] rfl⟩
  · rintro ⟨h, hx⟩ before y after heq
    rcases snoc_eq_append_cons.mp heq with ⟨rfl, rfl, -⟩ | ⟨init, -, hl⟩
    · exact hx
    · exact h before y init hl

theorem legalGame_snoc {ps : List Placement} {p : Placement} :
    LegalGame (ps ++ [p]) ↔ LegalGame ps ∧ LegalAfter ps p := forall_split_snoc

namespace Timeline

/-- The timeline holds the game with the placements `ps`, with its end on view. -/
structure Played (t : Timeline) (ps : List Placement) : Prop extends Ruled t where
  atEnd : t.atEnd = true
  placements : t.placements = ps

namespace Played

theorem follows {t : Timeline} {ps : List Placement} (h : t.Played ps) :
    t.view.FollowsTiles ps := by
  rw [h.view_eq_final h.atEnd, ← h.placements]
  exact h.byRules.follows

/-- A placement is accepted if and only if the rule allows it. -/
theorem play_ok_iff {t : Timeline} {ps : List Placement} (h : t.Played ps) (p : Placement) :
    (∃ outs, (t.play p).2 = .ok outs) ↔ LegalAfter ps p := by
  rw [← h.follows.isPlayable_iff]
  by_cases hp : t.view.isPlayable p = true
  · obtain ⟨s, hs⟩ := (t.view.place p).exists_replay_findWins
    rw [h.play_eq h.atEnd hp hs]
    exact ⟨fun _ => hp, fun _ => ⟨_, rfl⟩⟩
  · rw [play_of_not_isPlayable h.atEnd (by simpa using hp)]
    simp [hp]

theorem play {t : Timeline} {ps : List Placement} (h : t.Played ps) {p : Placement}
    (hp : LegalAfter ps p) : (t.play p).1.Played (ps ++ [p]) := by
  have hplay := h.follows.isPlayable_iff p |>.mpr hp
  obtain ⟨s, hs⟩ := (t.view.place p).exists_replay_findWins
  refine ⟨h.toRuled.play p, ?_, ?_⟩
  · rw [h.play_eq h.atEnd hplay hs]
    simp [atEnd_iff]
  · rw [h.play_eq h.atEnd hplay hs, ← h.placements]
    simp [Timeline.placements]

end Played

/-- A legal game can be played out on the empty board. -/
theorem played_of_legalGame {ps : List Placement} (h : LegalGame ps) :
    (empty.run (ps.map .play)).Played ps := by
  induction ps using List.reverseRecOn with
  | nil => exact ⟨ruled_empty, rfl, rfl⟩
  | append_singleton ps p ih =>
    obtain ⟨hps, hp⟩ := legalGame_snoc.mp h
    rw [List.map_append, run_append]
    exact (ih hps).play hp

/-- **The games that can be played are the legal ones.** Played one after another on
the empty board, all placements of a list succeed if and only if each is legal by
the tiles that the placements before it have taken. -/
theorem plays_iff_legalGame (ps : List Placement) :
    (∀ before p after, ps = before ++ p :: after →
      ∃ outs, ((empty.run (before.map .play)).play p).2 = .ok outs) ↔ LegalGame ps := by
  induction ps using List.reverseRecOn with
  | nil => simp [LegalGame]
  | append_singleton ps p ih =>
    rw [forall_split_snoc, ih, legalGame_snoc]
    exact and_congr_right fun hps => (played_of_legalGame hps).play_ok_iff p

-- Red's third placement completes a line in the middle sub-board and sends Blue to
-- the same sub-board, so Blue may play in any other one.
example : LegalAfter [⟨4, 0⟩, ⟨0, 4⟩, ⟨4, 8⟩, ⟨8, 4⟩, ⟨4, 4⟩] ⟨2, 5⟩ ∧
    ¬ LegalAfter [⟨4, 0⟩, ⟨0, 4⟩, ⟨4, 8⟩, ⟨8, 4⟩, ⟨4, 4⟩] ⟨4, 5⟩ := by decide

end Timeline

end UltimateTicTacToe
