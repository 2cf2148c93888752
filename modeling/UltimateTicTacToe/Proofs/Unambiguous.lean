/-
# Winners are unambiguous

The owner of a board is the mark of the first complete line, so on a board with complete
lines of two marks it would depend on which line comes first. It depends on nothing else:
the owner is the same in every order of the lines if and only if all complete lines have
the same mark (`Cells.linesAgree_iff`). Events that are recorded by hand can make a board
with lines of both players. In a game by the rules there is none, neither among the
sub-boards nor on the board of their outcomes: what is decided is not played in again, so
all lines that a board has were completed at once, by a single mark
(`Position.Settled.linesAgree_decided`).

Key definitions: `LinesAgree`, `Cells.lineOwnerIn`, `Cells.verdictIn`,
`Position.Unambiguous`.
Key theorems: `Cells.linesAgree_iff`, `ByRules.unambiguous`, `Timeline.run_unambiguous`.
-/
import UltimateTicTacToe.Proofs.TileRules

namespace UltimateTicTacToe

/-! ### Lines in any order -/

/-- All complete lines have the same mark. -/
def LinesAgree {α : Type} (marks : Nat → Option α) : Prop :=
  ∀ m m', LineOf marks m → LineOf marks m' → m = m'

namespace Cells

variable {α : Type} [DecidableEq α] {cells : Cells α} {order : List (Nat × Nat × Nat)}

/-- The mark of the first complete line, when the lines are tried in the given order. -/
def lineOwnerIn (order : List (Nat × Nat × Nat)) (cells : Cells α) : Option α :=
  order.findSome? cells.ownerOf

/-- How a board has ended, when the lines are tried in the given order. -/
def verdictIn (order : List (Nat × Nat × Nat)) (won : α → Outcome) (cells : Cells α) :
    Option Outcome :=
  match cells.lineOwnerIn order with
  | some mark => some (won mark)
  | none => if cells.isFull then some .stalemate else none

@[simp] theorem lineOwnerIn_lines : cells.lineOwnerIn lines = cells.lineOwner := rfl

@[simp] theorem verdictIn_lines (won : α → Outcome) :
    cells.verdictIn lines won = cells.verdict won := rfl

/-- Where the lines agree, the owner is the mark that has a line. -/
theorem lineOwnerIn_eq_some (h : LinesAgree cells.get) (horder : order.Perm lines) {m : α} :
    cells.lineOwnerIn order = some m ↔ LineOf cells.get m := by
  have hline {m' : α} (ho : cells.lineOwnerIn order = some m') : LineOf cells.get m' := by
    obtain ⟨l, hl, ho⟩ := List.exists_of_findSome?_eq_some ho
    exact ⟨l, horder.mem_iff.mp hl, ownerOf_eq_some.mp ho⟩
  refine ⟨hline, fun hm => ?_⟩
  obtain ⟨l, hl, ho⟩ := hm
  have hsome : (cells.lineOwnerIn order).isSome = true :=
    List.findSome?_isSome_iff.mpr
      ⟨l, horder.mem_iff.mpr hl, by rw [ownerOf_eq_some.mpr ho]; rfl⟩
  obtain ⟨m', hm'⟩ := Option.isSome_iff_exists.mp hsome
  rw [hm', h m' m (hline hm') ⟨l, hl, ho⟩]

/-- **The order of the lines makes no difference if and only if they agree.** -/
theorem linesAgree_iff :
    LinesAgree cells.get ↔ ∀ order, order.Perm lines → cells.lineOwnerIn order = cells.lineOwner := by
  constructor
  · intro h order horder
    refine Option.ext fun m => ?_
    rw [lineOwnerIn_eq_some h horder, ← lineOwnerIn_lines, lineOwnerIn_eq_some h (.refl _)]
  · rintro h m m' ⟨l, hl, ho⟩ ⟨l', hl', ho'⟩
    -- each of the two lines can be tried first
    have hfirst {l : Nat × Nat × Nat} {m : α} (hl : l ∈ lines) (ho : cells.ownerOf l = some m) :
        cells.lineOwner = some m := by
      rw [← h _ (List.perm_cons_erase hl).symm, lineOwnerIn, List.findSome?_cons, ho]
    have hm := hfirst hl (ownerOf_eq_some.mpr ho)
    rw [hfirst hl' (ownerOf_eq_some.mpr ho')] at hm
    exact (Option.some.inj hm).symm

theorem verdictIn_eq (h : LinesAgree cells.get) (won : α → Outcome)
    (horder : order.Perm lines) : cells.verdictIn order won = cells.verdict won := by
  rw [← verdictIn_lines, verdictIn, linesAgree_iff.mp h order horder]
  rfl

end Cells

/-! ### Games by the rules -/

namespace Position

/-- No board, the one of the outcomes included, has lines of two marks, and so all have
ended in the same way whatever the order in which the lines are tried. -/
structure Unambiguous (s : Position) : Prop where
  tiles : ∀ g, LinesAgree (s.board g).get
  outcomes : LinesAgree s.decided.get
  /-- The owner of each sub-board, and what it has ended as. -/
  grids_anyOrder : ∀ order, order.Perm lines → ∀ g,
    (s.board g).lineOwnerIn order = (s.board g).lineOwner ∧
      (s.board g).verdictIn order Player.outcome = subBoardOutcome (s.board g)
  game_anyOrder : ∀ order, order.Perm lines →
    s.decided.verdictIn order id = overallOutcome s.decided

/-- An undecided game has no line, and a legal placement adds one outcome at most. -/
theorem Settled.linesAgree_decided {s t : Position} (h : s.Settled) {p : Placement}
    (hp : s.isPlayable p = true) (ht : (s.place p).replay (s.place p).findWins = .ok t) :
    LinesAgree t.decided.get := by
  obtain ⟨hw, -, -, hd, -⟩ := isPlayable_iff.mp hp
  have hno : ∀ o, ¬ LineOf s.decided.get o := by
    rw [h.winner] at hw
    exact (Cells.verdict_eq_none.mp hw).1
  rw [h.eq_of_place hp ht]
  intro o o' ho ho'
  cases hnew : subBoardOutcome ((s.place p).board p.grid) with
  | none =>
    have hsame : s.decided.put p.grid none = s.decided := by rw [← hd, Cells.put_get]
    simp only [hnew, hsame] at ho
    exact absurd ho (hno o)
  | some o'' =>
    simp only [hnew] at ho ho'
    rw [Cells.eq_of_lineOf_put hno ho, Cells.eq_of_lineOf_put hno ho']

end Position

namespace ByRules

theorem linesAgree_decided {ms : List Move} {s : Position} (h : ByRules ms s) :
    LinesAgree s.decided.get := by
  cases h with
  | start =>
    rintro m m' ⟨l, -, hl, -⟩ -
    rw [Position.start, Cells.get_empty] at hl
    cases hl
  | move h hp ht => exact h.settled.linesAgree_decided hp ht

/-- **A game by the rules has one winner at most**, on every board. -/
theorem unambiguous {ms : List Move} {s : Position} (h : ByRules ms s) : s.Unambiguous := by
  have htiles (g : Nat) : LinesAgree (s.board g).get := h.follows.lineUnique g
  have hdecided := h.linesAgree_decided
  exact ⟨htiles, hdecided,
    fun order horder g => ⟨Cells.linesAgree_iff.mp (htiles g) order horder,
      Cells.verdictIn_eq (htiles g) _ horder⟩,
    fun order horder => Cells.verdictIn_eq hdecided _ horder⟩

end ByRules

namespace Timeline

/-- **Winners are unambiguous** in a timeline that was only played on, cleared and gone
through, with every position of it on view: no sub-board has lines of both players, there
are no lines of two outcomes among the sub-boards, and who has won does not depend on the
order in which the lines are examined. -/
theorem run_unambiguous (ops : List Operation) (h : ∀ o ∈ ops, o.keepsToRules = true) :
    let t := empty.run ops
    t.view.Unambiguous ∧ ∀ p, (t.goTo p).1.view.Unambiguous := by
  intro t
  have ht : t.Ruled := ruled_run h
  refine ⟨ht.byRules_view.unambiguous, fun p => ?_⟩
  have hp : (t.goTo p).1.Ruled := ht.perform (o := .goTo p) rfl
  exact hp.byRules_view.unambiguous

/-- Red completes a row and a column of the middle sub-board by one tile. -/
def cornerGame : List Operation :=
  [.play ⟨4, 0⟩, .play ⟨0, 4⟩, .play ⟨4, 1⟩, .play ⟨1, 4⟩, .play ⟨4, 5⟩, .play ⟨5, 4⟩,
    .play ⟨4, 8⟩, .play ⟨8, 4⟩, .play ⟨4, 2⟩]

theorem cornerGame_unambiguous :
    (∀ o ∈ cornerGame, o.keepsToRules = true) ∧
    ((empty.run cornerGame).view.board 4).ownerOf (0, 1, 2) = some .red ∧
    ((empty.run cornerGame).view.board 4).ownerOf (2, 5, 8) = some .red ∧
    (empty.run cornerGame).view.Unambiguous ∧
    ∀ p, ((empty.run cornerGame).goTo p).1.view.Unambiguous := by
  have h := run_unambiguous cornerGame (by decide)
  exact ⟨by decide, by decide, by decide, h.1, h.2⟩

-- Recorded by hand, the players can complete a line each in the same sub-board.
example : ∃ s, Position.start.replay
    [.placed ⟨0, 0⟩, .placed ⟨0, 3⟩, .placed ⟨0, 1⟩, .placed ⟨0, 4⟩, .placed ⟨0, 2⟩,
      .placed ⟨0, 5⟩] = .ok s ∧
    LineOf (s.board 0).get .red ∧ LineOf (s.board 0).get .blue :=
  ⟨_, rfl, by decide, by decide⟩

end Timeline

end UltimateTicTacToe
