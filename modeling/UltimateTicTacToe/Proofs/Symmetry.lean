/-
# The board can be turned and mirrored

The square has eight symmetries, and they move the sub-boards of the game and the tiles of
every sub-board alike. Nothing in the rules tells a game from its image: where one
placement after another is played, and the images of the placements are played on another
board, the same placements are accepted, they decide the same sub-boards and games, and
the position of one board is the image of that of the other
(`Timeline.play_symmetric`).

The code does know an order. It takes the first of the lines that are complete, and the
scan for new outcomes goes through the sub-boards in reading order and may stop early. A
symmetry keeps the set of the lines but not their order. In a game that is played there is
nothing to choose from, though: a placement adds one mark to a board without a line, so
that all lines after it are of one mark (`Cells.verdict_image_put`), and it can decide no
sub-board but its own.

Key definitions: `Symmetry`, `Symmetry.cell`, `Cells.Image`, `Position.Image`.
Key theorems: `Symmetry.lineOf_image`, `Position.Image.findWins_place`,
`Timeline.Mirrors.play`, `Timeline.play_symmetric`.
-/
import UltimateTicTacToe.Proofs.Choice

namespace UltimateTicTacToe

/-- A symmetry of the square: the columns are reversed or not, then the rows, and then
columns and rows are exchanged or not. -/
structure Symmetry where
  reverseColumns : Bool
  reverseRows : Bool
  transpose : Bool
  deriving DecidableEq, Repr

namespace Symmetry

/-- Where a symmetry moves cell `i`. A place off the board is left alone. -/
def cell (s : Symmetry) (i : Nat) : Nat :=
  let x := if s.reverseColumns then 2 - i % 3 else i % 3
  let y := if s.reverseRows then 2 - i / 3 else i / 3
  if i < 9 then if s.transpose then y + 3 * x else x + 3 * y else i

/-- The symmetry that takes the other one back. -/
def inverse (s : Symmetry) : Symmetry :=
  if s.transpose then ⟨s.reverseRows, s.reverseColumns, true⟩ else s

/-- A property of all symmetries is one of eight. -/
theorem forall_iff {P : Symmetry → Prop} :
    (∀ s, P s) ↔ ∀ columns rows transpose, P ⟨columns, rows, transpose⟩ :=
  ⟨fun h _ _ _ => h _, fun h s => h s.reverseColumns s.reverseRows s.transpose⟩

instance {P : Symmetry → Prop} [DecidablePred P] : Decidable (∀ s, P s) :=
  decidable_of_iff _ forall_iff.symm

theorem cell_of_not_lt (s : Symmetry) {i : Nat} (h : ¬ i < 9) : s.cell i = i := if_neg h

theorem cell_lt (s : Symmetry) {i : Nat} (h : i < 9) : s.cell i < 9 := by
  revert i s
  decide

theorem cell_lt_iff {s : Symmetry} {i : Nat} : s.cell i < 9 ↔ i < 9 := by
  refine ⟨fun h => ?_, s.cell_lt⟩
  by_contra hi
  rw [s.cell_of_not_lt hi] at h
  exact hi h

theorem cell_inverse (s : Symmetry) (i : Nat) : s.cell (s.inverse.cell i) = i := by
  by_cases h : i < 9
  · revert i s
    decide
  · rw [s.inverse.cell_of_not_lt h, s.cell_of_not_lt h]

theorem inverse_cell (s : Symmetry) (i : Nat) : s.inverse.cell (s.cell i) = i := by
  by_cases h : i < 9
  · revert i s
    decide
  · rw [s.cell_of_not_lt h, s.inverse.cell_of_not_lt h]

theorem cell_inj {s : Symmetry} {i j : Nat} : s.cell i = s.cell j ↔ i = j := by
  refine ⟨fun h => ?_, congrArg s.cell⟩
  rw [← s.inverse_cell i, h, s.inverse_cell]

/-- The image of a line is a line, its cells perhaps in another order. -/
theorem exists_line (s : Symmetry) : ∀ l ∈ lines, ∃ l' ∈ lines,
    ∀ j ∈ [l'.1, l'.2.1, l'.2.2], j ∈ [s.cell l.1, s.cell l.2.1, s.cell l.2.2] := by
  revert s
  decide

-- There are eight of them.
example : ∀ s s' : Symmetry, (∀ i < 9, s.cell i = s'.cell i) → s = s' := by decide

/-- The image of a placement: its sub-board and its tile are moved alike. -/
def placement (s : Symmetry) (p : Placement) : Placement := ⟨s.cell p.grid, s.cell p.tile⟩

/-- The image of an event. -/
def event (s : Symmetry) : Event → Event
  | .placed p => .placed (s.placement p)
  | .decided g o => .decided (s.cell g) o
  | .ended o => .ended o

theorem placement_inverse (s : Symmetry) (p : Placement) :
    s.placement (s.inverse.placement p) = p := by
  simp only [placement, cell_inverse]

theorem placement_inj {s : Symmetry} {p q : Placement} :
    s.placement p = s.placement q ↔ p = q := by
  simp only [placement, Placement.mk.injEq, cell_inj]
  exact ⟨fun ⟨hg, ht⟩ => by cases p; cases q; simp_all, fun h => by simp [h]⟩

theorem onBoard_placement {s : Symmetry} {p : Placement} :
    (s.placement p).onBoard = true ↔ p.onBoard = true := by
  rw [Placement.onBoard_iff, Placement.onBoard_iff]
  simp only [placement, cell_lt_iff]

end Symmetry

/-! ### Boards -/

variable {α : Type} {s : Symmetry}

namespace Cells

/-- The board `b` is the image of `a`. -/
def Image (s : Symmetry) (a b : Cells α) : Prop := ∀ i, b.get (s.cell i) = a.get i

/-- The other way round, `a` is the image of `b`. -/
theorem Image.symm {a b : Cells α} (h : Image s a b) : Image s.inverse b a := by
  intro i
  rw [← h, s.cell_inverse]

theorem Image.lineOf {a b : Cells α} (h : Image s a b) {m : α} (hm : LineOf a.get m) :
    LineOf b.get m := by
  obtain ⟨l, hl, hfirst, hsecond, hthird⟩ := hm
  obtain ⟨l', hl', hcells⟩ := s.exists_line l hl
  have hmarks : ∀ j ∈ [s.cell l.1, s.cell l.2.1, s.cell l.2.2], b.get j = some m := by
    simp only [List.forall_mem_cons, h l.1, h l.2.1, h l.2.2]
    exact ⟨hfirst, hsecond, hthird, nofun⟩
  exact ⟨l', hl', hmarks _ (hcells _ (by simp)), hmarks _ (hcells _ (by simp)),
    hmarks _ (hcells _ (by simp))⟩

/-- A board and its image have the same lines. -/
theorem Image.lineOf_iff {a b : Cells α} (h : Image s a b) {m : α} :
    LineOf b.get m ↔ LineOf a.get m := ⟨h.symm.lineOf, h.lineOf⟩

theorem Image.filled {a b : Cells α} (h : Image s a b) (ha : Filled a.get) : Filled b.get := by
  intro i hi
  rw [← h.symm i]
  exact ha _ (s.inverse.cell_lt hi)

/-- A board and its image end alike. -/
theorem Image.endsAs_iff {won : α → Outcome} {a b : Cells α} (h : Image s a b) {o : Outcome} :
    EndsAs won b.get o ↔ EndsAs won a.get o := by
  have hfilled : Filled b.get ↔ Filled a.get := ⟨h.symm.filled, h.filled⟩
  simp only [EndsAs, h.lineOf_iff, hfilled]

theorem Image.put {a b : Cells α} (h : Image s a b) (i : Nat) (mark : Option α) :
    Image s (a.put i mark) (b.put (s.cell i) mark) := by
  intro j
  simp only [get_put, Symmetry.cell_inj, Symmetry.cell_lt_iff, h j]

/-- **A mark on a board without a line decides it as its image does**: all lines are of
that mark then, so it does not matter which one is found. -/
theorem Image.verdict_put [DecidableEq α] {won : α → Outcome} {a b : Cells α} (h : Image s a b)
    (hopen : a.verdict won = none) (i : Nat) (m : α) :
    (b.put (s.cell i) (some m)).verdict won = (a.put i (some m)).verdict won := by
  have hno : ∀ m, ¬ LineOf a.get m := (verdict_eq_none.mp hopen).1
  have hno' : ∀ m, ¬ LineOf b.get m := fun m hm => hno m (h.lineOf_iff.mp hm)
  have hunique : ∀ m' m'', LineOf (a.put i (some m)).get m' → LineOf (a.put i (some m)).get m'' →
      m' = m'' := fun _ _ h' h'' =>
    (eq_of_lineOf_put hno h').trans (eq_of_lineOf_put hno h'').symm
  have hunique' : ∀ m' m'', LineOf (b.put (s.cell i) (some m)).get m' →
      LineOf (b.put (s.cell i) (some m)).get m'' → m' = m'' := fun _ _ h' h'' =>
    (eq_of_lineOf_put hno' h').trans (eq_of_lineOf_put hno' h'').symm
  refine Option.ext fun o => ?_
  rw [verdict_eq_some hunique', verdict_eq_some hunique]
  exact (h.put i (some m)).endsAs_iff

end Cells

/-! ### Positions -/

namespace Position

/-- The position `b` is the image of `a`. -/
structure Image (s : Symmetry) (a b : Position) : Prop where
  winner : b.winner = a.winner
  turn : b.turn = a.turn
  target : b.target = a.target.map s.cell
  pastTargets : b.pastTargets = a.pastTargets.map (Option.map s.cell)
  decided : Cells.Image s a.decided b.decided
  board : ∀ g, Cells.Image s (a.board g) (b.board (s.cell g))

theorem image_start (s : Symmetry) : Image s start start where
  winner := rfl
  turn := rfl
  target := rfl
  pastTargets := rfl
  decided g := by rw [start, Cells.get_empty, Cells.get_empty]
  board g t := (owner_start ⟨s.cell g, s.cell t⟩).trans (owner_start ⟨g, t⟩).symm

namespace Image

variable {a b : Position}

theorem owner (h : Image s a b) (p : Placement) : b.owner (s.placement p) = a.owner p :=
  h.board p.grid p.tile

theorem place (h : Image s a b) (p : Placement) :
    Image s (a.place p) (b.place (s.placement p)) where
  winner := h.winner
  turn := congrArg Player.opponent h.turn
  target := by
    show (if b.decided.get (s.cell p.tile) = none then some (s.cell p.tile) else none) =
      (if a.decided.get p.tile = none then some p.tile else none).map s.cell
    rw [h.decided]
    split
    · rfl
    · rfl
  pastTargets := by
    rw [pastTargets_place, pastTargets_place, h.target, h.pastTargets]
    rfl
  decided := h.decided
  board g t := by
    show (b.place (s.placement p)).owner (s.placement ⟨g, t⟩) = (a.place p).owner ⟨g, t⟩
    rw [owner_place, owner_place, h.owner, h.turn]
    simp only [Symmetry.placement_inj, Symmetry.onBoard_placement]

/-- The image of a placement is legal where the placement is. -/
theorem isPlayable_iff (h : Image s a b) {p : Placement} :
    b.isPlayable (s.placement p) = true ↔ a.isPlayable p = true := by
  have hsent : (∀ g, b.target = some g → b.decided.get g = none → s.cell p.grid = g) ↔
      ∀ g, a.target = some g → a.decided.get g = none → p.grid = g := by
    rw [h.target]
    cases a.target with
    | none => simp
    | some g => simp [h.decided g, Symmetry.cell_inj]
  rw [Position.isPlayable_iff, Position.isPlayable_iff, h.winner, h.owner,
    Symmetry.onBoard_placement]
  show _ ∧ _ ∧ _ ∧ b.decided.get (s.cell p.grid) = none ∧ _ ↔ _
  rw [h.decided]
  exact and_congr_right fun _ => and_congr_right fun _ => and_congr_right fun _ =>
    and_congr_right fun _ => hsent

/-- The image of an event does to the image what the event does. -/
theorem apply (h : Image s a b) {e : Event} {a' : Position} (ha : a.apply e = .ok a') :
    ∃ b', b.apply (s.event e) = .ok b' ∧ Image s a' b' := by
  cases e with
  | placed p =>
    obtain ⟨hw, hp, ho, rfl⟩ := apply_placed.mp ha
    exact ⟨_, apply_placed.mpr ⟨h.winner.trans hw, Symmetry.onBoard_placement.mpr hp,
      (h.owner p).trans ho, rfl⟩, h.place p⟩
  | decided g o =>
    obtain ⟨hw, hg, hd, rfl⟩ := apply_decided.mp ha
    refine ⟨_, apply_decided.mpr ⟨h.winner.trans hw, s.cell_lt hg, (h.decided g).trans hd, rfl⟩, ?_⟩
    exact ⟨h.winner, h.turn, h.target, h.pastTargets, h.decided.put g (some o), h.board⟩
  | ended o =>
    obtain ⟨hw, rfl⟩ := apply_ended.mp ha
    refine ⟨_, apply_ended.mpr ⟨h.winner.trans hw, rfl⟩, ?_⟩
    exact ⟨rfl, h.turn, h.target, h.pastTargets, h.decided, h.board⟩

theorem replay (h : Image s a b) {es : List Event} {a' : Position} (ha : a.replay es = .ok a') :
    ∃ b', b.replay (es.map s.event) = .ok b' ∧ Image s a' b' := by
  induction es generalizing a b with
  | nil =>
    cases ha
    exact ⟨b, rfl, h⟩
  | cons e es ih =>
    obtain ⟨c, hc, ha'⟩ := replay_cons_ok.mp ha
    obtain ⟨d, hd, hcd⟩ := h.apply hc
    obtain ⟨b', hb', himage⟩ := ih hcd ha'
    exact ⟨b', replay_cons_ok.mpr ⟨d, hd, hb'⟩, himage⟩

/-- **The image of a placement decides the images** of what the placement decides. -/
theorem findWins_place (h : Image s a b) (ha : a.Settled) (hb : b.Settled) {p : Placement}
    (hp : a.isPlayable p = true) :
    (b.place (s.placement p)).findWins = (a.place p).findWins.map s.event := by
  obtain ⟨hw, hboard, -, hd, -⟩ := Position.isPlayable_iff.mp hp
  have hg := (Placement.onBoard_iff.mp hboard).1
  have hg' : (s.placement p).grid < 9 := s.cell_lt hg
  have hsub : subBoardOutcome ((b.place (s.placement p)).board (s.placement p).grid) =
      subBoardOutcome ((a.place p).board p.grid) := by
    have hopen : subBoardOutcome (a.board p.grid) = none := (ha.decided p.grid hg).symm.trans hd
    rw [board_place_self b hg', board_place_self a hg, h.turn]
    exact (h.board p.grid).verdict_put hopen p.tile a.turn
  have hover (o : Outcome) : overallOutcome (b.decided.put (s.placement p).grid (some o)) =
      overallOutcome (a.decided.put p.grid (some o)) :=
    h.decided.verdict_put (ha.winner.symm.trans hw) p.grid o
  rw [hb.findWins_place (h.isPlayable_iff.mpr hp), ha.findWins_place hp, hsub]
  cases subBoardOutcome ((a.place p).board p.grid) with
  | none => rfl
  | some o =>
    simp only [hover, List.map_cons, List.map_map]
    rfl

end Image

end Position

/-! ### Timelines -/

namespace Timeline

/-- What comes of playing `p` in `t` and its image in `u`: both are accepted, with
outcomes that are images of each other, or both are refused. -/
def PlaysAlike (s : Symmetry) (t u : Timeline) (p : Placement) : Prop :=
  (∃ outs, (t.play p).2 = .ok outs ∧ (u.play (s.placement p)).2 = .ok (outs.map s.event)) ∨
    ((t.play p).2 = .error (.illegalMove p) ∧
      (u.play (s.placement p)).2 = .error (.illegalMove (s.placement p)))

/-- The timeline `u` holds the image of the game in `t`, both with their ends on view. -/
structure Mirrors (s : Symmetry) (t u : Timeline) : Prop where
  ruled : t.Ruled
  ruled_image : u.Ruled
  atEnd : t.atEnd = true
  atEnd_image : u.atEnd = true
  view : Position.Image s t.view u.view

namespace Mirrors

variable {t u : Timeline}

/-- **A placement and its image are played alike**, and leave a game and its image. -/
theorem play (h : Mirrors s t u) (p : Placement) :
    PlaysAlike s t u p ∧ Mirrors s (t.play p).1 (u.play (s.placement p)).1 := by
  have hruled := h.ruled.play p
  have hruled' := h.ruled_image.play (s.placement p)
  by_cases hp : t.view.isPlayable p = true
  · obtain ⟨a, ha⟩ := (t.view.place p).exists_replay_findWins
    obtain ⟨b, hb, himage⟩ := (h.view.place p).replay ha
    rw [← h.view.findWins_place h.ruled.settled_view h.ruled_image.settled_view hp] at hb
    have hplay := h.ruled.play_eq h.atEnd hp ha
    have hplay' := h.ruled_image.play_eq h.atEnd_image (h.view.isPlayable_iff.mpr hp) hb
    refine ⟨Or.inl ⟨_, congrArg Prod.snd hplay, ?_⟩, hruled, hruled', ?_, ?_, ?_⟩
    · rw [hplay', h.view.findWins_place h.ruled.settled_view h.ruled_image.settled_view hp]
    · rw [hplay]
      simp [atEnd_iff]
    · rw [hplay']
      simp [atEnd_iff]
    · rw [hplay, hplay']
      exact himage
  · have hnot : u.view.isPlayable (s.placement p) = false := by
      simpa using fun h' => hp (h.view.isPlayable_iff.mp h')
    have hplay := play_of_not_isPlayable h.atEnd (p := p) (by simpa using hp)
    have hplay' := play_of_not_isPlayable h.atEnd_image hnot
    rw [hplay, hplay']
    exact ⟨Or.inr ⟨congrArg Prod.snd hplay, congrArg Prod.snd hplay'⟩, h⟩

theorem mem_playableTiles_iff (h : Mirrors s t u) {q : Placement} :
    q ∈ u.view.playableTiles ↔ ∃ p ∈ t.view.playableTiles, s.placement p = q := by
  have htarget := h.ruled.targetOnBoard_view
  have htarget' := h.ruled_image.targetOnBoard_view
  rw [Position.mem_playableTiles_iff_isPlayable htarget']
  constructor
  · intro hq
    rw [← s.placement_inverse q, h.view.isPlayable_iff] at hq
    exact ⟨_, (Position.mem_playableTiles_iff_isPlayable htarget).mpr hq, s.placement_inverse q⟩
  · rintro ⟨p, hp, rfl⟩
    exact h.view.isPlayable_iff.mpr ((Position.mem_playableTiles_iff_isPlayable htarget).mp hp)

end Mirrors

theorem mirrors_empty (s : Symmetry) : Mirrors s empty empty :=
  ⟨ruled_empty, ruled_empty, rfl, rfl, Position.image_start s⟩

theorem mirrors_run (s : Symmetry) (ps : List Placement) :
    Mirrors s (empty.run (ps.map .play)) (empty.run ((ps.map s.placement).map .play)) := by
  induction ps using List.reverseRecOn with
  | nil => exact mirrors_empty s
  | append_singleton ps p ih =>
    rw [List.map_append, List.map_append, List.map_append, run_append, run_append]
    exact (ih.play p).2

/-- **The rules are the same in the mirror.** After any placements on one board, legal or
not, and their images on another, the one position is the image of the other and its legal
placements are their images, and every further placement is played like its image. -/
theorem play_symmetric (s : Symmetry) (ps : List Placement) :
    let t := empty.run (ps.map .play)
    let u := empty.run ((ps.map s.placement).map .play)
    Position.Image s t.view u.view ∧
      (∀ q, q ∈ u.view.playableTiles ↔ ∃ p ∈ t.view.playableTiles, s.placement p = q) ∧
      ∀ p, PlaysAlike s t u p := by
  intro t u
  have h : Mirrors s t u := mirrors_run s ps
  exact ⟨h.view, fun _ => h.mem_playableTiles_iff, fun p => (h.play p).1⟩

end Timeline

end UltimateTicTacToe
