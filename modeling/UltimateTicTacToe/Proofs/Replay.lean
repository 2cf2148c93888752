/-
# What an event does, and how it is taken back

For each kind of event one lemma says when `Position.apply` accepts it and what
position it leaves (`Position.apply_placed`, `Position.apply_decided`,
`Position.apply_ended`); nothing below or elsewhere opens `apply` for that again.
From them, `Position.undo` takes every accepted event back, and a whole list of
events is taken back by `Position.unwind` of the reversed list
(`Position.unwind_replay`), whatever position it started from. The way back leads
through the same positions as the way there (`Position.unwind_retraces`).

Key definitions: `Position.trail`.
Key theorems: `Position.undo_apply`, `Position.unwind_replay`,
`Position.unwind_retraces`, `Position.replay_append`, `Position.replay_error`,
`Position.replay_induction`.
-/
import Mathlib.Data.List.Induction
import UltimateTicTacToe.Proofs.Board

namespace UltimateTicTacToe

@[simp] theorem Player.opponent_opponent (m : Player) : m.opponent.opponent = m := by
  cases m with
  | red => rfl
  | blue => rfl

theorem Placement.onBoard_iff {p : Placement} : p.onBoard = true ↔ p.grid < 9 ∧ p.tile < 9 := by
  simp [onBoard, isIndex]

namespace Position

/-! ### Tiles that change hands -/

theorem boards_ext {a b : Vector (Cells Player) 9}
    (h : ∀ g < 9, a[g]?.getD .empty = b[g]?.getD .empty) : a = b := by
  ext g hg : 1
  simpa [hg] using h g hg

theorem board_congr {s t : Position} (h : s.boards = t.boards) (g : Nat) :
    s.board g = t.board g := by
  rw [board, h]
  rfl

/-- The tile that was given away is given to `y` instead. -/
theorem setOwner_setOwner (s : Position) (p : Placement) (x y : Option Player) :
    (s.setOwner p x).setOwner p y = s.setOwner p y := by
  have h : ((s.setOwner p x).setOwner p y).boards = (s.setOwner p y).boards := by
    refine boards_ext fun g _ => ?_
    show ((s.setOwner p x).setOwner p y).board g = (s.setOwner p y).board g
    simp only [board_setOwner]
    split
    · rw [Cells.put_put]
    · rfl
  calc (s.setOwner p x).setOwner p y
      = { s with boards := ((s.setOwner p x).setOwner p y).boards } := rfl
    _ = { s with boards := (s.setOwner p y).boards } := by rw [h]
    _ = s.setOwner p y := rfl

theorem setOwner_owner (s : Position) (p : Placement) : s.setOwner p (s.owner p) = s := by
  have h : (s.setOwner p (s.owner p)).boards = s.boards := by
    refine boards_ext fun g _ => ?_
    show (s.setOwner p (s.owner p)).board g = s.board g
    rw [board_setOwner]
    split
    · rename_i hg
      rw [owner, tile, ← hg.1, Cells.put_get]
    · rfl
  calc s.setOwner p (s.owner p) = { s with boards := (s.setOwner p (s.owner p)).boards } := rfl
    _ = s := by rw [h]

@[simp] theorem winner_place (s : Position) (p : Placement) : (s.place p).winner = s.winner := rfl

@[simp] theorem turn_place (s : Position) (p : Placement) :
    (s.place p).turn = s.turn.opponent := rfl

@[simp] theorem pastTargets_place (s : Position) (p : Placement) :
    (s.place p).pastTargets = s.target :: s.pastTargets := rfl

@[simp] theorem decided_place (s : Position) (p : Placement) :
    (s.place p).decided = s.decided := rfl

theorem owner_place (s : Position) (p q : Placement) :
    (s.place p).owner q = if p = q ∧ p.onBoard = true then some s.turn else s.owner q :=
  owner_setOwner s p q (some s.turn)

theorem board_place_self (s : Position) {p : Placement} (h : p.grid < 9) :
    (s.place p).board p.grid = (s.board p.grid).put p.tile (some s.turn) := by
  have := board_setOwner s p (some s.turn) p.grid
  rw [if_pos ⟨rfl, h⟩] at this
  exact this

theorem board_place_of_ne (s : Position) {p : Placement} {g : Nat} (h : p.grid ≠ g) :
    (s.place p).board g = s.board g := by
  have := board_setOwner s p (some s.turn) g
  rw [if_neg fun h' => h h'.1] at this
  exact this

/-! ### One event -/

/-- A placement is accepted on an empty tile of the board while the game is on. -/
theorem apply_placed {s t : Position} {p : Placement} :
    s.apply (.placed p) = .ok t ↔
      s.winner = none ∧ p.onBoard = true ∧ s.owner p = none ∧ t = s.place p := by
  unfold apply
  cases hw : s.winner with
  | some o => simp
  | none =>
    by_cases hp : p.onBoard = true
    · cases ho : s.owner p with
      | some m => simp [hp, ho]
      | none => simp [hp, ho, eq_comm]
    · simp [hp]

/-- A sub-board's outcome is accepted once, while the game is on. -/
theorem apply_decided {s t : Position} {g : Nat} {o : Outcome} :
    s.apply (.decided g o) = .ok t ↔
      s.winner = none ∧ g < 9 ∧ s.decided.get g = none ∧
        t = { s with decided := s.decided.put g (some o) } := by
  unfold apply isIndex
  cases hw : s.winner with
  | some o => simp
  | none =>
    by_cases hg : g < 9
    · cases hd : s.decided.get g with
      | some o => simp [hg, hd]
      | none => simp [hg, hd, eq_comm]
    · simp [hg]

/-- The game's outcome is accepted while the game is on. -/
theorem apply_ended {s t : Position} {o : Outcome} :
    s.apply (.ended o) = .ok t ↔ s.winner = none ∧ t = { s with winner := some o } := by
  unfold apply
  cases hw : s.winner with
  | some o => simp
  | none => simp [eq_comm]

/-- **An accepted event can be taken back.** -/
theorem undo_apply {s t : Position} {e : Event} (h : s.apply e = .ok t) : t.undo e = .ok s := by
  cases e with
  | placed p =>
    obtain ⟨-, hp, ho, rfl⟩ := apply_placed.mp h
    have howner : (s.place p).owner p = some s.turn := by simp [owner_place, hp]
    have hback : (s.place p).setOwner p none =
        { s.place p with boards := ((s.setOwner p (some s.turn)).setOwner p none).boards } := rfl
    have hboards : ((s.setOwner p (some s.turn)).setOwner p none).boards = s.boards := by
      rw [setOwner_setOwner, ← ho, setOwner_owner]
    unfold undo
    simp only [hp, howner, turn_place, Player.opponent_opponent, pastTargets_place, if_true]
    rw [hback, hboards, winner_place, decided_place]
  | decided g o =>
    obtain ⟨-, hg, hd, rfl⟩ := apply_decided.mp h
    have hget : (s.decided.put g (some o)).get g = some o := by simp [Cells.get_put, hg]
    have hput : (s.decided.put g (some o)).put g none = s.decided := by
      rw [Cells.put_put, ← hd, Cells.put_get]
    simp [undo, isIndex, hg, hget, hput]
  | ended o =>
    obtain ⟨hw, rfl⟩ := apply_ended.mp h
    simp [undo, ← hw]

/-! ### Lists of events -/

theorem replay_cons_ok {s u : Position} {e : Event} {es : List Event} :
    s.replay (e :: es) = .ok u ↔ ∃ t, s.apply e = .ok t ∧ t.replay es = .ok u := by
  rw [replay]
  cases s.apply e with
  | error f => simp
  | ok t => simp

/-- Replaying two lists is replaying one from where the other has ended. -/
theorem replay_append (s : Position) (as bs : List Event) :
    s.replay (as ++ bs) = (s.replay as).bind fun t => t.replay bs := by
  induction as generalizing s with
  | nil => rfl
  | cons e as ih =>
    rw [List.cons_append, replay, replay]
    cases s.apply e with
    | error f => rfl
    | ok t => exact ih t

theorem replay_append_of_ok {s t : Position} {as bs : List Event} (h : s.replay as = .ok t) :
    s.replay (as ++ bs) = t.replay bs := by
  rw [replay_append, h]
  rfl

theorem replay_append_ok {s u : Position} {as bs : List Event} :
    s.replay (as ++ bs) = .ok u ↔ ∃ t, s.replay as = .ok t ∧ t.replay bs = .ok u := by
  rw [replay_append]
  cases s.replay as with
  | error f => simp [Except.bind]
  | ok t => simp [Except.bind]

theorem replay_singleton_ok {s t : Position} {e : Event} :
    s.replay [e] = .ok t ↔ s.apply e = .ok t := by
  rw [replay_cons_ok]
  simp [replay]

/-- A replay stops at the first event that is refused, with that event's fault. -/
theorem replay_error {f : Fault} : ∀ {es : List Event} {s : Position}, s.replay es = .error f →
    ∃ before e after t, es = before ++ e :: after ∧ s.replay before = .ok t ∧ t.apply e = .error f
  | [], _, h => by simp [replay] at h
  | e :: es, s, h => by
    rw [replay] at h
    cases ha : s.apply e with
    | error f' =>
      rw [ha] at h
      exact ⟨[], e, es, s, rfl, rfl, ha.trans h⟩
    | ok t =>
      rw [ha] at h
      obtain ⟨before, e', after, u, rfl, hu, hf⟩ := replay_error h
      exact ⟨e :: before, e', after, u, rfl, replay_cons_ok.mpr ⟨t, ha, hu⟩, hf⟩

/-- What holds at the start and is kept by every accepted event holds after every
replay. -/
theorem replay_induction {motive : List Event → Position → Prop} {s : Position} (nil : motive [] s)
    (snoc : ∀ es e t u, s.replay es = .ok t → motive es t → t.apply e = .ok u →
      motive (es ++ [e]) u)
    {es : List Event} {t : Position} (h : s.replay es = .ok t) : motive es t := by
  induction es using List.reverseRecOn generalizing t with
  | nil =>
    rw [replay, Except.ok.injEq] at h
    exact h ▸ nil
  | append_singleton es e ih =>
    obtain ⟨u, hu, ht⟩ := replay_append_ok.mp h
    exact snoc es e u t hu (ih hu) (replay_singleton_ok.mp ht)

/-- Outcomes leave the tiles and the constraint alone, and no outcome that is
recorded is changed. -/
theorem frame_of_outcomes {s t : Position} {ws : List Event}
    (hws : ∀ e ∈ ws, e.isPlacement = false) (h : s.replay ws = .ok t) :
    t.boards = s.boards ∧ t.target = s.target ∧
      ∀ g, s.decided.get g ≠ none → t.decided.get g = s.decided.get g := by
  induction ws generalizing s with
  | nil =>
    rw [replay, Except.ok.injEq] at h
    rw [h]
    exact ⟨rfl, rfl, fun _ _ => rfl⟩
  | cons e ws ih =>
    obtain ⟨u, hu, ht⟩ := replay_cons_ok.mp h
    obtain ⟨hb, htarget, hd⟩ := ih (fun e' he' => hws e' (List.mem_cons_of_mem _ he')) ht
    cases e with
    | placed p =>
      have := hws _ List.mem_cons_self
      cases this
    | decided g o =>
      obtain ⟨-, -, hn, rfl⟩ := apply_decided.mp hu
      refine ⟨hb, htarget, fun g' hg' => ?_⟩
      have hne : ¬ (g = g' ∧ g < 9) := fun h' => hg' (h'.1 ▸ hn)
      have hput : (s.decided.put g (some o)).get g' = s.decided.get g' := by
        rw [Cells.get_put, if_neg hne]
      rw [hd g' (by rw [hput]; exact hg'), hput]
    | ended o =>
      obtain ⟨-, rfl⟩ := apply_ended.mp hu
      exact ⟨hb, htarget, hd⟩

theorem unwind_append (s : Position) (as bs : List Event) :
    s.unwind (as ++ bs) = (s.unwind as).bind fun t => t.unwind bs := by
  induction as generalizing s with
  | nil => rfl
  | cons e as ih =>
    rw [List.cons_append, unwind, unwind]
    cases s.undo e with
    | error f => rfl
    | ok t => exact ih t

/-- **A replay can be taken back**: undoing its events, the latest first, ends at
the position it started from. -/
theorem unwind_replay {s t : Position} {es : List Event} (h : s.replay es = .ok t) :
    t.unwind es.reverse = .ok s := by
  induction es generalizing s with
  | nil =>
    rw [replay, Except.ok.injEq] at h
    rw [h]
    rfl
  | cons e es ih =>
    obtain ⟨u, hu, ht⟩ := replay_cons_ok.mp h
    rw [List.reverse_cons, unwind_append, ih ht]
    show u.unwind [e] = .ok s
    rw [unwind, undo_apply hu]
    rfl

/-! ### There and back -/

/-- The positions that the steps of a list of events lead through, from `s` on, up to
the first step that is refused. -/
def trail (step : Position → Event → Except Fault Position) (s : Position) :
    List Event → List Position
  | [] => [s]
  | e :: es =>
    match step s e with
    | .ok t => s :: trail step t es
    | .error _ => [s]

/-- One step back beyond those that have been taken back. -/
theorem trail_undo_snoc {t u s : Position} {es : List Event} {e : Event}
    (h : t.unwind es = .ok u) (he : u.undo e = .ok s) :
    trail undo t (es ++ [e]) = trail undo t es ++ [s] := by
  induction es generalizing t with
  | nil =>
    rw [unwind, Except.ok.injEq] at h
    rw [h]
    simp [trail, he]
  | cons e' es ih =>
    rw [unwind] at h
    cases ht : t.undo e' with
    | error f =>
      rw [ht] at h
      cases h
    | ok t' =>
      rw [ht] at h
      simp [trail, ht, ih h]

/-- The way back leads through the positions of the way there. -/
theorem trail_undo_reverse {s t : Position} {es : List Event} (h : s.replay es = .ok t) :
    trail undo t es.reverse = (trail apply s es).reverse := by
  induction es generalizing s with
  | nil =>
    rw [replay, Except.ok.injEq] at h
    rw [h]
    rfl
  | cons e es ih =>
    obtain ⟨u, hu, ht⟩ := replay_cons_ok.mp h
    calc trail undo t (e :: es).reverse
        = trail undo t (es.reverse ++ [e]) := by rw [List.reverse_cons]
      _ = trail undo t es.reverse ++ [s] := trail_undo_snoc (unwind_replay ht) (undo_apply hu)
      _ = (trail apply u es).reverse ++ [s] := by rw [ih ht]
      _ = (trail apply s (e :: es)).reverse := by simp [trail, hu]

/-- **A replay is retraced step by step.** Whatever the position it started from, taking
its events back ends there again; on the way it comes to the position after any part of
the events as soon as the others are taken back, and so meets all positions of the replay
in reverse order. -/
theorem unwind_retraces {s t : Position} {es : List Event} (h : s.replay es = .ok t) :
    t.unwind es.reverse = .ok s ∧
      (∀ before after, es = before ++ after →
        ∃ u, s.replay before = .ok u ∧ t.unwind after.reverse = .ok u) ∧
      trail undo t es.reverse = (trail apply s es).reverse := by
  refine ⟨unwind_replay h, fun before after hsplit => ?_, trail_undo_reverse h⟩
  rw [hsplit] at h
  obtain ⟨u, hbefore, hafter⟩ := replay_append_ok.mp h
  exact ⟨u, hbefore, unwind_replay hafter⟩

/-- A position that no game leads to: Blue to move on the empty board, sent off the
board after a single placement, and a sub-board won without a tile. -/
def impossible : Position :=
  { start with turn := .blue, target := some 40, pastTargets := [some 12],
               decided := Cells.empty.put 3 (some .red) }

/-- Three events of different kinds that can follow it. -/
def afterImpossible : List Event := [.placed ⟨4, 3⟩, .decided 4 .stalemate, .ended .blue]

theorem impossible_retraces : ∃ t, impossible.replay afterImpossible = .ok t ∧
    t.unwind afterImpossible.reverse = .ok impossible ∧
    (∀ before after, afterImpossible = before ++ after →
      ∃ u, impossible.replay before = .ok u ∧ t.unwind after.reverse = .ok u) ∧
    trail undo t afterImpossible.reverse = (trail apply impossible afterImpossible).reverse := by
  obtain ⟨t, ht⟩ : ∃ t, impossible.replay afterImpossible = .ok t := ⟨_, rfl⟩
  exact ⟨t, ht, unwind_retraces ht⟩

end Position

end UltimateTicTacToe
