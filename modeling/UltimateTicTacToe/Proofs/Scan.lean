/-
# The scan for new outcomes

`Position.findWins` goes through the sub-boards in ascending order, with a copy of the
recorded outcomes to which it adds each outcome that it finds. `Position.Scans` is the
same scan with the position itself carried along: each outcome that is found is recorded
in it at once, by `Position.apply`. Both find the same (`Position.exists_scans`), and what
there is to say about the scan is said of a run of `Position.Scans`, one case for each way
in which it goes on.

Nothing is asked of the position. It may be one that no play leads to, with several
sub-boards that are decided and not recorded, with recorded outcomes that are not those of
the tiles, and with different ends of the game in sight. The scan reports what the tiles
decide, all of it can be recorded in the order in which it is reported, and then nothing
is left to report (`Position.findings_findWins`).

Key definitions: `Position.Scans`, `Position.Findings`.
Key theorems: `Position.exists_scans`, `Position.exists_replay_findWins`,
`Position.findings_findWins`.
-/
import UltimateTicTacToe.Game.Rules
import UltimateTicTacToe.Proofs.Language

namespace UltimateTicTacToe
namespace Position

/-! ### One sub-board -/

theorem newOutcomes_skip {s : Position} {d : Cells Outcome} {g : Nat} {gs : List Nat}
    (h : d.get g = none → subBoardOutcome (s.board g) = none) :
    s.newOutcomes d (g :: gs) = s.newOutcomes d gs := by
  rw [newOutcomes]
  cases hd : d.get g with
  | some o => rfl
  | none =>
    rw [h hd]

theorem newOutcomes_found {s : Position} {d : Cells Outcome} {g : Nat} {o : Outcome} (gs : List Nat)
    (hd : d.get g = none) (ho : subBoardOutcome (s.board g) = some o) :
    s.newOutcomes d (g :: gs) = match overallOutcome (d.put g (some o)) with
      | some overall => [.decided g o, .ended overall]
      | none => .decided g o :: s.newOutcomes (d.put g (some o)) gs := by
  cases hv : overallOutcome (d.put g (some o)) with
  | none => simp only [newOutcomes, hd, ho, hv]
  | some v => simp only [newOutcomes, hd, ho, hv]

theorem newOutcomes_eq_nil {s : Position} {d : Cells Outcome} {gs : List Nat}
    (h : ∀ g ∈ gs, d.get g = none → subBoardOutcome (s.board g) = none) :
    s.newOutcomes d gs = [] := by
  induction gs with
  | nil => rfl
  | cons g gs ih =>
    rw [newOutcomes_skip (h g List.mem_cons_self)]
    exact ih fun g' hg' => h g' (List.mem_cons_of_mem _ hg')

/-- The scan looks at nothing but the tiles and the outcomes recorded so far. -/
theorem newOutcomes_congr {s t : Position} (h : s.boards = t.boards) (d : Cells Outcome)
    (gs : List Nat) : s.newOutcomes d gs = t.newOutcomes d gs := by
  induction gs generalizing d with
  | nil => rfl
  | cons g gs ih =>
    rw [newOutcomes, newOutcomes, board_congr h]
    simp only [ih]

/-! ### A run of the scan -/

/-- The scan goes through the sub-boards `gs` from the position `s` on, reports `ws` and
ends in the position `t`, in which all of it is recorded. -/
inductive Scans : Position → List Nat → List Event → Position → Prop
  | done {s : Position} : Scans s [] [] s
  /-- The sub-board is recorded already, or its tiles do not decide it. -/
  | quiet {s t : Position} {g : Nat} {gs : List Nat} {ws : List Event} :
      (s.decided.get g = none → subBoardOutcome (s.board g) = none) → Scans s gs ws t →
      Scans s (g :: gs) ws t
  /-- The sub-board is newly decided, and the game goes on. -/
  | found {s u t : Position} {g : Nat} {o : Outcome} {gs : List Nat} {ws : List Event} :
      subBoardOutcome (s.board g) = some o → s.apply (.decided g o) = .ok u →
      overallOutcome u.decided = none → Scans u gs ws t → Scans s (g :: gs) (.decided g o :: ws) t
  /-- The sub-board is newly decided, and with it the game. -/
  | ended {s u t : Position} {g : Nat} {o v : Outcome} {gs : List Nat} :
      subBoardOutcome (s.board g) = some o → s.apply (.decided g o) = .ok u →
      overallOutcome u.decided = some v → u.apply (.ended v) = .ok t →
      Scans s (g :: gs) [.decided g o, .ended v] t

/-- **The scan is a run of this kind**, while the game is on. -/
theorem exists_scans {gs : List Nat} (hgs : ∀ g ∈ gs, g < 9) {s : Position}
    (hw : s.winner = none) : ∃ t, Scans s gs (s.newOutcomes s.decided gs) t := by
  induction gs generalizing s with
  | nil => exact ⟨s, .done⟩
  | cons g gs ih =>
    obtain ⟨hg, hrest⟩ := List.forall_mem_cons.mp hgs
    by_cases hquiet : s.decided.get g = none → subBoardOutcome (s.board g) = none
    · obtain ⟨t, ht⟩ := ih hrest hw
      exact ⟨t, by rw [newOutcomes_skip hquiet]; exact .quiet hquiet ht⟩
    · obtain ⟨hd, ho⟩ := Classical.not_imp.mp hquiet
      obtain ⟨o, ho⟩ := Option.ne_none_iff_exists'.mp ho
      have happly : s.apply (.decided g o) = .ok { s with decided := s.decided.put g (some o) } :=
        apply_decided.mpr ⟨hw, hg, hd, rfl⟩
      rw [newOutcomes_found gs hd ho]
      cases hv : overallOutcome (s.decided.put g (some o)) with
      | some v => exact ⟨_, .ended ho happly hv (apply_ended.mpr ⟨hw, rfl⟩)⟩
      | none =>
        obtain ⟨t, ht⟩ := ih hrest (s := { s with decided := s.decided.put g (some o) }) hw
        rw [newOutcomes_congr (t := s) (by rfl)] at ht
        exact ⟨t, .found ho happly hv ht⟩

/-- An outcome of a sub-board is recorded where there was none, and changes nothing else of
the tiles and the outcomes of sub-boards. -/
theorem frame_of_apply_decided {s t : Position} {g : Nat} {o : Outcome}
    (h : s.apply (.decided g o) = .ok t) :
    s.decided.get g = none ∧ t.decided.get g = some o ∧ (∀ g', t.board g' = s.board g') ∧
      ∀ g', g ≠ g' → t.decided.get g' = s.decided.get g' := by
  obtain ⟨-, hg, hnone, rfl⟩ := apply_decided.mp h
  refine ⟨hnone, ?_, fun _ => rfl, fun g' hne => ?_⟩
  · simp [Cells.get_put, hg]
  · simp [Cells.get_put, hne]

namespace Scans

variable {s t : Position} {gs : List Nat} {ws : List Event}

/-- What is reported can be recorded in this order. -/
theorem replay (h : Scans s gs ws t) : s.replay ws = .ok t := by
  induction h with
  | done => rfl
  | quiet _ _ ih => exact ih
  | found _ hu _ _ ih => exact replay_cons_ok.mpr ⟨_, hu, ih⟩
  | ended _ hu _ ht => exact replay_cons_ok.mpr ⟨_, hu, replay_singleton_ok.mpr ht⟩

theorem isPlacement (h : Scans s gs ws t) : ∀ e ∈ ws, e.isPlacement = false := by
  induction h with
  | done => exact nofun
  | quiet _ _ ih => exact ih
  | found _ _ _ _ ih => exact List.forall_mem_cons.mpr ⟨rfl, ih⟩
  | ended _ _ _ _ => exact List.forall_mem_cons.mpr ⟨rfl, List.forall_mem_singleton.mpr rfl⟩

/-- The sub-boards are reported in the order in which the scan goes through them. -/
theorem sublist (h : Scans s gs ws t) : (ws.filterMap Event.grid?).Sublist gs := by
  induction h with
  | done => exact .slnil
  | quiet _ _ ih => exact ih.cons _
  | found _ _ _ _ ih => exact ih.cons_cons _
  | ended _ _ _ _ => exact (List.nil_sublist _).cons_cons _

/-- A sub-board that is reported was not recorded, and has the outcome of its tiles. -/
theorem sound (h : Scans s gs ws t) {g : Nat} {o : Outcome} (hmem : .decided g o ∈ ws) :
    s.decided.get g = none ∧ subBoardOutcome (s.board g) = some o := by
  induction h with
  | done => cases hmem
  | quiet _ _ ih => exact ih hmem
  | @found s u t g' o' gs ws ho hu _ _ ih =>
    obtain ⟨hfresh, hself, hboard, hother⟩ := frame_of_apply_decided hu
    rcases List.mem_cons.mp hmem with heq | hmem
    · cases heq
      exact ⟨hfresh, ho⟩
    · obtain ⟨hnone, hsome⟩ := ih hmem
      have hne : g' ≠ g := fun heq => by
        rw [← heq, hself] at hnone
        cases hnone
      exact ⟨hother g hne ▸ hnone, hboard g ▸ hsome⟩
  | ended ho hu _ _ =>
    rcases List.mem_cons.mp hmem with heq | hmem
    · cases heq
      exact ⟨(frame_of_apply_decided hu).1, ho⟩
    · cases List.mem_singleton.mp hmem

/-- The end of the game is reported last, after a sub-board. -/
theorem last (h : Scans s gs ws t) {before after : List Event} {v : Outcome}
    (hsplit : ws = before ++ .ended v :: after) :
    after = [] ∧ ∃ init g o, before = init ++ [.decided g o] := by
  induction h generalizing before with
  | done => simp at hsplit
  | quiet _ _ ih => exact ih hsplit
  | @found s u t g o gs ws _ _ _ _ ih =>
    cases before with
    | nil => cases hsplit
    | cons e before =>
      obtain ⟨rfl, htail⟩ := List.cons.inj hsplit
      obtain ⟨hafter, init, g', o', rfl⟩ := ih htail
      exact ⟨hafter, .decided g o :: init, g', o', rfl⟩
  | @ended s u t g o v gs _ _ _ _ =>
    rcases before with _ | ⟨e, _ | ⟨e', before⟩⟩
    · cases hsplit
    · cases hsplit
      exact ⟨rfl, [], g, o, rfl⟩
    · simp at hsplit

/-- The end of the game is reported as soon as the outcomes recorded by then decide it. -/
theorem prompt (h : Scans s gs ws t) {before after : List Event} {g : Nat} {o : Outcome}
    (hsplit : ws = before ++ .decided g o :: after) :
    ∃ u, s.replay (before ++ [.decided g o]) = .ok u ∧
      ∀ v, after = [.ended v] ↔ overallOutcome u.decided = some v := by
  induction h generalizing before with
  | done => simp at hsplit
  | quiet _ _ ih => exact ih hsplit
  | @found s u t g' o' gs ws _ hu hv hrest ih =>
    cases before with
    | nil =>
      obtain ⟨hhead, rfl⟩ := List.cons.inj hsplit
      cases hhead
      refine ⟨u, replay_singleton_ok.mpr hu, fun v => ?_⟩
      rw [hv]
      refine iff_of_false (fun hended => ?_) nofun
      -- the end of the game would come first in the rest of the report
      have hfirst : ws = [] ++ [Event.ended v] := hended
      obtain ⟨-, init, g', o', hnil⟩ := hrest.last hfirst
      simp at hnil
    | cons e before =>
      obtain ⟨rfl, htail⟩ := List.cons.inj hsplit
      obtain ⟨u', hu', hiff⟩ := ih htail
      exact ⟨u', replay_cons_ok.mpr ⟨u, hu, hu'⟩, hiff⟩
  | @ended s u t g' o' v gs _ hu hv _ =>
    rcases before with _ | ⟨e, _ | ⟨e', before⟩⟩
    · cases hsplit
      refine ⟨u, replay_singleton_ok.mpr hu, fun v' => ?_⟩
      rw [hv]
      simp
    · cases hsplit
    · simp at hsplit

/-- The scan leaves the tiles alone, and every outcome that is recorded. -/
theorem kept (h : Scans s gs ws t) (g : Nat) :
    t.board g = s.board g ∧ (t.decided.get g = none → s.decided.get g = none) := by
  obtain ⟨hboards, -, hdecided⟩ := frame_of_outcomes h.isPlacement h.replay
  refine ⟨board_congr hboards g, fun hn => ?_⟩
  by_contra hs
  exact hs (hdecided g hs ▸ hn)

/-- Unless the game has ended, no sub-board is left that is decided and not recorded. -/
theorem complete (h : Scans s gs ws t) (hon : ∀ v, .ended v ∉ ws) :
    ∀ g ∈ gs, t.decided.get g = none → subBoardOutcome (t.board g) = none := by
  induction h with
  | done => exact nofun
  | @quiet s t g gs ws hquiet hrest ih =>
    refine List.forall_mem_cons.mpr ⟨fun hn => ?_, ih hon⟩
    obtain ⟨hboard, hnone⟩ := hrest.kept g
    rw [hboard]
    exact hquiet (hnone hn)
  | @found s u t g o gs ws _ hu _ hrest ih =>
    refine List.forall_mem_cons.mpr
      ⟨fun hn => ?_, ih fun v hv => hon v (List.mem_cons_of_mem _ hv)⟩
    -- the outcome that has just been recorded is still there
    have hnone := (hrest.kept g).2 hn
    rw [(frame_of_apply_decided hu).2.1] at hnone
    cases hnone
  | @ended s u t g o v gs _ _ _ _ => exact absurd (by simp) (hon v)

/-- When the scan reports the end of the game, the game has ended. -/
theorem isOver_of_mem (h : Scans s gs ws t) {v : Outcome} (hmem : .ended v ∈ ws) :
    t.isOver = true := by
  obtain ⟨before, after, hsplit⟩ := List.append_of_mem hmem
  obtain ⟨rfl, -⟩ := h.last hsplit
  have hreplay := h.replay
  rw [hsplit] at hreplay
  obtain ⟨u, -, hu⟩ := replay_append_ok.mp hreplay
  obtain ⟨-, rfl⟩ := apply_ended.mp (replay_singleton_ok.mp hu)
  rfl

end Scans

/-! ### The whole scan -/

theorem isOver_eq_false {s : Position} : s.isOver = false ↔ s.winner = none := by
  simp [isOver]

theorem findWins_of_isOver {s : Position} (h : s.isOver = true) : s.findWins = [] := by
  rw [findWins, if_pos h]

theorem exists_scans_findWins {s : Position} (h : s.isOver = false) :
    ∃ t, Scans s (List.range 9) s.findWins t := by
  rw [findWins, h]
  exact exists_scans (fun g hg => List.mem_range.mp hg) (isOver_eq_false.mp h)

/-- The scan reports outcomes, never placements. -/
theorem isPlacement_findWins {s : Position} : ∀ e ∈ s.findWins, e.isPlacement = false := by
  cases hover : s.isOver with
  | true =>
    rw [findWins_of_isOver hover]
    exact nofun
  | false =>
    obtain ⟨t, ht⟩ := exists_scans_findWins hover
    exact ht.isPlacement

/-- **What the scan reports can be recorded**, whatever the position. -/
theorem exists_replay_findWins (s : Position) : ∃ t, s.replay s.findWins = .ok t := by
  cases hover : s.isOver with
  | true => exact ⟨s, by rw [findWins_of_isOver hover]; rfl⟩
  | false =>
    obtain ⟨t, ht⟩ := exists_scans_findWins hover
    exact ⟨t, ht.replay⟩

/-- What the outcomes `ws` are, as a report of what the position shows and does not
record. -/
structure Findings (s : Position) (ws : List Event) : Prop where
  finished : s.isOver = true → ws = []
  outcomes : ∀ e ∈ ws, e.isPlacement = false
  ascending : (ws.filterMap Event.grid?).Pairwise (· < ·)
  /-- Each sub-board in it was not recorded, and has the outcome of its tiles. -/
  sound : ∀ g o, .decided g o ∈ ws →
    g < 9 ∧ s.decided.get g = none ∧ subBoardOutcome (s.board g) = some o
  /-- The end of the game comes last, directly after a sub-board. -/
  last : ∀ before v after, ws = before ++ .ended v :: after →
    after = [] ∧ ∃ init g o, before = init ++ [.decided g o]
  /-- It comes after the first sub-board with which the recorded outcomes decide the game,
  and says what they decide. -/
  prompt : ∀ before g o after, ws = before ++ .decided g o :: after →
    ∃ u, s.replay (before ++ [.decided g o]) = .ok u ∧
      ∀ v, after = [.ended v] ↔ overallOutcome u.decided = some v
  /-- All of it can be recorded. Then nothing is left to report, and unless the game is
  decided every sub-board that has an outcome is recorded. -/
  recorded : ∃ t, s.replay ws = .ok t ∧ t.findWins = [] ∧
    (s.isOver = false → (∀ v, .ended v ∉ ws) →
      ∀ g < 9, subBoardOutcome (t.board g) ≠ none → t.decided.get g ≠ none)

/-- **After a scan through all sub-boards there is nothing left to find.** -/
theorem Scans.findWins_eq_nil {s t : Position} {ws : List Event}
    (h : Scans s (List.range 9) ws t) : t.findWins = [] := by
  by_cases hended : ∃ v, .ended v ∈ ws
  · obtain ⟨v, hv⟩ := hended
    exact findWins_of_isOver (h.isOver_of_mem hv)
  · rw [findWins]
    split
    · rfl
    · exact newOutcomes_eq_nil (h.complete (not_exists.mp hended))

/-- A run of the scan through all sub-boards is a report. -/
theorem Scans.findings {s t : Position} {ws : List Event} (h : Scans s (List.range 9) ws t)
    (hover : s.isOver = false) : s.Findings ws where
  finished hs := absurd hs (by simp [hover])
  outcomes := h.isPlacement
  ascending := List.pairwise_lt_range.sublist h.sublist
  sound g o hmem :=
    have hg := h.sublist.subset (mem_filterMap_grid.mpr ⟨o, hmem⟩)
    ⟨List.mem_range.mp hg, h.sound hmem⟩
  last _ _ _ := h.last
  prompt _ _ _ _ := h.prompt
  recorded := ⟨t, h.replay, h.findWins_eq_nil, fun _ hon g hg hboard hdecided =>
    hboard (h.complete hon g (List.mem_range.mpr hg) hdecided)⟩

/-- **The scan is sound and complete**, whatever the position: it reports what the tiles
decide, up to the end of the game, and leaves nothing to report. -/
theorem findings_findWins (s : Position) : s.Findings s.findWins := by
  cases hover : s.isOver with
  | false =>
    obtain ⟨t, ht⟩ := exists_scans_findWins hover
    exact ht.findings hover
  | true =>
    have hnil := findWins_of_isOver hover
    rw [hnil]
    exact ⟨fun _ => rfl, by simp, .nil, by simp, by simp, by simp,
      s, rfl, hnil, fun hs => absurd hover (by simp [hs])⟩

-- Red has a row in each of three sub-boards, and Blue in a later one. None of it is
-- recorded, and the end of the game leaves Blue's sub-board out.
example :
    let s := [0, 1, 2].foldl (fun s t =>
      [(0, .red), (1, .red), (2, .red), (8, .blue)].foldl
        (fun s (g, m) => s.setOwner ⟨g, t⟩ (some m)) s) start
    s.findWins = [.decided 0 .red, .decided 1 .red, .decided 2 .red, .ended .red] := by decide

end Position

end UltimateTicTacToe
