/-
# The moves of a game by the rules

The players take turns, and a move is the placement of the one whose turn it is, with the
outcomes that it has. A move is about its own sub-board only: what it decides is that
sub-board, for the mover or in a stalemate, and after that perhaps the game, for the mover
or in a stalemate again (`Decides`). No move awards anything to the other player, since
the sub-board had no line before it and neither had the game, and so all lines that there
are after it are of the new mark (`Cells.eq_or_eq_of_verdict_put`, on both levels).

What a game reports joins its record, where no sub-board is decided twice
(`Timeline.Ruled.grids_run`). So of all outcomes that are reported while a game is played
and gone through no two are of the same sub-board (`Timeline.run_decides`).

Key definitions: `Decides`, `Timeline.reported`.
Key theorems: `Timeline.Ruled.play_of_ok`, `Timeline.Ruled.owner_play`,
`Timeline.Ruled.decides`, `Timeline.run_decides`.
-/
import UltimateTicTacToe.Proofs.Reviewing
import UltimateTicTacToe.Proofs.TileRules

namespace UltimateTicTacToe

/-! ### What a move decides -/

/-- The outcomes that a move of player `m` with the placement `p` can have. -/
inductive Decides (m : Player) (p : Placement) : List Event → Prop
  | nothing : Decides m p []
  | grid {o : Outcome} : o = m.outcome ∨ o = .stalemate → Decides m p [.decided p.grid o]
  | game {o v : Outcome} : o = m.outcome ∨ o = .stalemate → v = o ∨ v = .stalemate →
      Decides m p [.decided p.grid o, .ended v]

theorem Player.ne_opponent_outcome {m : Player} {o : Outcome}
    (h : o = m.outcome ∨ o = .stalemate) : o ≠ m.opponent.outcome := by
  revert m o
  decide

namespace Decides

variable {m : Player} {p : Placement} {outs : List Event}

/-- A move decides no other sub-board, and does not decide its own for the opponent. -/
theorem of_decided_mem (h : Decides m p outs) {g : Nat} {o : Outcome}
    (hmem : .decided g o ∈ outs) : g = p.grid ∧ o ≠ m.opponent.outcome := by
  cases h with
  | nothing => cases hmem
  | grid ho =>
    cases List.mem_singleton.mp hmem
    exact ⟨rfl, Player.ne_opponent_outcome ho⟩
  | game ho _ =>
    rcases List.mem_cons.mp hmem with heq | hmem
    · cases heq
      exact ⟨rfl, Player.ne_opponent_outcome ho⟩
    · cases List.mem_singleton.mp hmem

/-- A move does not decide the game for the opponent. -/
theorem of_ended_mem (h : Decides m p outs) {v : Outcome} (hmem : .ended v ∈ outs) :
    v ≠ m.opponent.outcome := by
  cases h with
  | nothing => cases hmem
  | grid _ => cases List.mem_singleton.mp hmem
  | @game o w ho hw =>
    have heq : v = w := by simpa using hmem
    rcases hw with hw | hw
    · exact Player.ne_opponent_outcome (by rw [heq, hw]; exact ho)
    · exact Player.ne_opponent_outcome (Or.inr (heq.trans hw))

end Decides

/-- **A legal placement decides its own sub-board at most**, and then the game, both for
the mover or in a stalemate. -/
theorem Position.Settled.decides_findWins {s : Position} (h : s.Settled) {p : Placement}
    (hp : s.isPlayable p = true) : Decides s.turn p (s.place p).findWins := by
  obtain ⟨hw, hb, -, hd, -⟩ := isPlayable_iff.mp hp
  have hg := (Placement.onBoard_iff.mp hb).1
  rw [h.findWins_place hp]
  cases ho : subBoardOutcome ((s.place p).board p.grid) with
  | none => exact .nothing
  | some o =>
    have hmover : o = s.turn.outcome ∨ o = .stalemate := by
      rw [board_place_self s hg] at ho
      exact Cells.eq_or_eq_of_verdict_put ((h.decided p.grid hg).symm.trans hd) ho
    simp only
    cases hv : overallOutcome (s.decided.put p.grid (some o)) with
    | none => exact .grid hmover
    | some v => exact .game hmover (Cells.eq_or_eq_of_verdict_put (h.winner.symm.trans hw) hv)

/-! ### Moves and players -/

namespace Timeline

/-- The players take turns, Red first. -/
theorem Ruled.turn_final {t : Timeline} (h : t.Ruled) : t.final.turn = mover t.length := by
  rw [(Position.tells_of_replay h.byRules.replay).turn, h.byRules.placementsOf_events,
    List.length_map]
  rfl

/-- At the end of the record it is the turn of the player whose move comes next. -/
theorem Ruled.turn_view {t : Timeline} (h : t.Ruled) (hend : t.atEnd = true) :
    t.view.turn = mover t.length := by
  rw [h.view_eq_final hend, h.turn_final]

/-- The tile of a move belongs to the player whose turn it was. -/
theorem Ruled.owner_final {t : Timeline} (h : t.Ruled) {i : Nat} {m : Move}
    (hm : t.moves[i]? = some m) : t.final.owner m.placement = some (mover i) := by
  have hreplay := h.byRules.replay
  have hnodup := ((Position.regular_iff_replay _).mpr ⟨_, hreplay⟩).tilesOnce
  have hi : (placementsOf (t.moves.flatMap Move.events))[i]? = some m.placement := by
    rw [h.byRules.placementsOf_events, List.getElem?_map, hm]
    rfl
  rw [(Position.tells_of_replay hreplay).owner, ownerAfter, idxOf_of_getElem hnodup hi]
  rfl

/-- Playing succeeds at the end of the record with a legal placement. -/
theorem Coherent.exists_play_ok_iff {t : Timeline} (h : t.Coherent) {p : Placement} :
    (∃ outs, (t.play p).2 = .ok outs) ↔ t.atEnd = true ∧ t.view.isPlayable p = true := by
  constructor
  · rintro ⟨outs, houts⟩
    have hnot (f : Fault) : (t.play p).2 ≠ .error f := by rw [houts]; exact nofun
    by_cases hend : t.atEnd = true
    · refine ⟨hend, ?_⟩
      by_contra hp
      exact hnot _ (h.play_error_iff.mpr (Or.inr ⟨hend, by simpa using hp, rfl⟩))
    · exact absurd (h.play_error_iff.mpr (Or.inl ⟨by simpa using hend, rfl⟩)) (hnot .reviewing)
  · rintro ⟨hend, hp⟩
    obtain ⟨s, -, hplay⟩ := h.exists_play_eq hend hp
    exact ⟨_, congrArg Prod.snd hplay⟩

/-- Nothing is played in a game that is decided. -/
theorem Ruled.winner_of_play_ok {t : Timeline} (h : t.Ruled) {p : Placement} {outs : List Event}
    (hok : (t.play p).2 = .ok outs) : t.final.winner = none := by
  obtain ⟨hend, hp⟩ := h.toCoherent.exists_play_ok_iff.mp ⟨outs, hok⟩
  rw [← h.view_eq_final hend]
  exact (Position.isPlayable_iff.mp hp).1

/-- A placement that is played is the next move, and the outcomes it has are the
other events that it adds. -/
theorem Ruled.play_of_ok {t u : Timeline} (h : t.Ruled) {p : Placement} {outs : List Event}
    (hplay : t.play p = (u, .ok outs)) :
    u.Ruled ∧ u.atEnd = true ∧ u.moves = t.moves ++ [⟨p, outs⟩] ∧
      u.events = t.events ++ .placed p :: outs ∧ placementsOf outs = [] := by
  have hruled := h.play p
  obtain ⟨s, -, houts, hmoves, hevents, -, hend⟩ := h.toCoherent.play_ok (congrArg Prod.snd hplay)
  rw [hplay] at hruled hmoves hevents hend
  exact ⟨hruled, hend, hmoves, hevents,
    placementsOf_eq_nil (houts ▸ Position.isPlacement_findWins)⟩

/-- A placement that is played is one more move. -/
theorem Ruled.length_play {t u : Timeline} (h : t.Ruled) {p : Placement} {outs : List Event}
    (hplay : t.play p = (u, .ok outs)) : u.length = t.length + 1 := by
  obtain ⟨-, -, hmoves, -, -⟩ := h.play_of_ok hplay
  rw [length, hmoves, List.length_append]
  rfl

/-- A placement that is played takes its tile for the player whose turn it is. -/
theorem Ruled.owner_play {t u : Timeline} (h : t.Ruled) {p : Placement} {outs : List Event}
    (hplay : t.play p = (u, .ok outs)) : u.final.owner p = some t.final.turn := by
  obtain ⟨hu, -, hmoves, -, -⟩ := h.play_of_ok hplay
  have hmove : u.moves[t.moves.length]? = some ⟨p, outs⟩ := by
    rw [hmoves]
    exact List.getElem?_concat_length
  rw [hu.owner_final hmove, h.turn_final]
  rfl

/-- A placement that is played passes the turn. -/
theorem Ruled.turn_play {t u : Timeline} (h : t.Ruled) {p : Placement} {outs : List Event}
    (hplay : t.play p = (u, .ok outs)) : u.final.turn = t.final.turn.opponent := by
  obtain ⟨hu, -⟩ := h.play_of_ok hplay
  rw [hu.turn_final, h.turn_final, h.length_play hplay, mover_succ]

/-- **A move decides nothing but its own sub-board and the game**, and nothing for the
opponent. -/
theorem Ruled.decides {t : Timeline} (h : t.Ruled) {p : Placement} {outs : List Event}
    (hok : (t.play p).2 = .ok outs) : Decides t.view.turn p outs := by
  obtain ⟨-, hp⟩ := h.toCoherent.exists_play_ok_iff.mp ⟨outs, hok⟩
  obtain ⟨s, happly, rfl, -⟩ := h.toCoherent.play_ok hok
  rw [Position.apply_of_isPlayable hp, Except.ok.injEq] at happly
  exact happly ▸ h.settled_view.decides_findWins hp

/-! ### All that a game reports -/

/-- The outcomes in an answer. -/
def reportedBy : Except Fault Answer → List Event
  | .ok (.decided outs) => outs
  | _ => []

/-- The outcomes that the operations report, one after the other. -/
def reported (t : Timeline) (ops : List Operation) : List Event :=
  (t.trace ops).flatMap fun a => reportedBy a.2

theorem reportedBy_of_browses (t : Timeline) {o : Operation} (ho : o.browses = true) :
    reportedBy (t.perform o).2 = [] := by
  have hstep (x : Except Fault (Option Timeline)) : reportedBy (t.settleStep x).2 = [] := by
    rcases x with f | _ | u
    · rfl
    · rfl
    · rfl
  have hdone (x : Except Fault Unit) : reportedBy (x.map fun _ => .done) = [] := by
    cases x with
    | error f => rfl
    | ok a => rfl
  cases o with
  | addEvent e => cases ho
  | addEvents es => cases ho
  | play p => cases ho
  | clear => cases ho
  | next => exact hstep _
  | previous => exact hstep _
  | goToBeginning => rfl
  | goToEnd => exact hdone _
  | goTo p => exact hdone _

/-- What an operation reports joins the record, as long as the game goes on. -/
theorem Ruled.grids_perform {t : Timeline} (h : t.Ruled) {o : Operation}
    (ho : o.keepsToRules = true) (hclear : o ≠ .clear) :
    (t.perform o).1.events.filterMap Event.grid? =
      t.events.filterMap Event.grid? ++ (reportedBy (t.perform o).2).filterMap Event.grid? := by
  rcases Operation.keepsToRules_cases ho with ⟨p, rfl⟩ | rfl | hb
  · rw [Timeline.perform]
    rcases hplay : t.play p with ⟨u, f | outs⟩
    · have hsame := h.toCoherent.play_unchanged (congrArg Prod.snd hplay)
      rw [hplay] at hsame
      rw [hsame]
      exact (List.append_nil _).symm
    · obtain ⟨-, -, -, hevents, -⟩ := h.play_of_ok hplay
      simp only [hevents, List.filterMap_append]
      rfl
  · exact absurd rfl hclear
  · have hmoves := (h.toCoherent.sameRecord_of_browses hb).moves
    rw [events, hmoves, t.reportedBy_of_browses hb]
    exact (List.append_nil _).symm

/-- **All that is reported during a game is in its record**, in the same order. -/
theorem Ruled.grids_run {t : Timeline} (h : t.Ruled) {ops : List Operation}
    (hops : ∀ o ∈ ops, o.keepsToRules = true ∧ o ≠ .clear) :
    (t.run ops).events.filterMap Event.grid? =
      t.events.filterMap Event.grid? ++ (t.reported ops).filterMap Event.grid? := by
  induction ops generalizing t with
  | nil => exact (List.append_nil _).symm
  | cons o ops ih =>
    obtain ⟨⟨ho, hclear⟩, hrest⟩ := List.forall_mem_cons.mp hops
    have hreported : t.reported (o :: ops) =
        reportedBy (t.perform o).2 ++ (t.perform o).1.reported ops := by
      rw [reported, trace, List.flatMap_cons]
      rfl
    rw [Timeline.run, ih (h.perform ho) hrest, h.grids_perform ho hclear, hreported,
      List.filterMap_append, List.append_assoc]

/-- In a game no sub-board is reported twice. -/
theorem Ruled.nodup_reported {t : Timeline} (h : t.Ruled) {ops : List Operation}
    (hops : ∀ o ∈ ops, o.keepsToRules = true ∧ o ≠ .clear) :
    ((t.reported ops).filterMap Event.grid?).Nodup := by
  have hruled : (t.run ops).Ruled := h.run fun o ho => (hops o ho).1
  have hregular : Regular (t.run ops).events :=
    (Position.regular_iff_replay _).mpr ⟨_, hruled.final⟩
  have hnodup := hregular.gridsOnce
  rw [h.grids_run hops] at hnodup
  exact (List.nodup_append.mp hnodup).2.1

/-- **What a single move decides**, in a timeline that was only played on, cleared and
gone through: its own sub-board for the mover or in a stalemate, and with it perhaps the
game, in the same way or in a stalemate; never anything else, and nothing for the opponent.
And as long as the game is not cleared, no sub-board is reported twice. -/
theorem run_decides (ops : List Operation) (h : ∀ o ∈ ops, o.keepsToRules = true) :
    let t := empty.run ops
    (∀ p outs, (t.play p).2 = .ok outs →
      (t.play p).1.view.owner p = some t.view.turn ∧ Decides t.view.turn p outs ∧
      (∀ g o, .decided g o ∈ outs → g = p.grid ∧ o ≠ t.view.turn.opponent.outcome) ∧
      ∀ v, .ended v ∈ outs → v ≠ t.view.turn.opponent.outcome) ∧
    ∀ game : List Operation, (∀ o ∈ game, o.keepsToRules = true ∧ o ≠ .clear) →
      ((t.reported game).filterMap Event.grid?).Nodup := by
  intro t
  have ht : t.Ruled := ruled_run h
  refine ⟨fun p outs hok => ?_, fun game hgame => ht.nodup_reported hgame⟩
  have hdecides := ht.decides hok
  refine ⟨?_, hdecides, fun g o => hdecides.of_decided_mem, fun v => hdecides.of_ended_mem⟩
  obtain ⟨hend, -⟩ := ht.toCoherent.exists_play_ok_iff.mp ⟨outs, hok⟩
  obtain ⟨hruled, hend', -⟩ := ht.play_of_ok (Prod.ext rfl hok)
  rw [hruled.view_eq_final hend', ht.view_eq_final hend]
  exact ht.owner_play (Prod.ext rfl hok)

/-- A game is given up after one move. In the next one Red is about to complete a diagonal
in the middle sub-board. -/
def secondGame : List Operation :=
  [.play ⟨0, 0⟩, .previous, .clear, .play ⟨4, 0⟩, .play ⟨0, 4⟩, .play ⟨4, 8⟩, .play ⟨8, 4⟩]

theorem secondGame_decides :
    (∀ o ∈ secondGame, o.keepsToRules = true) ∧
    ((empty.run secondGame).play ⟨4, 4⟩).2 = .ok [.decided 4 .red] ∧
    Decides (empty.run secondGame).view.turn ⟨4, 4⟩ [.decided 4 .red] ∧
    (((empty.run secondGame).reported [.play ⟨4, 4⟩, .previous, .next, .play ⟨2, 5⟩]).filterMap
      Event.grid?).Nodup := by
  have h := run_decides secondGame (by decide)
  exact ⟨by decide, rfl, (h.1 ⟨4, 4⟩ _ rfl).2.1, h.2 _ (by decide)⟩

end Timeline

end UltimateTicTacToe
