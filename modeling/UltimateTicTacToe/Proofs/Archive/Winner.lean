/-
# The winner that a game reports and the one that its replay shows

Who has won a game is told twice: a history reports the outcome of the last event that
ends the game, looking through the events from behind, and a position knows it from the
event that it was led through. An event that ends the game says the same to both, and
any other event says nothing to either (`History.reportedWinner_ended`,
`History.reportedWinner_snoc`), so after every replay they agree
(`Position.winner_of_replay`).

That is as far as the agreement goes. In a list that cannot be replayed the game may end
more than once, and then there is no position to ask.

Key theorems: `Position.winner_of_replay`, `Timeline.Coherent.reportedWinner_events`,
`History.winner_shown`.
-/
import UltimateTicTacToe.Archive.Record
import UltimateTicTacToe.Proofs.Archive.EventList
import UltimateTicTacToe.Proofs.Match.Game
import UltimateTicTacToe.Proofs.Reopening

namespace UltimateTicTacToe

/-! ### Event by event -/

namespace History

theorem reportedWinner_ended (es : List Event) (o : Outcome) :
    reportedWinner (es ++ [.ended o]) = some o := by
  rw [reportedWinner, List.reverse_append]
  rfl

theorem reportedWinner_snoc {e : Event} (h : ∀ o, e ≠ .ended o) (es : List Event) :
    reportedWinner (es ++ [e]) = reportedWinner es := by
  rw [reportedWinner, List.reverse_append]
  cases e with
  | placed p => rfl
  | decided g o => rfl
  | ended o => exact absurd rfl (h o)

end History

namespace Position

/-- An event that does not end the game leaves the winner as it is. -/
theorem winner_of_apply {s t : Position} {e : Event} (h : ∀ o, e ≠ .ended o)
    (ha : s.apply e = .ok t) : t.winner = s.winner := by
  cases e with
  | placed p =>
    obtain ⟨-, -, -, rfl⟩ := apply_placed.mp ha
    exact winner_place s p
  | decided g o =>
    obtain ⟨-, -, -, rfl⟩ := apply_decided.mp ha
    rfl
  | ended o => exact absurd rfl (h o)

/-- **A replay shows the winner that its events report.** -/
theorem winner_of_replay {s : Position} {es : List Event} (h : start.replay es = .ok s) :
    s.winner = History.reportedWinner es := by
  refine replay_induction (motive := fun es s => s.winner = History.reportedWinner es) rfl
    (fun es e s t _ ih ha => ?_) h
  by_cases hends : ∃ o, e = .ended o
  · obtain ⟨o, rfl⟩ := hends
    obtain ⟨-, rfl⟩ := apply_ended.mp ha
    exact (History.reportedWinner_ended es o).symm
  · have hno : ∀ o, e ≠ .ended o := fun o ho => hends ⟨o, ho⟩
    rw [winner_of_apply hno ha, ih, History.reportedWinner_snoc hno]

end Position

namespace Timeline

/-- The end of a record shows the winner that its events report. -/
theorem Coherent.reportedWinner_events {t : Timeline} (h : t.Coherent) (hend : t.atEnd = true) :
    History.reportedWinner t.events = t.view.winner := by
  rw [h.view_eq_final hend, Position.winner_of_replay h.final]

theorem reportedWinner_of_ofEvents {es : List Event} {t : Timeline} (h : ofEvents es = .ok t) :
    History.reportedWinner es = t.view.winner := by
  have hgrouped := grouped_of_ofEvents h
  have hshown := (coherent_of_ofEvents h).reportedWinner_events hgrouped.atEnd
  rwa [hgrouped.events] at hshown

end Timeline

/-! ### Records of games -/

/-- The record that an array of events denotes has them as game 1. -/
theorem Record.exists_game_of_array {text : String} {items : List Json} {r : Record}
    (hitems : Json.parsePlain? text = some (.array items)) (h : parse text = .ok r) :
    ∃ es, Json.readAll Event.ofValue items = .ok es ∧
      r.games.get? 1 = some (.ofEvents es) := by
  rw [parse, hitems] at h
  have h : ofValue (.array items) = .ok r := h
  rw [ofValue] at h
  split at h
  · rename_i es hes
    cases h
    exact ⟨es, hes, rfl⟩
  · cases h

/-- A game of a record is opened by replaying its events. -/
theorem Record.timeline_ok_iff {r : Record} {id : UInt32} {game : History} {t : Timeline}
    (hgame : r.games.get? id = some game) :
    r.timeline id = .ok t ↔ Timeline.ofEvents game.events = .ok t := by
  rw [timeline, hgame]
  dsimp only
  cases Timeline.ofEvents game.events with
  | ok u => simp
  | error f => simp

/-- **The winner that a game reports is the one that its replay shows**, for every list of
events that makes a timeline. So it is for a text that is an array of events, if its game
can be opened; and the games of a match, which take the winner from the board, have the
histories that their events have. -/
theorem History.winner_shown :
    (∀ es t, Timeline.ofEvents es = .ok t → (ofEvents es).winner = t.view.winner) ∧
    (∀ text items r, Json.parsePlain? text = some (.array items) → Record.parse text = .ok r →
      ∃ game, r.games.get? 1 = some game ∧ Json.readAll Event.ofValue items = .ok game.events ∧
        ∀ t, r.timeline 1 = .ok t → game.winner = t.view.winner) ∧
    ∀ index aIsRed seed, ∃ g : PlayedGame, PlayedGame.random index aIsRed seed = .ok g ∧
      g.history = ofEvents g.events := by
  refine ⟨fun es t => Timeline.reportedWinner_of_ofEvents, fun text items r hitems h => ?_,
    fun index aIsRed seed => ?_⟩
  · obtain ⟨es, hes, hgame⟩ := Record.exists_game_of_array hitems h
    refine ⟨_, hgame, hes, fun t ht => ?_⟩
    exact Timeline.reportedWinner_of_ofEvents ((Record.timeline_ok_iff hgame).mp ht)
  · obtain ⟨t, hruled, hcompleted, hplay⟩ := PlayedGame.exists_random index aIsRed seed
    refine ⟨_, hplay, ?_⟩
    have hshown := hruled.toCoherent.reportedWinner_events hcompleted.atEnd
    rw [PlayedGame.history, ofEvents, hshown]

/-- A game that Red gives up after an outcome that no line on the board stands for. -/
def givenUp : List Event := [.placed ⟨4, 0⟩, .placed ⟨0, 4⟩, .decided 0 .stalemate, .ended .blue]

theorem givenUp_winner_shown : ∃ t, Timeline.ofEvents givenUp = .ok t ∧
    (History.ofEvents givenUp).winner = t.view.winner ∧ t.view.winner = some .blue ∧
    ∃ r game, Record.parse (Json.list Event.toJson givenUp).indented = .ok r ∧
      r.games.get? 1 = some game ∧ r.timeline 1 = .ok t ∧ game.winner = t.view.winner := by
  obtain ⟨hevents, hrecord, -⟩ := History.winner_shown
  obtain ⟨t, ht⟩ : ∃ t, Timeline.ofEvents givenUp = .ok t := ⟨_, rfl⟩
  have hwinner := hevents givenUp t ht
  refine ⟨t, ht, hwinner, hwinner.symm, ?_⟩
  have hfits : ∀ e ∈ givenUp, e.Fits := by simp [givenUp, Event.Fits, UInt64.size]
  have hitems := Event.parsePlain?_textsOf hfits _ (List.mem_cons_of_mem _ List.mem_cons_self)
  let r := Record.empty.insertGame 1 (.ofEvents givenUp)
  have hparse : Record.parse (Json.list Event.toJson givenUp).indented = .ok r := by
    decide +kernel
  have hgame : r.games.get? 1 = some (.ofEvents givenUp) := rfl
  have hopen : r.timeline 1 = .ok t := (Record.timeline_ok_iff hgame).mpr ht
  obtain ⟨game, hgame, -, hshown⟩ := hrecord _ _ r hitems hparse
  exact ⟨_, game, hparse, hgame, hopen, hshown t hopen⟩

end UltimateTicTacToe
