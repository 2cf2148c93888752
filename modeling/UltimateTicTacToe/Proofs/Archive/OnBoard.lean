/-
# What is read lies on the board

A placement or an outcome of a sub-board may name any numbers, and the readers of
texts are where this is checked. Whatever text is read, and whatever else it holds,
every event of the record names places on the board (`Record.onBoard_of_parse`).
Opening a game of such a record can fail, since its events need not follow from each
other, but it cannot fail for a place off the board
(`Record.OnBoard.timeline_ne_offBoard`).

Key definitions: `History.OnBoard`, `Record.OnBoard`.
Key theorems: `Event.onBoard_of_ofJson`, `Record.onBoard_of_parse`,
`Record.OnBoard.timeline_ne_offBoard`.
-/
import UltimateTicTacToe.Archive.Record
import UltimateTicTacToe.Proofs.Json.Items
import UltimateTicTacToe.Proofs.Language

namespace UltimateTicTacToe

/-- What comes last succeeds only after what comes before it. -/
theorem exists_of_bind_eq_ok {ε α β : Type} {x : Except ε α} {f : α → Except ε β} {b : β}
    (h : x >>= f = .ok b) : ∃ a, x = .ok a ∧ f a = .ok b := by
  cases x with
  | error e => cases h
  | ok a => exact ⟨a, rfl, h⟩

/-! ### Events -/

namespace Event

theorem onBoard_of_ofShape {s : EventShape} {e : Event} (h : ofShape s = .ok e) :
    e.onBoard = true := by
  unfold ofShape at h
  split at h
  · cases h
    rfl
  · split at h
    · rename_i hp
      cases h
      exact hp
    · cases h
  · split at h
    · rename_i hg
      cases h
      exact hg
    · cases h
  · cases h

theorem ofJson_ok {inTagged : Bool} {j : Json} {e : Event} (h : ofJson inTagged j = .ok e) :
    ∃ s, EventShape.ofJson? inTagged j = some s ∧ ofShape s = .ok e := by
  unfold ofJson at h
  split at h
  · cases h
  · rename_i s hs
    split at h
    · rename_i e' he
      cases h
      exact ⟨s, hs, he⟩
    · cases h

/-- **An event that is read lies on the board.** -/
theorem onBoard_of_ofJson {inTagged : Bool} {j : Json} {e : Event}
    (h : ofJson inTagged j = .ok e) : e.onBoard = true := by
  obtain ⟨s, -, he⟩ := ofJson_ok h
  exact onBoard_of_ofShape he

theorem onBoard_of_listOfJson {inTagged : Bool} {j : Json} {es : List Event}
    (h : listOfJson inTagged j = .ok es) : ∀ e ∈ es, e.onBoard = true := by
  intro e he
  unfold listOfJson at h
  split at h
  · obtain ⟨k, -, hk⟩ := Json.exists_mem_of_readAll h e he
    exact onBoard_of_ofJson hk
  · cases h

theorem onBoard_of_ofValue {j : Json} {e : Event} (h : ofValue j = .ok e) : e.onBoard = true := by
  unfold ofValue at h
  split at h
  · rename_i e' he
    cases h
    exact onBoard_of_ofJson he
  · cases h
  · cases h

end Event

/-! ### Payloads -/

/-- The events name places on the board only. -/
def History.OnBoard (h : History) : Prop := ∀ e ∈ h.events, e.onBoard = true

instance : DecidablePred History.OnBoard := fun h =>
  inferInstanceAs (Decidable (∀ e ∈ h.events, e.onBoard = true))

theorem History.onBoard_of_ofJson {inTagged : Bool} {j : Json} {h : History}
    (hj : ofJson inTagged j = .ok h) : h.OnBoard := by
  unfold ofJson at hj
  split at hj
  · obtain ⟨events, hes, hj⟩ := exists_of_bind_eq_ok hj
    obtain ⟨winner, -, hj⟩ := exists_of_bind_eq_ok hj
    split at hj
    · cases hj
      exact Event.onBoard_of_listOfJson hes
    · cases hj
  · cases hj

/-- The history that a payload carries, if it carries one, is on the board. -/
def Payload.OnBoard : Payload → Prop
  | .history h => h.OnBoard
  | _ => True

theorem Payload.onBoard_of_ofJson {j : Json} {p : Payload} (hj : ofJson j = .ok p) :
    p.OnBoard := by
  unfold ofJson at hj
  split at hj
  · obtain ⟨h, hh, hj⟩ := exists_of_bind_eq_ok hj
    cases hj
    exact History.onBoard_of_ofJson hh
  · obtain ⟨s, -, hj⟩ := exists_of_bind_eq_ok hj
    cases hj
    trivial
  · obtain ⟨os, -, hj⟩ := exists_of_bind_eq_ok hj
    cases hj
    trivial
  · cases hj

/-! ### Records -/

namespace Record

/-- Every event of every game names places on the board. -/
def OnBoard (r : Record) : Prop := ∀ g ∈ r.games.entries, g.2.OnBoard

instance : DecidablePred OnBoard := fun r =>
  inferInstanceAs (Decidable (∀ g ∈ r.games.entries, g.2.OnBoard))

theorem onBoard_empty : empty.OnBoard := fun _ h => nomatch h

theorem OnBoard.insertGame {r : Record} (hr : r.OnBoard) {id : UInt32} {game : History}
    (hg : game.OnBoard) : (r.insertGame id game).OnBoard := by
  intro g h
  rcases Games.mem_put h with rfl | h
  · exact hg
  · exact hr g h

theorem OnBoard.fill {r s : Record} (hr : r.OnBoard) {slot : Slot} {p : Payload}
    (hp : p.OnBoard) (h : r.fill? slot p = some s) : s.OnBoard := by
  unfold fill? at h
  split at h
  · cases h
    exact hr.insertGame hp
  · cases h
    exact hr
  · cases h
    exact hr
  · cases h

theorem OnBoard.add {r s : Record} (hr : r.OnBoard) {entry : FeedEntry}
    (h : r.add entry = .ok s) : s.OnBoard := by
  unfold Record.add at h
  split at h
  · cases h
    exact hr
  · split at h
    · cases h
    · rename_i payload hp
      split at h
      · rename_i t ht
        cases h
        exact hr.fill (Payload.onBoard_of_ofJson hp) ht
      · cases h

theorem OnBoard.addAll {entries : List FeedEntry} {r s : Record} (hr : r.OnBoard)
    (h : r.addAll entries = .ok s) : s.OnBoard := by
  induction entries generalizing r with
  | nil =>
    cases h
    exact hr
  | cons entry entries ih =>
    rw [Record.addAll] at h
    split at h
    · rename_i t ht
      exact ih (hr.add ht) h
    · cases h

theorem onBoard_of_ofValue {j : Json} {r : Record} (h : ofValue j = .ok r) : r.OnBoard := by
  unfold ofValue at h
  split at h
  · split at h
    · rename_i events hes
      cases h
      refine onBoard_empty.insertGame fun e he => ?_
      obtain ⟨k, -, hk⟩ := Json.exists_mem_of_readAll hes e he
      exact Event.onBoard_of_ofValue hk
    · cases h
  · split at h
    · exact onBoard_empty.addAll h
    · cases h

/-- **Whatever text is read, the record lies on the board.** -/
theorem onBoard_of_parse {text : String} {r : Record} (h : parse text = .ok r) : r.OnBoard := by
  unfold parse at h
  split at h
  · exact onBoard_of_ofValue h
  · cases h

end Record

/-! ### Opening a game -/

/-- A position finds fault with the place of an event only if that lies off the board. -/
theorem Position.onBoard_of_apply_offBoard {s : Position} {e : Event} {p : Placement}
    (h : s.apply e = .error (.offBoard p)) : e.onBoard = false := by
  unfold apply at h
  split at h
  · cases h
  · split at h
    · split at h
      · split at h <;> cases h
      · rename_i hp
        exact Bool.eq_false_iff.mpr hp
    · split at h
      · split at h <;> cases h
      · rename_i hg
        exact Bool.eq_false_iff.mpr hg
    · cases h

theorem Timeline.exists_offBoard_of_ofEvents {es : List Event} {p : Placement}
    (h : ofEvents es = .error (.offBoard p)) : ∃ e ∈ es, e.onBoard = false := by
  by_cases hopen : Opens es
  · rw [ofEvents_of_opens hopen] at h
    cases hr : Position.start.replay es with
    | ok s =>
      rw [hr] at h
      cases h
    | error f =>
      rw [hr] at h
      cases h
      obtain ⟨before, e, after, s, rfl, -, hf⟩ := Position.replay_error hr
      exact ⟨e, by simp, Position.onBoard_of_apply_offBoard hf⟩
  · rw [ofEvents_of_not_opens hopen] at h
    cases h

/-- **No game of a record on the board is refused for a place off the board.** -/
theorem Record.OnBoard.timeline_ne_offBoard {r : Record} (hr : r.OnBoard) (id : UInt32)
    (p : Placement) : r.timeline id ≠ .error (.game (.offBoard p)) := by
  intro h
  unfold timeline at h
  split at h
  · cases h
  · rename_i game hgame
    split at h
    · cases h
    · rename_i f hf
      cases h
      obtain ⟨before, after, hentries, -⟩ := List.lookup_eq_some_iff.mp hgame
      have hmem : (id, game) ∈ r.games.entries := by
        rw [hentries]
        simp
      obtain ⟨e, he, hoff⟩ := Timeline.exists_offBoard_of_ofEvents hf
      have hon := hr _ hmem e he
      rw [hoff] at hon
      cases hon

end UltimateTicTacToe
