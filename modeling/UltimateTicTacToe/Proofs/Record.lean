/-
# One more event in the record

`Timeline.addEvent` has two halves that do not look at each other: `Move.record`
finds the move that the event belongs to, and the position after all the moves
says whether the event is accepted. Here are the laws of either half, and from
them when the whole succeeds and with what fault it fails, for one event
(`Timeline.addEvent_ok`, `Timeline.addEvent_error`) and for a list of them
(`Timeline.addEvents_snd`): once a move is open, a timeline accepts what a replay
accepts.

Key theorems: `Move.record_cases`, `Move.events_record`, `Move.take_record`,
`Timeline.addEvent_ok`, `Timeline.addEvent_error`, `Timeline.addEvents_snd`.
-/
import Mathlib.Data.List.Basic
import UltimateTicTacToe.Proofs.Replay

namespace UltimateTicTacToe

/-- The record may begin like this: with a placement, or not at all. -/
def Opens (es : List Event) : Prop := ∀ e ∈ es.head?, e.isPlacement = true

theorem Event.exists_of_isPlacement {e : Event} (h : e.isPlacement = true) :
    ∃ p, e = .placed p := by
  cases e with
  | placed p => exact ⟨p, rfl⟩
  | decided g o => cases h
  | ended o => cases h

/-- An item of a list that has just grown is the new one, or it stood in the list
before. -/
theorem snoc_eq_append_cons {α : Type} {l before after : List α} {x y : α} :
    l ++ [x] = before ++ y :: after ↔
      (l = before ∧ x = y ∧ after = []) ∨
        ∃ init, after = init ++ [x] ∧ l = before ++ y :: init := by
  constructor
  · intro h
    rcases List.eq_nil_or_concat' after with rfl | ⟨init, z, rfl⟩
    · obtain ⟨hl, hx⟩ := List.append_inj' h rfl
      exact Or.inl ⟨hl, List.singleton_inj.mp hx, rfl⟩
    · rw [← List.cons_append, ← List.append_assoc] at h
      obtain ⟨hl, hx⟩ := List.append_inj' h rfl
      exact Or.inr ⟨init, by rw [List.singleton_inj.mp hx], hl⟩
  · rintro (⟨rfl, rfl, rfl⟩ | ⟨init, rfl, rfl⟩)
    · rfl
    · rw [List.append_assoc, List.cons_append]

/-! ### Moves -/

namespace Move

/-- Behind the placement of the move there are outcomes only. -/
def Proper (m : Move) : Prop := ∀ e ∈ m.outcomes, e.isPlacement = false

theorem record_placed (p : Placement) : ∀ ms : List Move,
    record ms (.placed p) = some (ms ++ [⟨p, []⟩])
  | [] => rfl
  | [_] => rfl
  | m :: m' :: ms => by
    simp [record, record_placed p (m' :: ms)]

theorem record_outcome {e : Event} (he : e.isPlacement = false) (m : Move) : ∀ ms : List Move,
    record (ms ++ [m]) e = some (ms ++ [{ m with outcomes := m.outcomes ++ [e] }])
  | [] => by
    cases e with
    | placed p => cases he
    | decided g o => rfl
    | ended o => rfl
  | [m'] => by
    have := record_outcome he m []
    rw [List.nil_append] at this
    simp [record, this]
  | m' :: m'' :: ms => by
    have := record_outcome he m (m'' :: ms)
    rw [List.cons_append] at this
    simp [record, this]

theorem record_eq_none {ms : List Move} {e : Event} :
    record ms e = none ↔ ms = [] ∧ e.isPlacement = false := by
  by_cases he : e.isPlacement = true
  · obtain ⟨p, rfl⟩ := Event.exists_of_isPlacement he
    simp [record_placed, he]
  · have he : e.isPlacement = false := by simpa using he
    rcases List.eq_nil_or_concat' ms with rfl | ⟨init, m, rfl⟩
    · cases e with
      | placed p => cases he
      | decided g o => simp [record, he]
      | ended o => simp [record, he]
    · simp [record_outcome he]

/-- A placement opens a move at the end, an outcome joins the last move. -/
theorem record_cases {ms ms' : List Move} {e : Event} (h : record ms e = some ms') :
    (∃ p, e = .placed p ∧ ms' = ms ++ [⟨p, []⟩]) ∨
      (∃ init m, e.isPlacement = false ∧ ms = init ++ [m] ∧
        ms' = init ++ [{ m with outcomes := m.outcomes ++ [e] }]) := by
  by_cases he : e.isPlacement = true
  · obtain ⟨p, rfl⟩ := Event.exists_of_isPlacement he
    rw [record_placed, Option.some.injEq] at h
    exact Or.inl ⟨p, rfl, h.symm⟩
  · have he : e.isPlacement = false := by simpa using he
    rcases List.eq_nil_or_concat' ms with rfl | ⟨init, m, rfl⟩
    · rw [record_eq_none.mpr ⟨rfl, he⟩] at h
      cases h
    · rw [record_outcome he, Option.some.injEq] at h
      exact Or.inr ⟨init, m, he, rfl, h.symm⟩

/-- The record reads as before, with the new event at its end. -/
theorem events_record {ms ms' : List Move} {e : Event} (h : record ms e = some ms') :
    ms'.flatMap events = ms.flatMap events ++ [e] := by
  rcases record_cases h with ⟨p, rfl, rfl⟩ | ⟨init, m, -, rfl, rfl⟩
  · simp [events]
  · simp [events]

/-- Moves that are made by recording events are proper. -/
theorem proper_record {ms ms' : List Move} {e : Event} (hms : ∀ m ∈ ms, m.Proper)
    (h : record ms e = some ms') : ∀ m ∈ ms', m.Proper := by
  rcases record_cases h with ⟨p, rfl, rfl⟩ | ⟨init, m, he, rfl, rfl⟩
  · exact List.forall_mem_append.mpr ⟨hms, List.forall_mem_singleton.mpr fun _ h => nomatch h⟩
  · obtain ⟨hinit, hm⟩ := List.forall_mem_append.mp hms
    have hm : m.Proper := List.forall_mem_singleton.mp hm
    refine List.forall_mem_append.mpr ⟨hinit, List.forall_mem_singleton.mpr ?_⟩
    exact List.forall_mem_append.mpr ⟨hm, List.forall_mem_singleton.mpr he⟩

theorem length_le_record {ms ms' : List Move} {e : Event} (h : record ms e = some ms') :
    ms.length ≤ ms'.length := by
  rcases record_cases h with ⟨p, rfl, rfl⟩ | ⟨init, m, -, rfl, rfl⟩
  · simp
  · simp

/-- Only the last move can grow. -/
theorem take_record {ms ms' : List Move} {e : Event} (h : record ms e = some ms') {k : Nat}
    (hk : k < ms.length) : ms'.take k = ms.take k := by
  rcases record_cases h with ⟨p, rfl, rfl⟩ | ⟨init, m, -, rfl, rfl⟩
  · rw [List.take_append_of_le_length (Nat.le_of_lt hk)]
  · have hk' : k ≤ init.length := by
      rw [List.length_append, List.length_singleton] at hk
      omega
    rw [List.take_append_of_le_length hk', List.take_append_of_le_length hk']

end Move

/-! ### Timelines -/

namespace Timeline

theorem addEvent_ok {t u : Timeline} {e : Event} :
    t.addEvent e = .ok u ↔ ∃ moves final, Move.record t.moves e = some moves ∧
      t.final.apply e = .ok final ∧
      u = if t.atEnd = true then ⟨moves, moves.length, final, final⟩
        else { t with moves, final } := by
  unfold addEvent
  cases hm : Move.record t.moves e with
  | none => simp
  | some moves =>
    cases ha : t.final.apply e with
    | error f => simp
    | ok final =>
      by_cases hend : t.atEnd = true
      · simp [hend, eq_comm]
      · simp [hend, eq_comm]

/-- An event is refused if it has no move to join, and otherwise for what is wrong
with it after all the moves. -/
theorem addEvent_error {t : Timeline} {e : Event} {f : Fault} :
    t.addEvent e = .error f ↔
      (t.moves = [] ∧ e.isPlacement = false ∧ f = .orphanOutcome) ∨
        ((t.moves ≠ [] ∨ e.isPlacement = true) ∧ t.final.apply e = .error f) := by
  unfold addEvent
  cases hm : Move.record t.moves e with
  | none =>
    obtain ⟨h1, h2⟩ := Move.record_eq_none.mp hm
    simp [h1, h2, eq_comm]
  | some moves =>
    have hopen : ¬ (t.moves = [] ∧ e.isPlacement = false) := by
      rw [← Move.record_eq_none, hm]
      simp
    have hopen' : t.moves ≠ [] ∨ e.isPlacement = true := by
      by_cases hnil : t.moves = []
      · exact Or.inr (by simpa [hnil] using hopen)
      · exact Or.inl hnil
    have hno : ¬ (t.moves = [] ∧ e.isPlacement = false ∧ f = .orphanOutcome) :=
      fun h => hopen ⟨h.1, h.2.1⟩
    simp only [hno, hopen', true_and, false_or]
    cases ha : t.final.apply e with
    | error f' => simp
    | ok final =>
      by_cases hend : t.atEnd = true
      · simp [hend]
      · simp [hend]

theorem moves_ne_nil_of_addEvent {t u : Timeline} {e : Event} (h : t.addEvent e = .ok u) :
    u.moves ≠ [] := by
  obtain ⟨moves, final, hm, -, rfl⟩ := addEvent_ok.mp h
  have : moves ≠ [] := by
    rintro rfl
    have := Move.events_record hm
    simp at this
  split
  · exact this
  · exact this

/-- **A timeline accepts what a replay accepts**, and with the same fault refuses
what a replay refuses, once it has a move for the outcomes to join. -/
theorem addEvents_snd : ∀ {es : List Event} {t : Timeline}, t.moves ≠ [] ∨ Opens es →
    (t.addEvents es).2 = (t.final.replay es).map fun _ => ()
  | [], _, _ => rfl
  | e :: es, t, h => by
    have hopen : t.moves ≠ [] ∨ e.isPlacement = true := h.imp_right fun h => h e rfl
    rw [addEvents, Position.replay]
    cases ha : t.addEvent e with
    | error f =>
      rcases addEvent_error.mp ha with ⟨h1, h2, -⟩ | ⟨-, hf⟩
      · simp [h1, h2] at hopen
      · rw [hf]
        rfl
    | ok u =>
      rw [apply_final_of_addEvent ha]
      exact addEvents_snd (Or.inl (moves_ne_nil_of_addEvent ha))

end Timeline

end UltimateTicTacToe
