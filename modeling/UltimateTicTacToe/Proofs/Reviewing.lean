/-
# Going through a record does not influence it

What is recorded depends on the record alone and not on the position on view: a new
event is checked at the end of the record, and joins its last move, wherever the
cursor is. So of a sequence of operations that add events, clear the timeline and go
through it, the ones that go through it can be left out. The others get the same
answers, the record is the same at the end, and so is the timeline once its last
position is on view (`Timeline.Reachable.review_free`).

The argument compares two timelines with the same record (`Timeline.SameRecord`). An
operation that writes gives the same answer in both and leaves them with the same
record; one that goes through the record leaves the record as it is. A played
placement is no such operation: it is refused while an earlier position is on view.

Key definitions: `Operation.writes`, `Timeline.trace`, `Timeline.SameRecord`.
Key theorems: `Timeline.SameRecord.perform`, `Timeline.SameRecord.trace`,
`Timeline.Reachable.review_free`.
-/
import UltimateTicTacToe.Proofs.Recording

namespace UltimateTicTacToe

/-- Whether the operation writes the record, whatever position is on view. -/
def Operation.writes : Operation → Bool
  | .addEvent _ => true
  | .addEvents _ => true
  | .clear => true
  | _ => false

theorem Operation.not_writes_of_browses {o : Operation} (h : o.browses = true) :
    o.writes = false := by
  cases o with
  | addEvent e => cases h
  | addEvents es => cases h
  | play p => cases h
  | clear => cases h
  | next => rfl
  | previous => rfl
  | goToBeginning => rfl
  | goToEnd => rfl
  | goTo p => rfl

namespace Timeline

/-- The operations one after the other, each with its answer. -/
def trace (t : Timeline) : List Operation → List (Operation × Except Fault Answer)
  | [] => []
  | o :: os => (o, (t.perform o).2) :: (t.perform o).1.trace os

/-- The two timelines have the same record, with whatever positions on view. -/
structure SameRecord (t u : Timeline) : Prop where
  moves : t.moves = u.moves
  final : t.final = u.final

namespace SameRecord

theorem refl (t : Timeline) : t.SameRecord t := ⟨rfl, rfl⟩

theorem trans {t u v : Timeline} (h : t.SameRecord u) (h' : u.SameRecord v) : t.SameRecord v :=
  ⟨h.moves.trans h'.moves, h.final.trans h'.final⟩

/-- An event is refused by both timelines for the same reason, or recorded by both. -/
theorem addEvent {t u : Timeline} (h : t.SameRecord u) (e : Event) :
    (∃ f, t.addEvent e = .error f ∧ u.addEvent e = .error f) ∨
      ∃ t' u', t.addEvent e = .ok t' ∧ u.addEvent e = .ok u' ∧ t'.SameRecord u' := by
  cases ht : t.addEvent e with
  | error f =>
    have hu : u.addEvent e = .error f := by
      rw [addEvent_error, h.moves, h.final] at ht
      exact addEvent_error.mpr ht
    exact Or.inl ⟨f, rfl, hu⟩
  | ok t' =>
    obtain ⟨moves, final, hm, hf, ht'⟩ := addEvent_ok.mp ht
    have hkept {v w : Timeline}
        (hw : w = if v.atEnd = true then ⟨moves, moves.length, final, final⟩
          else { v with moves, final }) : w.moves = moves ∧ w.final = final := by
      rw [hw]
      split
      · exact ⟨rfl, rfl⟩
      · exact ⟨rfl, rfl⟩
    rw [h.moves] at hm
    rw [h.final] at hf
    have hu := addEvent_ok.mpr ⟨moves, final, hm, hf, rfl⟩
    obtain ⟨hm₁, hf₁⟩ := hkept ht'
    obtain ⟨hm₂, hf₂⟩ := hkept (v := u) rfl
    exact Or.inr ⟨t', _, rfl, hu, hm₁.trans hm₂.symm, hf₁.trans hf₂.symm⟩

theorem addEvents (es : List Event) {t u : Timeline} (h : t.SameRecord u) :
    (t.addEvents es).2 = (u.addEvents es).2 ∧
      (t.addEvents es).1.SameRecord (u.addEvents es).1 := by
  induction es generalizing t u with
  | nil => exact ⟨rfl, h⟩
  | cons e es ih =>
    rw [Timeline.addEvents, Timeline.addEvents]
    rcases h.addEvent e with ⟨f, ht, hu⟩ | ⟨t', u', ht, hu, h'⟩
    · rw [ht, hu]
      exact ⟨rfl, h⟩
    · rw [ht, hu]
      exact ih h'

/-- **A write is answered from the record alone**, and leaves the same record. -/
theorem perform {t u : Timeline} (h : t.SameRecord u) {o : Operation} (ho : o.writes = true) :
    (t.perform o).2 = (u.perform o).2 ∧ (t.perform o).1.SameRecord (u.perform o).1 := by
  cases o with
  | addEvent e =>
    rw [Timeline.perform, Timeline.perform]
    rcases h.addEvent e with ⟨f, ht, hu⟩ | ⟨t', u', ht, hu, h'⟩
    · rw [ht, hu]
      exact ⟨rfl, h⟩
    · rw [ht, hu]
      exact ⟨rfl, h'⟩
  | addEvents es =>
    obtain ⟨hanswer, hrecord⟩ := h.addEvents es
    exact ⟨congrArg (Except.map fun _ => Answer.done) hanswer, hrecord⟩
  | clear => exact ⟨rfl, refl _⟩
  | play p => cases ho
  | next => cases ho
  | previous => cases ho
  | goToBeginning => cases ho
  | goToEnd => cases ho
  | goTo p => cases ho

/-- With the last position on view nothing but the record is left of a timeline. -/
theorem goToEnd_eq {t u : Timeline} (h : t.SameRecord u) (ht : t.Coherent) (hu : u.Coherent) :
    t.goToEnd = u.goToEnd := by
  have hend {v : Timeline} (hv : v.Coherent) :
      v.goToEnd = (⟨v.moves, v.moves.length, v.final, v.final⟩, .ok ()) := by
    rw [hv.goToEnd_eq, openAt, hv.viewAt_length]
  rw [hend ht, hend hu, h.moves, h.final]

end SameRecord

/-- Going through the record leaves the record as it is. -/
theorem Coherent.sameRecord_of_browses {t : Timeline} (h : t.Coherent) {o : Operation}
    (ho : o.browses = true) : (t.perform o).1.SameRecord t := by
  obtain ⟨k, -, hk⟩ := h.perform_of_browses ho
  rw [hk]
  exact ⟨rfl, rfl⟩

/-- Two timelines with the same record, one of them gone through between the writes:
the writes get the same answers and leave the same record. -/
theorem SameRecord.trace {ops : List Operation}
    (hops : ∀ o ∈ ops, o.writes = true ∨ o.browses = true) {t u : Timeline} (h : t.SameRecord u)
    (ht : t.Coherent) :
    (t.trace ops).filter (fun a => a.1.writes) = u.trace (ops.filter Operation.writes) ∧
      (t.run ops).SameRecord (u.run (ops.filter Operation.writes)) := by
  induction ops generalizing t u with
  | nil => exact ⟨rfl, h⟩
  | cons o ops ih =>
    have hrest : ∀ o' ∈ ops, o'.writes = true ∨ o'.browses = true := fun o' ho' =>
      hops o' (List.mem_cons_of_mem _ ho')
    rw [Timeline.trace, run]
    rcases hops o List.mem_cons_self with ho | ho
    · obtain ⟨hanswer, hrecord⟩ := h.perform ho
      obtain ⟨htrace, hrun⟩ := ih hrest hrecord (ht.perform o)
      rw [List.filter_cons_of_pos ho, List.filter_cons_of_pos (by exact ho), htrace, hanswer]
      exact ⟨rfl, hrun⟩
    · have hno := Operation.not_writes_of_browses ho
      have hrecord := (ht.sameRecord_of_browses ho).trans h
      rw [List.filter_cons_of_neg (by simp [hno]), List.filter_cons_of_neg (by simp [hno])]
      exact ih hrest hrecord (ht.perform o)

/-- **Reviewing does not influence recording.** Operations that write get the same
answers when all that goes through the record between them is left out; the record is
the same then, and so is the timeline with its last position on view. -/
theorem Reachable.review_free {t : Timeline} (h : t.Reachable) {ops : List Operation}
    (hops : ∀ o ∈ ops, o.writes = true ∨ o.browses = true) :
    let writes := ops.filter Operation.writes
    (t.trace ops).filter (fun a => a.1.writes) = t.trace writes ∧
      (t.run ops).moves = (t.run writes).moves ∧
      (t.run ops).events = (t.run writes).events ∧
      (t.run ops).goToEnd = (t.run writes).goToEnd := by
  intro writes
  obtain ⟨htrace, hrecord⟩ := (SameRecord.refl t).trace hops h.coherent
  have hevents : (t.run ops).events = (t.run writes).events :=
    congrArg (List.flatMap Move.events) hrecord.moves
  exact ⟨htrace, hrecord.moves, hevents,
    hrecord.goToEnd_eq (h.coherent.run ops) (h.coherent.run writes)⟩

/-- Two moves with the empty board on view in between; the outcome of the first
sub-board joins the second move, a tile that is free on view is taken in the record,
and two steps lead nowhere. -/
def reviewedRecord : List Operation :=
  [.addEvent (.decided 4 .red), .addEvents [.placed ⟨4, 0⟩, .placed ⟨0, 4⟩], .goTo (-1), .previous,
    .addEvent (.decided 4 .red), .goTo 7, .addEvent (.placed ⟨0, 4⟩), .next]

theorem reviewedRecord_review_free :
    (∀ o ∈ reviewedRecord, o.writes = true ∨ o.browses = true) ∧
    (empty.trace reviewedRecord).filter (fun a => a.1.writes) =
      empty.trace (reviewedRecord.filter Operation.writes) ∧
    (empty.run reviewedRecord).moves =
      (empty.run (reviewedRecord.filter Operation.writes)).moves ∧
    (empty.run reviewedRecord).events =
      (empty.run (reviewedRecord.filter Operation.writes)).events ∧
    (empty.run reviewedRecord).goToEnd =
      (empty.run (reviewedRecord.filter Operation.writes)).goToEnd :=
  ⟨by decide, Reachable.empty.review_free (by decide)⟩

end Timeline

end UltimateTicTacToe
