/-
# Lines and full boards

A board is decided by a line of equal marks, or by the lack of an empty cell.
Both are said here of the marks alone, a function from places to marks, with no
order among the lines; `Cells.lineOwner` and `Cells.verdict`, which try the lines
one after another, find exactly that. A board without a line to which one mark is
added has lines of that mark only (`Cells.eq_of_lineOf_put`), which is why no
board that is played by the rules ever holds lines of both players.

Key definitions: `LineOf`, `Filled`, `EndsAs`.
Key theorems: `Cells.verdict_eq_none`, `Cells.endsAs_of_verdict`,
`Cells.verdict_eq_some`, `Cells.eq_of_lineOf_put`, `Cells.eq_or_eq_of_verdict_put`.
-/
import UltimateTicTacToe.Game.Progress

namespace UltimateTicTacToe

variable {α : Type}

/-- Some line holds `m` on all its three places. -/
def LineOf (marks : Nat → Option α) (m : α) : Prop :=
  ∃ l ∈ lines, marks l.1 = some m ∧ marks l.2.1 = some m ∧ marks l.2.2 = some m

/-- No place is empty. -/
def Filled (marks : Nat → Option α) : Prop := ∀ i < 9, marks i ≠ none

/-- The board has ended with outcome `o`: by a line of a mark that stands for
`o`, or in a stalemate, full and without a line. -/
def EndsAs (won : α → Outcome) (marks : Nat → Option α) (o : Outcome) : Prop :=
  (∃ m, LineOf marks m ∧ won m = o) ∨
    ((∀ m, ¬ LineOf marks m) ∧ Filled marks ∧ o = .stalemate)

instance [DecidableEq α] (marks : Nat → Option α) (m : α) : Decidable (LineOf marks m) :=
  inferInstanceAs (Decidable (∃ l ∈ lines, _ ∧ _ ∧ _))

instance [DecidableEq α] (marks : Nat → Option α) : Decidable (Filled marks) :=
  inferInstanceAs (Decidable (∀ i < 9, _))

namespace Cells

/-! ### Cells one by one -/

theorem get_empty (i : Nat) : (empty : Cells α).get i = none := by
  unfold get empty
  rw [Vector.getElem?_replicate]
  split
  · rfl
  · rfl

theorem ext_get {a b : Cells α} (h : ∀ i < 9, a.get i = b.get i) : a = b := by
  obtain ⟨a⟩ := a
  obtain ⟨b⟩ := b
  have : a = b := by
    ext i hi : 1
    have := h i hi
    simpa [get, hi] using this
  rw [this]

/-- Writing a cell a second time leaves nothing of the first. -/
theorem put_put (cells : Cells α) (i : Nat) (x y : Option α) :
    (cells.put i x).put i y = cells.put i y := by
  refine ext_get fun j _ => ?_
  simp only [get_put]
  split
  · rfl
  · rfl

theorem put_get (cells : Cells α) (i : Nat) : cells.put i (cells.get i) = cells := by
  refine ext_get fun j _ => ?_
  rw [get_put]
  split
  · rename_i h
    rw [h.1]
  · rfl

/-! ### Lines -/

theorem isFull_iff {cells : Cells α} : cells.isFull = true ↔ Filled cells.get := by
  simp [isFull, Filled, Option.isSome_iff_ne_none]

/-- The only lines that one more mark can make are lines of that mark: any other
stood there before. -/
theorem eq_of_lineOf_put {cells : Cells α} {i : Nat} {x m : α}
    (hno : ∀ m, ¬ LineOf cells.get m) (h : LineOf (cells.put i (some x)).get m) : m = x := by
  obtain ⟨l, hl, ha, hb, hc⟩ := h
  rw [get_put] at ha hb hc
  by_cases hin : (i = l.1 ∨ i = l.2.1 ∨ i = l.2.2) ∧ i < 9
  · obtain ⟨hi | hi | hi, h9⟩ := hin
    · simpa [← hi, h9, eq_comm] using ha
    · simpa [← hi, h9, eq_comm] using hb
    · simpa [← hi, h9, eq_comm] using hc
  · refine absurd ⟨l, hl, ?_, ?_, ?_⟩ (hno m)
    · rwa [if_neg fun h => hin ⟨Or.inl h.1, h.2⟩] at ha
    · rwa [if_neg fun h => hin ⟨Or.inr (Or.inl h.1), h.2⟩] at hb
    · rwa [if_neg fun h => hin ⟨Or.inr (Or.inr h.1), h.2⟩] at hc

/-! ### How a board ends -/

variable [DecidableEq α]

theorem ownerOf_eq_some {cells : Cells α} {l : Nat × Nat × Nat} {m : α} :
    cells.ownerOf l = some m ↔
      cells.get l.1 = some m ∧ cells.get l.2.1 = some m ∧ cells.get l.2.2 = some m := by
  obtain ⟨a, b, c⟩ := l
  simp only [ownerOf]
  split
  · rename_i h
    rw [← h.2, ← h.1]
    simp
  · rename_i h
    constructor
    · intro h'
      simp at h'
    · rintro ⟨ha, hb, hc⟩
      exact absurd ⟨ha.trans hb.symm, hb.trans hc.symm⟩ h

theorem lineOf_of_lineOwner {cells : Cells α} {m : α} (h : cells.lineOwner = some m) :
    LineOf cells.get m := by
  obtain ⟨l, hl, ho⟩ := List.exists_of_findSome?_eq_some h
  exact ⟨l, hl, ownerOf_eq_some.mp ho⟩

theorem lineOwner_eq_none {cells : Cells α} :
    cells.lineOwner = none ↔ ∀ m, ¬ LineOf cells.get m := by
  constructor
  · rintro h m ⟨l, hl, hm⟩
    have hn := List.findSome?_eq_none_iff.mp h l hl
    rw [ownerOf_eq_some.mpr hm] at hn
    cases hn
  · intro h
    cases ho : cells.lineOwner with
    | none => rfl
    | some m => exact absurd (lineOf_of_lineOwner ho) (h m)

/-- A board is undecided as long as it has no line and an empty cell. -/
theorem verdict_eq_none {won : α → Outcome} {cells : Cells α} :
    cells.verdict won = none ↔ (∀ m, ¬ LineOf cells.get m) ∧ ¬ Filled cells.get := by
  unfold verdict
  cases ho : cells.lineOwner with
  | some m =>
    simp only [reduceCtorEq, false_iff]
    exact fun h => h.1 m (lineOf_of_lineOwner ho)
  | none =>
    rw [← isFull_iff]
    simp only [lineOwner_eq_none.mp ho, not_false_eq_true, implies_true, true_and]
    by_cases hf : cells.isFull = true
    · simp [hf]
    · simp [hf]

/-- A decided board has ended with the outcome that decides it. -/
theorem endsAs_of_verdict {won : α → Outcome} {cells : Cells α} {o : Outcome}
    (h : cells.verdict won = some o) : EndsAs won cells.get o := by
  unfold verdict at h
  cases ho : cells.lineOwner with
  | some m =>
    rw [ho] at h
    exact Or.inl ⟨m, lineOf_of_lineOwner ho, Option.some.inj h⟩
  | none =>
    simp only [ho] at h
    split at h
    · rename_i hf
      exact Or.inr ⟨lineOwner_eq_none.mp ho, isFull_iff.mp hf, (Option.some.inj h).symm⟩
    · cases h

/-- A board whose lines all have the same mark ends with the outcome that the
marks show. -/
theorem verdict_eq_some {won : α → Outcome} {cells : Cells α} {o : Outcome}
    (huniq : ∀ m m', LineOf cells.get m → LineOf cells.get m' → m = m') :
    cells.verdict won = some o ↔ EndsAs won cells.get o := by
  refine ⟨endsAs_of_verdict, ?_⟩
  unfold verdict
  rintro (⟨m, hm, rfl⟩ | ⟨hno, hf, rfl⟩)
  · cases ho : cells.lineOwner with
    | some m' => rw [huniq m m' hm (lineOf_of_lineOwner ho)]
    | none => exact absurd hm (lineOwner_eq_none.mp ho m)
  · simp only [lineOwner_eq_none.mpr hno, isFull_iff.mpr hf, if_true]

/-- An undecided board that one more mark decides ends for that mark, or in a
stalemate. -/
theorem eq_or_eq_of_verdict_put {won : α → Outcome} {cells : Cells α} {i : Nat} {x : α}
    {o : Outcome} (hopen : cells.verdict won = none)
    (h : (cells.put i (some x)).verdict won = some o) : o = won x ∨ o = .stalemate := by
  rcases endsAs_of_verdict h with ⟨m, hm, rfl⟩ | ⟨-, -, rfl⟩
  · exact Or.inl (by rw [eq_of_lineOf_put (verdict_eq_none.mp hopen).1 hm])
  · exact Or.inr rfl

end Cells

end UltimateTicTacToe
