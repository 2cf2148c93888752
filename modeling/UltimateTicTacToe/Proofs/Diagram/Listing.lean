/-
# The list of moves and how it is read

A list of moves has two placements to a line, the last line perhaps one, and every line
begins with its number. The number is told from the numbers of the placements by the point
behind it, and everything else on a line comes in pairs, the sub-board and the tile. So
the list can be read without regard to its lines (`Diagram.readMoves?`), and reading it
gives the placements that were listed, whatever numbers they name. In particular no two
lists of placements are written alike (`Diagram.moveList_faithful`).

Key definitions: `Diagram.Lists`, `Diagram.readMoves?`.
Key theorems: `Diagram.getElem?_moveLines`, `Diagram.lists_moveLines`,
`Diagram.readMoves?_moveList`, `Diagram.moveList_faithful`.
-/
import UltimateTicTacToe.Proofs.Diagram.Lines
import UltimateTicTacToe.Proofs.Json.Numeral

namespace UltimateTicTacToe
namespace Diagram

/-! ### What a list has to look like -/

/-- The lines list the placements, two to a line: the number of the line, counted from 1,
and a point, then after a blank the label of a placement, and after two blanks the label
of the next if there is one. -/
structure Lists (ps : List Placement) (lines : List (List Char)) : Prop where
  length : lines.length = (ps.length + 1) / 2
  pair : ∀ k p q, ps[2 * k]? = some p → ps[2 * k + 1]? = some q → lines[k]? =
    some (Nat.toDigits 10 (k + 1) ++ ['.', ' '] ++ p.labelChars ++ [' ', ' '] ++ q.labelChars)
  single : ∀ k p, ps[2 * k]? = some p → ps[2 * k + 1]? = none → lines[k]? =
    some (Nat.toDigits 10 (k + 1) ++ ['.', ' '] ++ p.labelChars)

/-! ### The lines of a list -/

theorem getElem?_moveLines (n k : Nat) (ps : List Placement) : (moveLines n ps)[k]? =
    ps[2 * k]?.map fun p =>
      moveLine (n + k) (p.labelChars :: (ps[2 * k + 1]?.map Placement.labelChars).toList) := by
  fun_induction moveLines n ps generalizing k with
  | case1 n => rfl
  | case2 n p =>
    cases k with
    | zero => rfl
    | succ k => rfl
  | case3 n p q rest ih =>
    cases k with
    | zero => rfl
    | succ k =>
      rw [List.getElem?_cons_succ, ih, Nat.mul_succ, Nat.add_right_comm n 1 k]
      rfl

theorem length_moveLines (n : Nat) (ps : List Placement) :
    (moveLines n ps).length = (ps.length + 1) / 2 := by
  fun_induction moveLines n ps with
  | case1 n => rfl
  | case2 n p => simp
  | case3 n p q rest ih =>
    rw [List.length_cons, ih, List.length_cons, List.length_cons]
    omega

/-- **The lines of a list of moves list them.** -/
theorem lists_moveLines (ps : List Placement) : Lists ps (moveLines 1 ps) where
  length := length_moveLines 1 ps
  pair k p q hp hq := by
    rw [getElem?_moveLines, hp, hq, Nat.add_comm 1 k]
    simp [moveLine, List.intercalate_cons_cons, List.intercalate_singleton]
  single k p hp hnone := by
    rw [getElem?_moveLines, hp, hnone, Nat.add_comm 1 k]
    simp [moveLine, List.intercalate_singleton]

example : moveList [⟨4, 4⟩, ⟨4, 0⟩, ⟨10, 8⟩] = "1. 4 4  4 0\n2. 10 8\n" := by decide

/-! ### Characters of a line -/

theorem notMem_toDigits {c : Char} (hc : c.isDigit = false) (n : Nat) :
    c ∉ Nat.toDigits 10 n := by
  intro h
  rw [isDigit_of_mem_toDigits h] at hc
  cases hc

theorem newline_notMem_labelChars (p : Placement) : '\n' ∉ p.labelChars := by
  have hdigits := notMem_toDigits (c := '\n') (by decide)
  simp [Placement.labelChars, hdigits]

theorem newline_notMem_moveLines {n : Nat} {ps : List Placement} :
    ∀ line ∈ moveLines n ps, '\n' ∉ line := by
  intro line hline
  obtain ⟨k, hk⟩ := List.mem_iff_getElem?.mp hline
  rw [getElem?_moveLines] at hk
  obtain ⟨p, -, rfl⟩ := Option.map_eq_some_iff.mp hk
  have hdigits := notMem_toDigits (c := '\n') (by decide) (n + k)
  cases ps[2 * k + 1]? with
  | none =>
    simp [moveLine, List.intercalate_singleton, hdigits, newline_notMem_labelChars]
  | some q =>
    simp [moveLine, List.intercalate_cons_cons, List.intercalate_singleton, hdigits,
      newline_notMem_labelChars]

theorem linesOf_moveList (ps : List Placement) : LinesOf (moveList ps) (moveLines 1 ps) :=
  linesOf_textOfLines newline_notMem_moveLines

/-! ### Reading a list -/

/-- Whether a word is the number of a line: there is a point behind it. -/
def isLineNumber (word : List Char) : Bool := word.getLast? = some '.'

/-- Reads words in pairs, the sub-board and the tile of a placement. -/
def placementsOf? : List (List Char) → Option (List Placement)
  | [] => some []
  | [_] => none
  | grid :: tile :: rest =>
    match Numeral.natural? grid, Numeral.natural? tile, placementsOf? rest with
    | some grid, some tile, some ps => some (⟨grid, tile⟩ :: ps)
    | _, _, _ => none

/-- Reads a list of moves: all its words but the numbers of the lines. -/
def readMoves? (text : String) : Option (List Placement) :=
  placementsOf? ((words text.toList).filter fun word => !isLineNumber word)

/-- The words of a placement's label. -/
def labelWords (p : Placement) : List (List Char) :=
  [Nat.toDigits 10 p.grid, Nat.toDigits 10 p.tile]

theorem isBreak_of_isDigit {c : Char} (h : c.isDigit = true) : isBreak c = false := by
  have hblank : c ≠ ' ' := by
    rintro rfl
    cases h
  have hend : c ≠ '\n' := by
    rintro rfl
    cases h
  simp [isBreak, hblank, hend]

theorem words_toDigits (n : Nat) : words (Nat.toDigits 10 n) = [Nat.toDigits 10 n] :=
  words_of_forall Nat.toDigits_ne_nil fun _ hc => isBreak_of_isDigit (isDigit_of_mem_toDigits hc)

theorem words_labelChars (p : Placement) : words p.labelChars = labelWords p := by
  rw [Placement.labelChars, words_append_break rfl, words_toDigits, words_toDigits]
  rfl

theorem words_two_labels (p q : Placement) :
    words ([' ', ' '].intercalate [p.labelChars, q.labelChars]) = labelWords p ++ labelWords q := by
  have hblanks : [' ', ' '].intercalate [p.labelChars, q.labelChars] =
      p.labelChars ++ ' ' :: ' ' :: q.labelChars := by
    rw [List.intercalate_cons_cons, List.intercalate_singleton, List.append_assoc]
    rfl
  rw [hblanks, words_append_break rfl, words_cons_break rfl, words_labelChars, words_labelChars]

/-- The words of a line are its number, with the point, and those of its labels. -/
theorem words_moveLine (n : Nat) (labels : List (List Char)) : words (moveLine n labels) =
    (Nat.toDigits 10 n ++ ['.']) :: words ([' ', ' '].intercalate labels) := by
  have hline : moveLine n labels =
      (Nat.toDigits 10 n ++ ['.']) ++ ' ' :: [' ', ' '].intercalate labels := by
    rw [moveLine, List.append_assoc]
    rfl
  have hnumber : words (Nat.toDigits 10 n ++ ['.']) = [Nat.toDigits 10 n ++ ['.']] := by
    refine words_of_forall (by simp) fun c hc => ?_
    rcases List.mem_append.mp hc with hc | hc
    · exact isBreak_of_isDigit (isDigit_of_mem_toDigits hc)
    · rw [List.mem_singleton.mp hc]
      rfl
  rw [hline, words_append_break rfl, hnumber, List.singleton_append]

theorem isLineNumber_number (n : Nat) : isLineNumber (Nat.toDigits 10 n ++ ['.']) = true := by
  rw [isLineNumber, List.getLast?_concat]
  rfl

theorem isLineNumber_toDigits (n : Nat) : isLineNumber (Nat.toDigits 10 n) = false := by
  rw [isLineNumber, decide_eq_false_iff_not]
  intro hlast
  exact notMem_toDigits (by decide) n (List.mem_of_getLast? hlast)

/-- The words of a list that number no line are those of the labels. -/
theorem filter_words_moveLines (n : Nat) (ps : List Placement) :
    ((words (textOfLines (moveLines n ps))).filter fun word => !isLineNumber word) =
      ps.flatMap labelWords := by
  have hlabel : ∀ p, (labelWords p).filter (fun word => !isLineNumber word) = labelWords p := by
    intro p
    simp [labelWords, isLineNumber_toDigits]
  rw [words_textOfLines]
  fun_induction moveLines n ps with
  | case1 n => rfl
  | case2 n p =>
    rw [List.flatMap_singleton, words_moveLine, List.intercalate_singleton, words_labelChars,
      List.filter_cons_of_neg (by simp [isLineNumber_number]), hlabel, List.flatMap_singleton]
  | case3 n p q rest ih =>
    rw [List.flatMap_cons, List.filter_append, ih, words_moveLine, words_two_labels,
      List.filter_cons_of_neg (by simp [isLineNumber_number]), List.filter_append, hlabel, hlabel,
      List.append_assoc, List.flatMap_cons, List.flatMap_cons]

/-- The words of labels are read as the placements. -/
theorem placementsOf?_flatMap (ps : List Placement) :
    placementsOf? (ps.flatMap labelWords) = some ps := by
  induction ps with
  | nil => rfl
  | cons p ps ih =>
    rw [List.flatMap_cons, labelWords, List.cons_append, List.singleton_append, placementsOf?,
      Numeral.natural?_toDigits, Numeral.natural?_toDigits, ih]

/-- **A list of moves reads as the placements that were listed.** -/
theorem readMoves?_moveList (ps : List Placement) : readMoves? (moveList ps) = some ps := by
  rw [readMoves?, moveList, String.toList_ofList, filter_words_moveLines, placementsOf?_flatMap]

/-- **A list of moves is written faithfully**, however long it is and whatever numbers it names:
in numbered lines of two placements, from which the placements can be read in their order. So
different lists are written differently. -/
theorem moveList_faithful :
    (∀ ps, ∃ lines, LinesOf (moveList ps) lines ∧ Lists ps lines) ∧
      (∀ ps, readMoves? (moveList ps) = some ps) ∧
      ∀ ps qs, moveList ps = moveList qs → ps = qs := by
  refine ⟨fun ps => ⟨moveLines 1 ps, linesOf_moveList ps, lists_moveLines ps⟩,
    readMoves?_moveList, fun ps qs h => ?_⟩
  have hread := readMoves?_moveList ps
  rw [h, readMoves?_moveList, Option.some.injEq] at hread
  exact hread.symm

end Diagram
end UltimateTicTacToe
