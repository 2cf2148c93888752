/-
# Lines, blocks and words of a text

A diagram is put together from its lines, and its lines are put together from parts.
Here is how they are taken apart again. A text in which every line has its line end can
be split in one way only (`Diagram.LinesOf.eq`), and the lines of a diagram are those that
were written (`Diagram.linesOf_textOfLines`). Parts of one length that are joined stand in
blocks of one length, so what stands at a place is found by division
(`getElem?_intercalate`). The words of a text are what stands between its blanks and line
ends, and a text that is cut at one of those has the words of either side
(`Diagram.words_append_break`).

Key definitions: `Diagram.LinesOf`, `Diagram.words`.
Key theorems: `Diagram.linesOf_textOfLines`, `Diagram.LinesOf.eq`, `getElem?_intercalate`,
`getElem?_intercalate_range`, `Diagram.words_append_break`.
-/
import UltimateTicTacToe.Game.Diagram

namespace UltimateTicTacToe

/-! ### Parts of one length -/

section Joined

variable {α : Type} {sep part : List α} {parts : List (List α)} {n : Nat}

/-- The first part, and the separator after it if another part follows. -/
theorem getElem?_intercalate_cons (hpart : part.length = n) {i : Nat}
    (hi : i < n + sep.length) : (sep.intercalate (part :: parts))[i]? =
      if i < n then part[i]? else if parts = [] then none else sep[i - n]? := by
  cases parts with
  | nil =>
    rw [List.intercalate_singleton]
    split
    · rfl
    · exact List.getElem?_eq_none (by omega)
  | cons next parts =>
    rw [List.intercalate_cons_cons, List.append_assoc]
    split
    · exact List.getElem?_append_left (by omega)
    · rw [List.getElem?_append_right (by omega), List.getElem?_append_left (by omega), hpart]
      rfl

/-- What comes after the first part and the separator is joined in the same way. -/
theorem getElem?_intercalate_tail (hpart : part.length = n) (i : Nat) :
    (sep.intercalate (part :: parts))[n + sep.length + i]? = (sep.intercalate parts)[i]? := by
  cases parts with
  | nil =>
    rw [List.intercalate_singleton, List.intercalate_nil, List.getElem?_nil]
    exact List.getElem?_eq_none (by omega)
  | cons next parts =>
    have hlength : (part ++ sep).length = n + sep.length := by rw [List.length_append, hpart]
    rw [List.intercalate_cons_cons, List.getElem?_append_right (by omega), hlength,
      Nat.add_sub_cancel_left]

/-- **Parts of one length that are joined stand in blocks of one length**, each but the
last with the separator behind it. -/
theorem getElem?_intercalate (hn : 0 < n) (h : ∀ part ∈ parts, part.length = n) (i : Nat) :
    (sep.intercalate parts)[i]? =
      if i % (n + sep.length) < n then parts[i / (n + sep.length)]?.bind (·[i % (n + sep.length)]?)
      else if i / (n + sep.length) + 1 < parts.length then sep[i % (n + sep.length) - n]?
      else none := by
  induction parts generalizing i with
  | nil => simp
  | cons part parts ih =>
    obtain ⟨hpart, hparts⟩ := List.forall_mem_cons.mp h
    rcases Nat.lt_or_ge i (n + sep.length) with hi | hi
    · rw [getElem?_intercalate_cons hpart hi, Nat.mod_eq_of_lt hi, Nat.div_eq_of_lt hi]
      cases parts with
      | nil => simp
      | cons next parts => simp
    · obtain ⟨j, rfl⟩ := Nat.exists_eq_add_of_le hi
      rw [getElem?_intercalate_tail hpart, ih hparts, Nat.add_mod_left,
        Nat.add_div_left j (by omega), List.getElem?_cons_succ, List.length_cons]
      simp only [Nat.add_lt_add_iff_right]

/-- The same for parts that are given by their numbers. -/
theorem getElem?_intercalate_range {f : Nat → List α} (hn : 0 < n) (h : ∀ q, (f q).length = n)
    (count i : Nat) : (sep.intercalate ((List.range count).map f))[i]? =
      if i % (n + sep.length) < n then
        if i / (n + sep.length) < count then (f (i / (n + sep.length)))[i % (n + sep.length)]?
        else none
      else if i / (n + sep.length) + 1 < count then sep[i % (n + sep.length) - n]?
      else none := by
  have hparts : ∀ part ∈ (List.range count).map f, part.length = n := by
    intro part hpart
    obtain ⟨q, -, rfl⟩ := List.mem_map.mp hpart
    exact h q
  rw [getElem?_intercalate hn hparts, List.length_map, List.length_range]
  by_cases hq : i / (n + sep.length) < count
  · simp [hq]
  · simp [hq]

end Joined

namespace Diagram

/-! ### Lines -/

/-- The text consists of these lines, each with its line end: split at the line ends, it
leaves nothing behind the last one. -/
def LinesOf (text : String) (lines : List (List Char)) : Prop :=
  text.toList.splitOn '\n' = lines ++ [[]]

theorem textOfLines_cons (line : List Char) (lines : List (List Char)) :
    textOfLines (line :: lines) = line ++ '\n' :: textOfLines lines := by
  rw [textOfLines, List.flatMap_cons, List.append_assoc]
  rfl

theorem splitOn_textOfLines {lines : List (List Char)} (h : ∀ line ∈ lines, '\n' ∉ line) :
    (textOfLines lines).splitOn '\n' = lines ++ [[]] := by
  induction lines with
  | nil => exact List.splitOn_nil _
  | cons line lines ih =>
    obtain ⟨hline, hlines⟩ := List.forall_mem_cons.mp h
    rw [textOfLines_cons, List.splitOn_append_cons_self_of_not_mem hline, ih hlines,
      List.cons_append]

/-- **The lines of a text are those of which it was made.** -/
theorem linesOf_textOfLines {lines : List (List Char)} (h : ∀ line ∈ lines, '\n' ∉ line) :
    LinesOf (String.ofList (textOfLines lines)) lines := by
  rw [LinesOf, String.toList_ofList, splitOn_textOfLines h]

/-- A text consists of lines in one way only. -/
theorem LinesOf.eq {text : String} {lines lines' : List (List Char)} (h : LinesOf text lines)
    (h' : LinesOf text lines') : lines = lines' :=
  List.append_cancel_right (h.symm.trans h')

/-- The lines make the text. -/
theorem LinesOf.text_eq {text text' : String} {lines : List (List Char)}
    (h : LinesOf text lines) (h' : LinesOf text' lines) : text = text' := by
  have hlist : text.toList = text'.toList := calc
    text.toList = ['\n'].intercalate (text.toList.splitOn '\n') :=
      (List.intercalate_splitOn '\n').symm
    _ = ['\n'].intercalate (text'.toList.splitOn '\n') := by rw [h, h']
    _ = text'.toList := List.intercalate_splitOn '\n'
  exact String.toList_inj.mp hlist

/-! ### Words -/

/-- Whether a word ends before this character. -/
def isBreak (c : Char) : Bool := c = ' ' || c = '\n'

/-- The words of a text. -/
def words (cs : List Char) : List (List Char) :=
  (cs.splitOnP isBreak).filter fun word => !word.isEmpty

theorem words_append_break {c : Char} (hc : isBreak c = true) (cs ds : List Char) :
    words (cs ++ c :: ds) = words cs ++ words ds := by
  rw [words, List.splitOnP_append_cons cs ds hc, List.filter_append]
  rfl

theorem words_cons_break {c : Char} (hc : isBreak c = true) (cs : List Char) :
    words (c :: cs) = words cs :=
  words_append_break hc [] cs

/-- Characters without a break are one word. -/
theorem words_of_forall {word : List Char} (hne : word ≠ [])
    (h : ∀ c ∈ word, isBreak c = false) : words word = [word] := by
  rw [words, List.splitOnP_eq_singleton h]
  simp [hne]

/-- The words of a text are those of its lines. -/
theorem words_textOfLines (lines : List (List Char)) :
    words (textOfLines lines) = lines.flatMap words := by
  induction lines with
  | nil => rfl
  | cons line lines ih =>
    rw [textOfLines_cons, words_append_break rfl, ih, List.flatMap_cons]

end Diagram
end UltimateTicTacToe
