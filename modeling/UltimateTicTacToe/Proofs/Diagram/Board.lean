/-
# The board as it is drawn

The board is joined on three levels: tiles make a row of a sub-board, three such rows a
line, and the lines the board. So the character at a place is found by dividing three
times (`Diagram.getElem?_boardLines`, `Diagram.getElem?_boardRow`,
`Diagram.getElem?_gridRow`). What comes of it is that every tile has a place of its own
with its owner's letter or a dot, and that the frame around the tiles is the same on every
board (`Diagram.drawn_boardLines`). Nothing else is on a board, so boards are drawn alike
if and only if all their tiles are the same (`Diagram.board_faithful`).

Key definitions: `Diagram.charAt`, `Diagram.spot`, `Diagram.frame`, `Diagram.Drawn`.
Key theorems: `Diagram.charAt_boardLines`, `Diagram.drawn_boardLines`, `Diagram.Drawn.eq`,
`Diagram.board_faithful`.
-/
import UltimateTicTacToe.Proofs.Diagram.Lines

namespace UltimateTicTacToe
namespace Diagram

/-! ### What a board has to look like -/

/-- The character in a line and a column, both counted from 0. -/
def charAt (lines : List (List Char)) (place : Nat × Nat) : Option Char :=
  lines[place.1]?.bind (·[place.2]?)

/-- The line and the column in which tile `t` of sub-board `g` stands. -/
def spot (g t : Nat) : Nat × Nat := (4 * (g / 3) + t / 3, 8 * (g % 3) + 2 * (t % 3))

/-- The character at a place where no tile stands: eleven lines of twenty-one characters,
two of them rules. -/
def frame (place : Nat × Nat) : Option Char :=
  if 11 ≤ place.1 ∨ 21 ≤ place.2 then none
  else if place.1 % 4 = 3 then some (if place.2 % 8 = 6 then '+' else '-')
  else some (if place.2 % 8 = 6 then '|' else ' ')

/-- The lines show the board of the position: its tiles where they belong, and the frame
everywhere else. -/
structure Drawn (s : Position) (lines : List (List Char)) : Prop where
  length : lines.length = 11
  tiles : ∀ g < 9, ∀ t < 9, charAt lines (spot g t) =
    match s.tile g t with
    | some .red => some 'R'
    | some .blue => some 'B'
    | none => some '.'
  rest : ∀ place, (∀ g < 9, ∀ t < 9, place ≠ spot g t) → charAt lines place = frame place

/-! ### The lines of the board -/

theorem length_gridRow (s : Position) (g row : Nat) : (gridRow s g row).length = 5 := rfl

theorem length_boardRow (s : Position) (bigRow row : Nat) : (boardRow s bigRow row).length = 21 :=
  rfl

theorem length_bandLines (s : Position) (bigRow : Nat) : (bandLines s bigRow).length = 3 := rfl

theorem length_boardLines (s : Position) : (boardLines s).length = 11 := rfl

theorem getElem?_gridRow (s : Position) (g row : Nat) {k : Nat} (hk : k < 5) :
    (gridRow s g row)[k]? =
      some (if k % 2 = 0 then tile (s.tile g (k / 2 + 3 * row)) else ' ') := by
  have hblocks : (gridRow s g row)[k]? =
      if k % 2 < 1 then
        if k / 2 < 3 then [tile (s.tile g (k / 2 + 3 * row))][k % 2]? else none
      else if k / 2 + 1 < 3 then [' '][k % 2 - 1]? else none :=
    getElem?_intercalate_range Nat.one_pos (fun _ => rfl) 3 k
  rw [hblocks]
  rcases Nat.mod_two_eq_zero_or_one k with h | h
  · rw [h, if_pos Nat.one_pos, if_pos (by omega)]
    rfl
  · rw [h, if_neg (by decide), if_pos (by omega)]
    rfl

theorem getElem?_boardRow (s : Position) (bigRow row : Nat) {j : Nat} (hj : j < 21) :
    (boardRow s bigRow row)[j]? =
      if j % 8 < 5 then (gridRow s (j / 8 + 3 * bigRow) row)[j % 8]?
      else some (if j % 8 = 6 then '|' else ' ') := by
  have hblocks : (boardRow s bigRow row)[j]? =
      if j % 8 < 5 then
        if j / 8 < 3 then (gridRow s (j / 8 + 3 * bigRow) row)[j % 8]? else none
      else if j / 8 + 1 < 3 then [' ', '|', ' '][j % 8 - 5]? else none :=
    getElem?_intercalate_range (by decide) (fun g => length_gridRow s (g + 3 * bigRow) row) 3 j
  rw [hblocks]
  split
  · rw [if_pos (by omega)]
  · rw [if_pos (by omega)]
    have hgap : j % 8 = 5 ∨ j % 8 = 6 ∨ j % 8 = 7 := by omega
    rcases hgap with h | h | h
    · rw [h]
      rfl
    · rw [h]
      rfl
    · rw [h]
      rfl

theorem getElem?_boardLines (s : Position) {i : Nat} (hi : i < 11) :
    (boardLines s)[i]? = some (if i % 4 = 3 then rule else boardRow s (i / 4) (i % 4)) := by
  have hblocks : (boardLines s)[i]? =
      if i % 4 < 3 then if i / 4 < 3 then (bandLines s (i / 4))[i % 4]? else none
      else if i / 4 + 1 < 3 then [rule][i % 4 - 3]? else none :=
    getElem?_intercalate_range (by decide) (length_bandLines s) 3 i
  rw [hblocks]
  split
  · rename_i h
    rw [if_pos (by omega), if_neg (by omega)]
    show ((List.range 3).map (boardRow s (i / 4)))[i % 4]? = _
    rw [List.getElem?_map, List.getElem?_range h]
    rfl
  · have h : i % 4 = 3 := by omega
    rw [if_pos (by omega), h]
    rfl

theorem getElem?_rule : ∀ j < 21, rule[j]? = some (if j % 8 = 6 then '+' else '-') := by decide

/-- **The character at a place of the board** is that of a tile or that of the frame. -/
theorem charAt_boardLines (s : Position) {i j : Nat} (hi : i < 11) (hj : j < 21) :
    charAt (boardLines s) (i, j) =
      if i % 4 < 3 ∧ j % 8 < 5 ∧ j % 2 = 0
        then some (tile (s.tile (j / 8 + 3 * (i / 4)) (j % 8 / 2 + 3 * (i % 4))))
        else frame (i, j) := by
  have hframe : frame (i, j) = if i % 4 = 3 then some (if j % 8 = 6 then '+' else '-')
      else some (if j % 8 = 6 then '|' else ' ') := if_neg (by omega)
  rw [hframe, charAt, getElem?_boardLines s hi, Option.bind_some]
  by_cases htile : i % 4 < 3 ∧ j % 8 < 5 ∧ j % 2 = 0
  · rw [if_pos htile, if_neg (by omega), getElem?_boardRow s _ _ hj, if_pos htile.2.1,
      getElem?_gridRow s _ _ htile.2.1, if_pos (by omega)]
  · rw [if_neg htile]
    by_cases hrule : i % 4 = 3
    · rw [if_pos hrule, if_pos hrule, getElem?_rule j hj]
    · rw [if_neg hrule, if_neg hrule, getElem?_boardRow s _ _ hj]
      by_cases hgrid : j % 8 < 5
      · rw [if_pos hgrid, getElem?_gridRow s _ _ hgrid, if_neg (by omega), if_neg (by omega)]
      · rw [if_neg hgrid]

theorem length_of_mem_boardLines {s : Position} {line : List Char} (h : line ∈ boardLines s) :
    line.length = 21 := by
  obtain ⟨i, hi, rfl⟩ := List.mem_iff_getElem.mp h
  have hline := getElem?_boardLines s hi
  rw [List.getElem?_eq_getElem hi, Option.some.injEq] at hline
  rw [hline]
  split
  · rfl
  · exact length_boardRow s _ _

theorem charAt_eq_none {s : Position} {i j : Nat} (h : 11 ≤ i ∨ 21 ≤ j) :
    charAt (boardLines s) (i, j) = none := by
  unfold charAt
  cases hline : (boardLines s)[i]? with
  | none => rfl
  | some line =>
    have hi : i < 11 := (List.getElem?_eq_some_iff.mp hline).1
    have hlength := length_of_mem_boardLines (List.mem_of_getElem? hline)
    exact List.getElem?_eq_none (by omega)

/-! ### The board is drawn as it has to be -/

theorem tile_letters (owner : Option Player) : some (tile owner) =
    match owner with
    | some .red => some 'R'
    | some .blue => some 'B'
    | none => some '.' := by
  rcases owner with _ | _ | _ <;> rfl

theorem tile_inj {owner owner' : Option Player} (h : tile owner = tile owner') :
    owner = owner' := by
  rcases owner with _ | _ | _ <;> rcases owner' with _ | _ | _ <;> first | rfl | cases h

theorem tile_ne_newline (owner : Option Player) : tile owner ≠ '\n' := by
  rcases owner with _ | _ | _ <;> decide

theorem frame_ne_newline (place : Nat × Nat) : frame place ≠ some '\n' := by
  unfold frame
  split
  · exact nofun
  · split
    · split <;> decide
    · split <;> decide

/-- **The lines of the board show the board.** -/
theorem drawn_boardLines (s : Position) : Drawn s (boardLines s) where
  length := length_boardLines s
  tiles g hg t ht := by
    -- dividing the place of a tile gives its numbers back
    have hgrid : (8 * (g % 3) + 2 * (t % 3)) / 8 + 3 * ((4 * (g / 3) + t / 3) / 4) = g := by omega
    have htile : (8 * (g % 3) + 2 * (t % 3)) % 8 / 2 + 3 * ((4 * (g / 3) + t / 3) % 4) = t := by
      omega
    rw [← tile_letters, spot, charAt_boardLines s (by omega) (by omega), if_pos (by omega), hgrid,
      htile]
  rest place h := by
    obtain ⟨i, j⟩ := place
    by_cases hout : 11 ≤ i ∨ 21 ≤ j
    · rw [charAt_eq_none hout, frame, if_pos hout]
    · rw [charAt_boardLines s (by omega) (by omega), if_neg]
      intro htile
      -- the place is that of a tile, with the numbers that division gives
      refine h (j / 8 + 3 * (i / 4)) (by omega) (j % 8 / 2 + 3 * (i % 4)) (by omega) ?_
      rw [spot, Prod.mk.injEq]
      omega

theorem newline_notMem_boardLines {s : Position} : ∀ line ∈ boardLines s, '\n' ∉ line := by
  intro line hline hmem
  obtain ⟨i, hi⟩ := List.mem_iff_getElem?.mp hline
  obtain ⟨j, hj⟩ := List.mem_iff_getElem?.mp hmem
  have hchar : charAt (boardLines s) (i, j) = some '\n' := by
    rw [charAt, hi]
    exact hj
  by_cases hout : 11 ≤ i ∨ 21 ≤ j
  · rw [charAt_eq_none hout] at hchar
    cases hchar
  · rw [charAt_boardLines s (by omega) (by omega)] at hchar
    split at hchar
    · exact tile_ne_newline _ (Option.some.inj hchar)
    · exact frame_ne_newline _ hchar

theorem linesOf_board (s : Position) : LinesOf (board s) (boardLines s) :=
  linesOf_textOfLines newline_notMem_boardLines

/-- Nothing but the tiles makes a difference. -/
theorem Drawn.eq {s s' : Position} {lines lines' : List (List Char)} (h : Drawn s lines)
    (h' : Drawn s' lines') (htiles : ∀ g < 9, ∀ t < 9, s.tile g t = s'.tile g t) :
    lines = lines' := by
  have hchar : ∀ place, charAt lines place = charAt lines' place := by
    intro place
    by_cases hspot : ∃ g < 9, ∃ t < 9, place = spot g t
    · obtain ⟨g, hg, t, ht, rfl⟩ := hspot
      rw [h.tiles g hg t ht, h'.tiles g hg t ht, htiles g hg t ht]
    · have hrest : ∀ g < 9, ∀ t < 9, place ≠ spot g t := fun g hg t ht heq =>
        hspot ⟨g, hg, t, ht, heq⟩
      rw [h.rest place hrest, h'.rest place hrest]
  refine List.ext_getElem (h.length.trans h'.length.symm) fun i hi hi' => ?_
  refine List.ext_getElem? fun j => ?_
  have hplace := hchar (i, j)
  rw [charAt, charAt, List.getElem?_eq_getElem hi, List.getElem?_eq_getElem hi'] at hplace
  exact hplace

/-- The tiles can be read off the board. -/
theorem Drawn.tile_eq {s s' : Position} {lines : List (List Char)} (h : Drawn s lines)
    (h' : Drawn s' lines) {g t : Nat} (hg : g < 9) (ht : t < 9) : s.tile g t = s'.tile g t := by
  have heq := (h.tiles g hg t ht).symm.trans (h'.tiles g hg t ht)
  rw [← tile_letters, ← tile_letters] at heq
  exact tile_inj (Option.some.inj heq)

/-- **The board is drawn faithfully**: in eleven lines that show every tile at its place, with
nothing else that could differ. So two positions have the same board if and only if all their
tiles are the same. -/
theorem board_faithful (s : Position) :
    (∃ lines, LinesOf (board s) lines ∧ Drawn s lines) ∧
      ∀ s' : Position, board s = board s' ↔ ∀ g < 9, ∀ t < 9, s.tile g t = s'.tile g t := by
  refine ⟨⟨boardLines s, linesOf_board s, drawn_boardLines s⟩, fun s' => ⟨fun h g hg t ht => ?_,
    fun h => ?_⟩⟩
  · have hlines := linesOf_board s
    rw [h] at hlines
    have hdrawn := drawn_boardLines s
    rw [hlines.eq (linesOf_board s')] at hdrawn
    exact hdrawn.tile_eq (drawn_boardLines s') hg ht
  · have hlines := linesOf_board s'
    rw [← (drawn_boardLines s).eq (drawn_boardLines s') h] at hlines
    exact (linesOf_board s).text_eq hlines

end Diagram
end UltimateTicTacToe
