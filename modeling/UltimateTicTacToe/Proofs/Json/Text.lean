/-
# A quoted text is the text

Between quotes a text is written one character at a time. A character that cannot
stand for itself becomes an escape, a short one or one by number, and these are all
the cases there are (`Text.escape_cases`). Taking the escapes apart gives the
characters back (`Text.unescape_escape`), and none of them is a surrogate, so that a
quoted text denotes the text (`Token.ofQuoted?_escape`). The scanner finds the closing
quote: it meets no bare quote before it, and no backslash that does not escape
(`Scanner.steps_quote`).

Key definitions: `Text.shortEscapes`.
Key theorems: `Text.escape_cases`, `Text.unescape_escape`, `Scanner.steps_quote`.
-/
import UltimateTicTacToe.Json.Token

namespace UltimateTicTacToe
namespace Json

/-! ### Escapes -/

namespace Text

/-- The characters that are written by a short escape, each with its letter. -/
def shortEscapes : List (Char × Char) :=
  [('"', '"'), ('\\', '\\'), ('\x08', 'b'), ('\x0c', 'f'), ('\n', 'n'), ('\r', 'r'), ('\t', 't')]

theorem escape_of_mem_shortEscapes : ∀ p ∈ shortEscapes,
    p.2 ≠ 'u' ∧ shortEscape? p.2 = some p.1 ∧ escape p.1 = ['\\', p.2] := by
  have hall : (shortEscapes.all fun p =>
      p.2 ≠ 'u' ∧ shortEscape? p.2 = some p.1 ∧ escape p.1 = ['\\', p.2]) = true := by decide
  intro p hp
  exact of_decide_eq_true (List.all_eq_true.mp hall p hp)

/-- A character is written by a short escape, by its number, or as itself. -/
theorem escape_cases (c : Char) :
    (∃ e, e ≠ 'u' ∧ shortEscape? e = some c ∧ escape c = ['\\', e]) ∨
      (c.toNat < 0x20 ∧
        escape c = ['\\', 'u', '0', '0', hexDigit (c.toNat / 16), hexDigit (c.toNat % 16)]) ∨
      (c ≠ '"' ∧ c ≠ '\\' ∧ ¬ c.toNat < 0x20 ∧ escape c = [c]) := by
  by_cases hc : ∃ e, (c, e) ∈ shortEscapes
  · obtain ⟨e, he⟩ := hc
    exact Or.inl ⟨e, escape_of_mem_shortEscapes _ he⟩
  · simp only [shortEscapes, List.mem_cons, Prod.mk.injEq, List.not_mem_nil, or_false, exists_or,
      exists_and_left, exists_eq, and_true, not_or] at hc
    obtain ⟨hquote, hback, h8, hc, hn, hr, ht⟩ := hc
    have hescape : escape c = if c.toNat < 0x20 then
        ['\\', 'u', '0', '0', hexDigit (c.toNat / 16), hexDigit (c.toNat % 16)] else [c] := by
      simp only [escape, hquote, hback, h8, hc, hn, hr, ht, if_false]
    by_cases hctl : c.toNat < 0x20
    · exact Or.inr (Or.inl ⟨hctl, by rw [hescape, if_pos hctl]⟩)
    · exact Or.inr (Or.inr ⟨hquote, hback, hctl, by rw [hescape, if_neg hctl]⟩)

theorem hexDigit?_hexDigit : ∀ n < 16, Numeral.hexDigit? (hexDigit n) = some n := by decide

/-- The four digits of a control character are those of its number. -/
theorem unit?_control {c : Char} (h : c.toNat < 0x20) :
    unit? '0' '0' (hexDigit (c.toNat / 16)) (hexDigit (c.toNat % 16)) = some c.toNat := by
  have hzero : Numeral.hexDigit? '0' = some 0 := by decide
  have hhigh := hexDigit?_hexDigit (c.toNat / 16) (by omega)
  have hlow := hexDigit?_hexDigit (c.toNat % 16) (by omega)
  simp only [unit?, hzero, hhigh, hlow]
  show some _ = some _
  congr 1
  omega

/-- **Taking an escape apart gives the character back.** -/
theorem unescape_escape (c : Char) (cs : List Char) :
    unescape (escape c ++ cs) = (unescape cs).map (.char c :: ·) := by
  rcases escape_cases c with ⟨e, hu, he, hesc⟩ | ⟨hctl, hesc⟩ | ⟨hquote, hback, hctl, hesc⟩
  · have hrow : unescape ('\\' :: e :: cs) =
        (shortEscape? e).bind fun c => (unescape cs).bind fun ps => some (.char c :: ps) :=
      unescape.eq_3 e cs fun _ _ _ _ _ h => absurd h hu
    rw [hesc, List.cons_append, List.singleton_append, hrow, he]
    cases unescape cs with
    | none => rfl
    | some ps => rfl
  · have hpiece : Piece.ofUnit c.toNat = .char c := by
      rw [Piece.ofUnit, if_neg (by omega), Char.ofNat_toNat]
    rw [hesc]
    show unescape ('\\' :: 'u' :: '0' :: '0' :: _ :: _ :: cs) = _
    rw [unescape.eq_2, unit?_control hctl]
    show ((unescape cs).bind fun ps => some (Piece.ofUnit c.toNat :: ps)) = _
    rw [hpiece]
    cases unescape cs with
    | none => rfl
    | some ps => rfl
  · rw [hesc, List.singleton_append, unescape.eq_4]
    · rw [if_neg (by simp [hquote, hback, hctl])]
    · exact fun _ _ _ _ _ h => absurd h hback
    · exact fun _ _ h => absurd h hback

theorem unescape_flatMap_escape (cs : List Char) :
    unescape (cs.flatMap escape) = some (cs.map .char) := by
  induction cs with
  | nil => rfl
  | cons c cs ih => rw [List.flatMap_cons, unescape_escape, ih, Option.map_some, List.map_cons]

theorem pair_map_char (cs : List Char) : pair (cs.map .char) = some cs := by
  induction cs with
  | nil => rfl
  | cons c cs ih => rw [List.map_cons, pair, ih, Option.map_some]

end Text

/-- **What stands between the quotes denotes the text.** -/
theorem Token.ofQuoted?_escape (s : String) :
    Token.ofQuoted? (s.toList.flatMap Text.escape) = some (.string (some s)) := by
  rw [Token.ofQuoted?, Text.unescape_flatMap_escape, Option.map_some, Text.pair_map_char,
    Option.map_some, String.ofList_toList]

/-! ### Scanning a quoted text -/

namespace Scanner

/-- An escape does not end the string. -/
theorem steps_escape (c : Char) (done : List Token) (read rest : List Char) :
    steps ⟨done, .quoted read⟩ (Text.escape c ++ rest) =
      steps ⟨done, .quoted ((Text.escape c).reverse ++ read)⟩ rest := by
  rcases Text.escape_cases c with ⟨e, -, -, hesc⟩ | ⟨hctl, hesc⟩ | ⟨hquote, hback, -, hesc⟩
  · rw [hesc]
    rfl
  · -- the digits of the escape are neither quotes nor backslashes
    have hdigit : ∀ n < 16, Text.hexDigit n ≠ '"' ∧ Text.hexDigit n ≠ '\\' := by decide
    obtain ⟨hq₁, hb₁⟩ := hdigit (c.toNat / 16) (by omega)
    obtain ⟨hq₂, hb₂⟩ := hdigit (c.toNat % 16) (by omega)
    rw [hesc]
    simp [steps, step, hq₁, hb₁, hq₂, hb₂]
  · rw [hesc]
    simp [steps, step, hquote, hback]

theorem steps_escapes (cs : List Char) (done : List Token) (read rest : List Char) :
    steps ⟨done, .quoted read⟩ (cs.flatMap Text.escape ++ rest) =
      steps ⟨done, .quoted ((cs.flatMap Text.escape).reverse ++ read)⟩ rest := by
  induction cs generalizing read with
  | nil => rfl
  | cons c cs ih =>
    rw [List.flatMap_cons, List.append_assoc, steps_escape, ih, List.reverse_append,
      List.append_assoc]

/-- **A quoted text is one token.** -/
theorem steps_quote (s : String) (done : List Token) (rest : List Char) :
    steps ⟨done, .between⟩ (Text.quote s ++ rest) =
      steps ⟨.string (some s) :: done, .between⟩ rest := by
  have hopen : steps ⟨done, .between⟩ (Text.quote s ++ rest) =
      steps ⟨done, .quoted []⟩ (s.toList.flatMap Text.escape ++ '"' :: rest) := by
    rw [Text.quote, List.cons_append, List.append_assoc]
    rfl
  have hclose : step ⟨done, .quoted ((s.toList.flatMap Text.escape).reverse ++ [])⟩ '"' =
      some ⟨.string (some s) :: done, .between⟩ := by
    simp [step, Token.ofQuoted?_escape]
  rw [hopen, steps_escapes, steps, hclose]

end Scanner

end Json
end UltimateTicTacToe
