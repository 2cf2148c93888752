/-
# Numbers that are written in digits

The digits of a natural number are a numeral for it (`Numeral.natural?_toDigits`), and
in a JSON text they denote it as long as it fits 64 bits. Beyond that the same digits
denote a number in floating point, or none at all, and no reader that wants a place on
the board or a count takes either. `Json.numeral` is what the digits denote;
`Json.index?_numeral` is all that has to be known of it.

Key definitions: `Json.numeral`.
Key theorems: `Numeral.natural?_toDigits`, `Json.Token.ofRun?_toDigits`,
`Json.index?_numeral`.
-/
import Mathlib.Data.List.TakeWhile
import UltimateTicTacToe.Json.Fields
import UltimateTicTacToe.Json.Token

namespace UltimateTicTacToe

/-! ### The digits of a number -/

theorem isDigit_of_mem_toDigits {n : Nat} {c : Char} (h : c ∈ Nat.toDigits 10 n) :
    c.isDigit = true :=
  Nat.isDigit_of_mem_toDigits (by decide) (by decide) h

/-- The digits of a number begin with a digit. -/
theorem toDigits_eq_cons (n : Nat) :
    ∃ c cs, Nat.toDigits 10 n = c :: cs ∧ c.isDigit = true := by
  obtain ⟨c, cs, h⟩ := List.exists_cons_of_ne_nil (Nat.toDigits_ne_nil (n := n) (b := 10))
  exact ⟨c, cs, h, isDigit_of_mem_toDigits (by rw [h]; exact List.mem_cons_self)⟩

/-- No number but zero is written with a zero in front. -/
theorem head?_toDigits {n : Nat} (hn : 0 < n) : (Nat.toDigits 10 n).head? ≠ some '0' := by
  induction n using Nat.strongRecOn with
  | ind n ih =>
    rw [Nat.toDigits_eq_if (by decide)]
    split
    · rw [List.head?_cons, ne_eq, Option.some.injEq, Nat.digitChar_eq_zero]
      omega
    · have hrest := ih (n / 10) (by omega) (by omega)
      obtain ⟨c, cs, hc, -⟩ := toDigits_eq_cons (n / 10)
      rw [hc] at hrest ⊢
      exact hrest

namespace Numeral

theorem digits?_toDigits (n : Nat) : digits? (Nat.toDigits 10 n) = some n := by
  have hne : (Nat.toDigits 10 n).isEmpty = false := by
    obtain ⟨c, cs, hc, -⟩ := toDigits_eq_cons n
    rw [hc]
    rfl
  have hall : (Nat.toDigits 10 n).all Char.isDigit = true :=
    List.all_eq_true.mpr fun c hc => isDigit_of_mem_toDigits hc
  rw [digits?, hne, hall, Nat.ofDigitChars_ten_toDigits]
  rfl

/-- **A number in digits reads as the number.** -/
theorem natural?_toDigits (n : Nat) : natural? (Nat.toDigits 10 n) = some n := by
  obtain ⟨c, cs, hc, hd⟩ := toDigits_eq_cons n
  have hplus : c ≠ '+' := by
    rintro rfl
    exact absurd hd (by decide)
  have hrow : natural? (c :: cs) = digits? (c :: cs) :=
    natural?.eq_2 (c :: cs) fun _ h => hplus (List.cons.inj h).1
  rw [hc, hrow, ← hc, digits?_toDigits]

end Numeral

namespace Json

/-! ### Literals -/

namespace Literal

theorem le_ofDigitChars (cs : List Char) (m : Nat) : m ≤ Nat.ofDigitChars 10 cs m := by
  induction cs generalizing m with
  | nil => exact Nat.le_refl m
  | cons c cs ih =>
    rw [Nat.ofDigitChars_cons]
    have := ih (10 * m + (c.toNat - '0'.toNat))
    omega

/-- Digits are taken in completely if the number fits 64 bits, and otherwise some are
left over. -/
theorem absorb_eq (cs : List Char) {m : Nat} (hm : m < UInt64.size) :
    if Nat.ofDigitChars 10 cs m < UInt64.size
      then absorb m cs = (Nat.ofDigitChars 10 cs m, [])
      else (absorb m cs).2 ≠ [] := by
  induction cs generalizing m with
  | nil =>
    rw [Nat.ofDigitChars_nil, if_pos hm]
    rfl
  | cons c cs ih =>
    rw [Nat.ofDigitChars_cons, absorb]
    have hle := le_ofDigitChars cs (10 * m + (c.toNat - '0'.toNat))
    by_cases hnext : 10 * m + (c.toNat - '0'.toNat) < UInt64.size
    · have := ih hnext
      simp only [hnext, if_true]
      exact this
    · rw [if_neg (by omega)]
      simp only [hnext, if_false]
      simp

/-- The digits of a number are a literal with nothing but digits. -/
theorem ofChars?_toDigits (n : Nat) :
    ofChars? (Nat.toDigits 10 n) = some ⟨false, Nat.toDigits 10 n, none, none⟩ := by
  obtain ⟨c, cs, hc, hd⟩ := toDigits_eq_cons n
  have hminus : c ≠ '-' := by
    rintro rfl
    exact absurd hd (by decide)
  have htake : (Nat.toDigits 10 n).takeWhile Char.isDigit = Nat.toDigits 10 n :=
    List.takeWhile_eq_self_iff.mpr fun c hc => isDigit_of_mem_toDigits hc
  have hdrop : (Nat.toDigits 10 n).dropWhile Char.isDigit = [] :=
    List.dropWhile_eq_nil_iff.mpr fun c hc => isDigit_of_mem_toDigits hc
  have hzero : ¬ ((Nat.toDigits 10 n).head? = some '0' ∧ Nat.toDigits 10 n ≠ ['0']) := by
    rintro ⟨hhead, hne⟩
    rcases Nat.eq_zero_or_pos n with rfl | hn
    · exact hne rfl
    · exact head?_toDigits hn hhead
  rw [hc] at htake hdrop hzero ⊢
  unfold ofChars?
  split
  rename_i isNegative whole hsign
  split at hsign
  · rename_i hfirst
    exact absurd (List.cons.inj hfirst).1 hminus
  · obtain ⟨rfl, rfl⟩ := Prod.mk.inj hsign
    simp only [htake, hdrop, hzero, List.isEmpty_cons, if_false, Bool.false_eq_true]
    rfl

end Literal

/-- The value that the digits of `n` denote. -/
def numeral (n : Nat) : Json :=
  match (Literal.mk false (Nat.toDigits 10 n) none none).number? with
  | some x => .number x
  | none => .unreadable

theorem numeral_eq_nat {n : Nat} (h : n < UInt64.size) : numeral n = .nat n := by
  have habsorb := Literal.absorb_eq (Nat.toDigits 10 n) (show 0 < UInt64.size by decide)
  rw [Nat.ofDigitChars_ten_toDigits, if_pos h] at habsorb
  have hnumber : (Literal.mk false (Nat.toDigits 10 n) none none).number? = some (.natural n) := by
    simp [Literal.number?, habsorb]
  rw [numeral, hnumber]
  rfl

theorem numeral_of_ge {n : Nat} (h : ¬ n < UInt64.size) :
    numeral n = .unreadable ∨ ∃ m, numeral n = .number (.real .double false m) := by
  have habsorb := Literal.absorb_eq (Nat.toDigits 10 n) (show 0 < UInt64.size by decide)
  rw [Nat.ofDigitChars_ten_toDigits, if_neg h] at habsorb
  have hnumber : ∃ x : Option Binary,
      (Literal.mk false (Nat.toDigits 10 n) none none).number? = x.map (.real .double false) := by
    simp only [Literal.number?, List.isEmpty_eq_false_iff.mpr habsorb]
    exact ⟨_, rfl⟩
  obtain ⟨x, hx⟩ := hnumber
  rw [numeral, hx]
  cases x with
  | none => exact Or.inl rfl
  | some m => exact Or.inr ⟨m, rfl⟩

theorem index?_numeral (n : Nat) :
    (numeral n).index? = if n < UInt64.size then some n else none := by
  by_cases h : n < UInt64.size
  · rw [numeral_eq_nat h, if_pos h]
    exact if_pos h
  · rw [if_neg h]
    rcases numeral_of_ge h with hn | ⟨m, hn⟩
    · rw [hn]
      rfl
    · rw [hn]
      rfl

theorem numeral_ne_null (n : Nat) : numeral n ≠ .null := by
  unfold numeral
  split
  · exact nofun
  · exact nofun

/-- **A number in digits is one token**, with the value that the digits denote. -/
theorem Token.ofRun?_toDigits (n : Nat) :
    Token.ofRun? (Nat.toDigits 10 n) = some (.scalar (numeral n)) := by
  have hword : ∀ c cs, c.isDigit = false → Nat.toDigits 10 n ≠ c :: cs := by
    intro c cs hc h
    have hd : c.isDigit = true := isDigit_of_mem_toDigits (by rw [h]; exact List.mem_cons_self)
    rw [hc] at hd
    cases hd
  rw [Token.ofRun?, if_neg (hword _ _ (by decide)), if_neg (hword _ _ (by decide)),
    if_neg (hword _ _ (by decide)), Literal.ofChars?_toDigits]
  rfl

end Json
end UltimateTicTacToe
