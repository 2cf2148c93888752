/-
# Kinds of entries

The kind of an entry names what the entry is about: a game by its number, the score, or
the outcomes. A number may be spelled in many ways, with leading zeros and a plus sign,
and `game_winners` begins like a game but is none. Kinds that begin with an underscore
are internal, and they and all others name nothing. The reader tries one name after
another (`Slot.ofKind?`); that it finds what is named, whatever the order, is
`Slot.ofKind?_eq_some_iff`.

Key definitions: `Numeral.Spells`, `Slot.NamedBy`.
Key theorems: `Numeral.natural?_eq_some_iff`, `Slot.ofKind?_eq_some_iff`.
-/
import UltimateTicTacToe.Archive.Record

namespace UltimateTicTacToe

/-! ### Numbers -/

namespace Numeral

/-- The text spells the number `n` in digits, a plus sign before them or none. -/
def Spells (cs : List Char) (n : Nat) : Prop :=
  ∃ digits, (cs = digits ∨ cs = '+' :: digits) ∧ digits ≠ [] ∧
    (∀ c ∈ digits, c.isDigit = true) ∧ Nat.ofDigitChars 10 digits 0 = n

theorem digits?_eq_some_iff {cs : List Char} {n : Nat} :
    digits? cs = some n ↔
      cs ≠ [] ∧ (∀ c ∈ cs, c.isDigit = true) ∧ Nat.ofDigitChars 10 cs 0 = n := by
  unfold digits?
  by_cases hempty : cs = []
  · simp [hempty]
  · by_cases hall : cs.all Char.isDigit = true
    · simpa [hempty, hall] using fun _ => List.all_eq_true.mp hall
    · have hnot : ¬ ∀ c ∈ cs, c.isDigit = true := fun h => hall (List.all_eq_true.mpr h)
      simp [hempty, hall, hnot]

/-- A numeral reads as the number that it spells. -/
theorem natural?_eq_some_iff {cs : List Char} {n : Nat} :
    natural? cs = some n ↔ Spells cs n := by
  unfold natural?
  split
  · rename_i digits
    rw [digits?_eq_some_iff]
    constructor
    · exact fun h => ⟨digits, Or.inr rfl, h⟩
    · rintro ⟨digits', rfl | heq, hne, hall, hn⟩
      · exact absurd (hall '+' List.mem_cons_self) (by decide)
      · obtain rfl := (List.cons.inj heq).2
        exact ⟨hne, hall, hn⟩
  · rename_i hplus
    rw [digits?_eq_some_iff]
    constructor
    · exact fun h => ⟨cs, Or.inl rfl, h⟩
    · rintro ⟨digits, rfl | heq, h⟩
      · exact h
      · exact absurd heq (hplus digits)

end Numeral

/-! ### Slots -/

namespace Slot

/-- Entries of this kind are about the slot. Internal entries, whose kind begins with an
underscore, are about nothing. -/
def NamedBy (slot : Slot) (kind : String) : Prop :=
  kind.toList.head? ≠ some '_' ∧
    match slot with
    | .game id => ∃ cs, kind.toList = "game_".toList ++ cs ∧ Numeral.Spells cs id.toNat
    | .score => kind = "scores"
    | .winners => kind = "game_winners"

theorem gameId?_eq_some_iff {kind : String} {id : UInt32} :
    gameId? kind = some id ↔
      ∃ cs, kind.toList = "game_".toList ++ cs ∧ Numeral.Spells cs id.toNat := by
  have hnumber (cs : List Char) :
      ((Numeral.natural? cs).filter fun n => n < UInt32.size).map UInt32.ofNat = some id ↔
        Numeral.Spells cs id.toNat := by
    rw [← Numeral.natural?_eq_some_iff]
    cases hn : Numeral.natural? cs with
    | none => simp
    | some n =>
      by_cases hlt : n < UInt32.size
      · rw [Option.filter_some, if_pos (decide_eq_true hlt), Option.map_some, Option.some.injEq,
          Option.some.injEq]
        constructor
        · rintro rfl
          exact (UInt32.toNat_ofNat_of_lt' hlt).symm
        · rintro rfl
          exact UInt32.ofNat_toNat
      · rw [Option.filter_some, if_neg (by simpa using hlt), Option.map_none]
        refine iff_of_false nofun fun heq => hlt ?_
        rw [Option.some.inj heq]
        exact id.toNat_lt
  unfold gameId?
  split
  · rename_i cs hkind
    rw [hnumber, hkind]
    constructor
    · exact fun h => ⟨cs, rfl, h⟩
    · rintro ⟨cs', heq, h⟩
      have hcs : cs = cs' := List.append_cancel_left (show "game_".toList ++ cs = _ from heq)
      rwa [hcs]
  · rename_i hkind
    refine iff_of_false nofun ?_
    rintro ⟨cs, heq, -⟩
    exact hkind cs heq

theorem namedBy_game {kind : String} {id : UInt32} :
    NamedBy (.game id) kind ↔ gameId? kind = some id := by
  rw [gameId?_eq_some_iff]
  refine ⟨fun h => h.2, fun ⟨cs, hkind, hspells⟩ => ⟨?_, cs, hkind, hspells⟩⟩
  rw [hkind]
  show some 'g' ≠ some '_'
  decide

theorem namedBy_score {kind : String} : NamedBy .score kind ↔ kind = "scores" := by
  refine ⟨fun h => h.2, ?_⟩
  rintro rfl
  exact ⟨by decide, rfl⟩

theorem namedBy_winners {kind : String} : NamedBy .winners kind ↔ kind = "game_winners" := by
  refine ⟨fun h => h.2, ?_⟩
  rintro rfl
  exact ⟨by decide, rfl⟩

/-- **The kind says what an entry is about.** -/
theorem ofKind?_eq_some_iff {kind : String} {slot : Slot} :
    ofKind? kind = some slot ↔ slot.NamedBy kind := by
  have hscores : gameId? "scores" = none := by decide
  have hwinners : gameId? "game_winners" = none := by decide
  cases hid : gameId? kind with
  | some id =>
    have hs : kind ≠ "scores" := fun h => by rw [h, hscores] at hid; cases hid
    have hw : kind ≠ "game_winners" := fun h => by rw [h, hwinners] at hid; cases hid
    rw [ofKind?, hid]
    cases slot with
    | game id' => simp [namedBy_game, hid]
    | score => simp [namedBy_score, hs]
    | winners => simp [namedBy_winners, hw]
  | none =>
    have hkind : ofKind? kind = if kind = "scores" then some .score
        else if kind = "game_winners" then some .winners else none := by rw [ofKind?, hid]
    rw [hkind]
    by_cases hs : kind = "scores"
    · subst hs
      cases slot <;> simp [namedBy_game, namedBy_score, namedBy_winners, hscores]
    · by_cases hw : kind = "game_winners"
      · subst hw
        cases slot <;> simp [namedBy_game, namedBy_score, namedBy_winners, hwinners]
      · cases slot <;> simp [namedBy_game, namedBy_score, namedBy_winners, hid, hs, hw]

theorem NamedBy.unique {kind : String} {slot slot' : Slot} (h : slot.NamedBy kind)
    (h' : slot'.NamedBy kind) : slot = slot' := by
  rw [← ofKind?_eq_some_iff] at h h'
  exact Option.some.inj (h.symm.trans h')

theorem ofKind?_eq_none_iff {kind : String} :
    ofKind? kind = none ↔ ∀ slot : Slot, ¬ slot.NamedBy kind := by
  rw [Option.eq_none_iff_forall_ne_some]
  exact forall_congr' fun slot => not_congr ofKind?_eq_some_iff

instance (slot : Slot) (kind : String) : Decidable (slot.NamedBy kind) :=
  decidable_of_iff _ ofKind?_eq_some_iff

-- A number has many spellings, and `game_winners` is not one of a number.
example : ofKind? "game_1" = some (.game 1) ∧ ofKind? "game_+01" = some (.game 1) ∧
    ofKind? "game_winners" = some .winners ∧ ofKind? "game_4294967296" = none := by decide

end Slot

end UltimateTicTacToe
