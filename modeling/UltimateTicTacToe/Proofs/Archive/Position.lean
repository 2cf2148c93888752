/-
# Positions that are put away and taken out again

A position is written with all its fields: the boards as arrays of nine with `null` for
what is empty, and the constraints before each placement as an array of any length, in the
order of the game. Either text reads as the position, exactly if its constraints are
numbers of 64 bits (`Position.parse?_text_iff`). Events keep them so, since the constraint
that a placement makes names a tile, and taking an event back makes none
(`Position.targets_apply`, `Position.targets_undo`).

So a game may be put away as a text at any time, and more than once, while events are
applied or taken back. What comes of it is the same (`Position.Fits.follow_eq`).

Key definitions: `Position.Fits`, `Position.text`, `Position.Step`, `Position.follow`.
Key theorems: `Position.ofJson?_reread`, `Position.fits_of_ofJson?`,
`Position.parse?_text_iff`, `Position.Fits.follow_eq`, `Position.text_restores`.
-/
import UltimateTicTacToe.Archive.Position
import UltimateTicTacToe.Proofs.Archive.Codec
import UltimateTicTacToe.Proofs.ClosedForm

namespace UltimateTicTacToe

open Json (numeral)

/-! ### Nine values -/

section Nine

variable {α : Type} {read : Json → Option α} {encode : α → Json}

theorem Json.nine?_list (h : ∀ a, read (encode a) = some a) (values : Vector α 9) :
    (list encode values.toList).nine? read = some values := by
  obtain ⟨values, hsize⟩ := values
  have hread : readAll? read (values.toList.map encode) = some values.toList :=
    readAll?_map_self fun a _ => h a
  have hlength : values.toList.length = 9 := by simpa using hsize
  unfold nine? list
  simp [hread, hlength]

/-- Cells read as they were written, those that are empty included. -/
theorem Cells.ofJson?_reread (hnull : read .null = none)
    (h : ∀ a, read (encode a).reread = some a) (cells : Cells α) :
    ofJson? read (cells.toJson encode).reread = some cells := by
  have hmark : ∀ mark : Option α,
      Json.nullable? read (Json.option encode mark).reread = some mark := by
    intro mark
    rw [Json.reread_option]
    exact Json.nullable?_option hnull fun a _ => h a
  have hmarks : (cells.toJson encode).reread.nine? (Json.nullable? read) = some cells.marks := by
    rw [toJson, toList, Json.reread_list, Json.nine?_list hmark]
  rw [ofJson?, hmarks]
  rfl

end Nine

namespace Position

/-! ### Values -/

/-- The constraint on the next move and all those before it are numbers of 64 bits. -/
def Fits (s : Position) : Prop := ∀ target ∈ s.targets, ∀ g ∈ target, g < UInt64.size

instance (s : Position) : Decidable s.Fits :=
  inferInstanceAs (Decidable (∀ target ∈ s.targets, ∀ g ∈ target, g < UInt64.size))

theorem fits_iff {s : Position} : s.Fits ↔ (∀ g ∈ s.target, g < UInt64.size) ∧
    ∀ target ∈ s.pastTargets, ∀ g ∈ target, g < UInt64.size := by
  simp [Fits, targets, or_imp, forall_and, and_comm]

theorem nullable?_index?_reread {target : Option Nat} (h : ∀ g ∈ target, g < UInt64.size) :
    Json.nullable? Json.index? (Json.option .nat target).reread = some target := by
  rw [Json.reread_option]
  refine Json.nullable?_option rfl fun g hg => ?_
  show (numeral g).index? = some g
  rw [Json.index?_numeral, if_pos (h g hg)]

theorem targetsOfJson?_reread {past : List (Option Nat)}
    (h : ∀ target ∈ past, ∀ g ∈ target, g < UInt64.size) :
    targetsOfJson? (Json.list (.option .nat) past).reread = some past := by
  rw [Json.reread_list]
  exact Json.readAll?_map_self fun target ht => nullable?_index?_reread (h target ht)

/-- **A position reads as it was written**, field by field. -/
theorem ofJson?_reread {s : Position} (h : s.Fits) : ofJson? s.toJson.reread = some s := by
  obtain ⟨htarget, hpast⟩ := fits_iff.mp h
  have hfields : s.toJson.reread.fields? ["winner", "next_player", "next_grid", "past_next_grids",
      "sub_grids_won", "sub_grids"] 6 =
        some [some (Json.option Outcome.toJson s.winner).reread, some s.turn.toJson.reread,
          some (Json.option .nat s.target).reread,
          some (Json.list (.option .nat) s.pastTargets.reverse).reread,
          some (s.decided.toJson Outcome.toJson).reread,
          some (Json.list (Cells.toJson Player.toJson) s.boards.toList).reread] := rfl
  have hplayer : ∀ m : Player, Player.ofJson? m.toJson.reread = some m := by
    intro m
    cases m <;> rfl
  have hwinner : Json.optional? (Outcome.ofJson? false)
      (some (Json.option Outcome.toJson s.winner).reread) = some s.winner := by
    rw [Json.reread_option]
    exact Outcome.optional?_toJson false s.winner
  have hsent : Json.optional? Json.index? (some (Json.option .nat s.target).reread) =
      some s.target := nullable?_index?_reread htarget
  have hsentBefore : targetsOfJson? (Json.list (.option .nat) s.pastTargets.reverse).reread =
      some s.pastTargets.reverse :=
    targetsOfJson?_reread fun target ht => hpast target (List.mem_reverse.mp ht)
  have hdecided : Cells.ofJson? (Outcome.ofJson? false) (s.decided.toJson Outcome.toJson).reread =
      some s.decided := Cells.ofJson?_reread rfl (Outcome.ofJson?_toJson false) s.decided
  have hboards : (Json.list (Cells.toJson Player.toJson) s.boards.toList).reread.nine?
      (Cells.ofJson? Player.ofJson?) = some s.boards := by
    rw [Json.reread_list]
    exact Json.nine?_list (Cells.ofJson?_reread rfl hplayer) s.boards
  simp only [ofJson?, hfields, hwinner, hplayer, hsent, hsentBefore, hdecided, hboards]
  simp

/-- **Whatever is read as a position has numbers of 64 bits.** -/
theorem fits_of_ofJson? {j : Json} {s : Position} (h : ofJson? j = some s) : s.Fits := by
  unfold ofJson? at h
  split at h
  · rename_i target past _ _ _
    simp only [Option.bind_eq_bind, Option.bind_eq_some_iff, Option.pure_def,
      Option.some.injEq] at h
    obtain ⟨_, -, _, -, sent, hsent, before, hbefore, _, -, _, -, rfl⟩ := h
    refine fits_iff.mpr ⟨?_, fun earlier hearlier => ?_⟩
    · cases target with
      | none =>
        cases hsent
        exact nofun
      | some j => exact Json.nullable?_index?_lt hsent
    · unfold targetsOfJson? at hbefore
      split at hbefore
      · obtain ⟨j, -, hj⟩ :=
          Json.exists_mem_of_readAll? hbefore earlier (List.mem_reverse.mp hearlier)
        exact Json.nullable?_index?_lt hj
      · cases hbefore
  · cases h

/-! ### Texts -/

/-- The text of a position, indented or compact. -/
def text (s : Position) (isIndented : Bool) : String :=
  if isIndented then s.toJson.indented else s.toJson.compact

theorem inDigits_toJson (s : Position) : s.toJson.InDigits := by
  have hletter : ∀ o : Outcome, o.toJson.InDigits := fun _ => .string _
  have howner : ∀ m : Player, m.toJson.InDigits := fun _ => .string _
  have hcells : ∀ cells : Cells Player, (cells.toJson Player.toJson).InDigits := fun _ =>
    .list (.option howner) _
  have hwinner := Json.InDigits.option hletter s.winner
  have htarget := Json.InDigits.option .nat s.target
  have hpast := Json.InDigits.list (.option .nat) s.pastTargets.reverse
  have hdecided : (s.decided.toJson Outcome.toJson).InDigits := .list (.option hletter) _
  have hboards := Json.InDigits.list hcells s.boards.toList
  exact .object (by simp [hwinner, howner s.turn, htarget, hpast, hdecided, hboards])

/-- **Either text of a position reads as the position**, as long as its numbers fit 64
bits. -/
theorem parse?_text_iff {s : Position} {isIndented : Bool} :
    parse? (s.text isIndented) = some s ↔ s.Fits := by
  have hparse : Json.parse? (s.text isIndented) = some s.toJson.reread := by
    cases isIndented with
    | true => exact s.inDigits_toJson.parse?_indented
    | false => exact s.inDigits_toJson.parse?_compact
  rw [parse?, hparse, Option.bind_some]
  exact ⟨fits_of_ofJson?, ofJson?_reread⟩

/-! ### Events leave the numbers small -/

variable {s t : Position} {e : Event} {es : List Event}

/-- An event that is applied adds no constraint but those that name a tile. -/
theorem targets_apply (h : s.apply e = .ok t) :
    ∃ added, t.targets = s.targets ++ added ∧ ∀ target ∈ added, ∀ g ∈ target, g < 9 := by
  cases e with
  | placed p =>
    obtain ⟨-, hp, -, rfl⟩ := apply_placed.mp h
    refine ⟨_, targets_place s p, fun target ht g hg => ?_⟩
    rw [List.mem_singleton.mp ht] at hg
    split at hg
    · cases hg
      exact (Placement.onBoard_iff.mp hp).2
    · cases hg
  | decided g o =>
    obtain ⟨-, -, -, rfl⟩ := apply_decided.mp h
    exact ⟨[], (List.append_nil _).symm, nofun⟩
  | ended o =>
    obtain ⟨-, rfl⟩ := apply_ended.mp h
    exact ⟨[], (List.append_nil _).symm, nofun⟩

/-- An event that is taken back removes constraints at most. -/
theorem targets_undo (h : s.undo e = .ok t) : ∃ removed, s.targets = t.targets ++ removed := by
  have hsame : t.targets = s.targets → ∃ removed, s.targets = t.targets ++ removed := fun h =>
    ⟨[], by rw [h, List.append_nil]⟩
  unfold undo at h
  cases e with
  | placed p =>
    simp only at h
    split at h
    · split at h
      · split at h
        · cases h
        · rename_i target pastTargets hpast
          cases h
          exact ⟨[s.target], by simp [targets, hpast]⟩
      · cases h
    · cases h
  | decided g o =>
    simp only at h
    split at h
    · split at h
      · cases h
        exact hsame rfl
      · cases h
    · cases h
  | ended o =>
    simp only at h
    split at h
    · cases h
      exact hsame rfl
    · cases h

namespace Fits

theorem apply (hs : s.Fits) (h : s.apply e = .ok t) : t.Fits := by
  obtain ⟨added, htargets, hadded⟩ := targets_apply h
  intro target ht g hg
  rw [htargets] at ht
  rcases List.mem_append.mp ht with ht | ht
  · exact hs target ht g hg
  · exact Nat.lt_trans (hadded target ht g hg) (by decide)

theorem undo (hs : s.Fits) (h : s.undo e = .ok t) : t.Fits := by
  obtain ⟨removed, htargets⟩ := targets_undo h
  intro target ht
  exact hs target (by rw [htargets]; exact List.mem_append_left _ ht)

theorem replay (hs : s.Fits) (h : s.replay es = .ok t) : t.Fits :=
  replay_induction (motive := fun _ t => t.Fits) hs (fun _ _ _ _ _ ih ha => ih.apply ha) h

theorem unwind (hs : s.Fits) (h : s.unwind es = .ok t) : t.Fits := by
  induction es generalizing s with
  | nil =>
    cases h
    exact hs
  | cons e es ih =>
    rw [Position.unwind] at h
    cases hu : s.undo e with
    | error f =>
      rw [hu] at h
      cases h
    | ok u =>
      rw [hu] at h
      exact ih (hs.undo hu) h

end Fits

/-! ### Games that are put away -/

/-- Something to do with the position of a game. -/
inductive Step where
  /-- Events are applied. -/
  | apply (events : List Event)
  /-- Events are taken back. -/
  | undo (events : List Event)
  /-- The position is put away as a text, and read from it again. -/
  | store (isIndented : Bool)
  deriving DecidableEq, Repr

/-- Whether the step puts the position away. -/
def Step.isStore : Step → Bool
  | .store _ => true
  | _ => false

/-- What comes of the steps, up to the first event that is refused; none if a text cannot
be read. -/
def follow (s : Position) : List Step → Option (Except Fault Position)
  | [] => some (.ok s)
  | .apply es :: steps =>
    match s.replay es with
    | .ok t => t.follow steps
    | .error f => some (.error f)
  | .undo es :: steps =>
    match s.unwind es with
    | .ok t => t.follow steps
    | .error f => some (.error f)
  | .store isIndented :: steps => (parse? (s.text isIndented)).bind fun t => t.follow steps

/-- **Putting the position away makes no difference**, whenever it is done and however
often. -/
theorem Fits.follow_eq (h : s.Fits) (steps : List Step) :
    s.follow steps = s.follow (steps.filter fun step => !step.isStore) := by
  induction steps generalizing s with
  | nil => rfl
  | cons step steps ih =>
    cases step with
    | apply es =>
      rw [List.filter_cons_of_pos rfl, follow, follow]
      cases ht : s.replay es with
      | ok t => exact ih (h.replay ht)
      | error f => rfl
    | undo es =>
      rw [List.filter_cons_of_pos rfl, follow, follow]
      cases ht : s.unwind es with
      | ok t => exact ih (h.unwind ht)
      | error f => rfl
    | store isIndented =>
      rw [List.filter_cons_of_neg (by simp [Step.isStore]), follow, parse?_text_iff.mpr h]
      exact ih h

/-- **A position is restored from its text.** Either text reads as the position exactly if
its numbers fit 64 bits. After any part of a game that started from such a position they do,
and what is read there goes on like the game, forwards and back. Nor does it matter how often
on the way the position is put away. -/
theorem text_restores :
    (∀ (s : Position) (isIndented : Bool), parse? (s.text isIndented) = some s ↔ s.Fits) ∧
    (∀ (s t : Position) (before : List Event), s.Fits → s.replay before = .ok t →
      ∀ isIndented, ∃ u, parse? (t.text isIndented) = some u ∧
        (∀ after, u.replay after = s.replay (before ++ after)) ∧
        (∀ es, u.unwind es = t.unwind es) ∧ u.unwind before.reverse = .ok s) ∧
    ∀ (s : Position) (steps : List Step), s.Fits →
      s.follow steps = s.follow (steps.filter fun step => !step.isStore) := by
  refine ⟨fun s isIndented => parse?_text_iff, fun s t before hs ht isIndented => ?_,
    fun s steps hs => hs.follow_eq steps⟩
  exact ⟨t, parse?_text_iff.mpr (hs.replay ht), fun after => (replay_append_of_ok ht).symm,
    fun _ => rfl, unwind_replay ht⟩

/-- A position that no game leads to, with the largest number that fits. -/
def farAway : Position := { impossible with target := some 18446744073709551615 }

theorem farAway_restores : farAway.Fits ∧ parse? (farAway.text false) = some farAway ∧
    (∃ t, farAway.replay [.placed ⟨4, 3⟩] = .ok t ∧ ∃ u, parse? (t.text true) = some u ∧
      u.unwind [.placed ⟨4, 3⟩] = .ok farAway ∧
      u.replay [.decided 4 .stalemate, .ended .blue] = farAway.replay afterImpossible) ∧
    farAway.follow [.store true, .apply [.placed ⟨4, 3⟩], .store false, .store true,
        .undo [.placed ⟨4, 3⟩], .store false, .undo [.placed ⟨4, 3⟩]] =
      some (.error (.conflict (.tileNotOwnedBy ⟨4, 3⟩ .red))) := by
  obtain ⟨hparse, hrestores, hfollow⟩ := text_restores
  have hfits : farAway.Fits := by decide
  obtain ⟨t, ht⟩ : ∃ t, farAway.replay [.placed ⟨4, 3⟩] = .ok t := ⟨_, rfl⟩
  obtain ⟨u, hu, hforth, -, hback⟩ := hrestores farAway t _ hfits ht true
  refine ⟨hfits, (hparse farAway false).mpr hfits, ⟨t, ht, u, hu, hback, hforth _⟩, ?_⟩
  rw [hfollow farAway _ hfits]
  rfl

end Position
end UltimateTicTacToe
