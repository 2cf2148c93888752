/-
# Events, payloads and entries as they are written and read

A feed is written from the inside out: events in a history, the history with its tag
in a payload, the payload in an entry. The payload is put in the order of its names
before it is written (`Payload.sorted`), and everything is put in that order when it
is read, so the fields arrive in another order than the one in which they were named.
None of this changes what is read. An event reads as itself if it lies on the board,
and cannot be read otherwise (`Event.ofJson_reread_iff`); the same holds for a payload
(`Payload.ofJson_sorted`, `Payload.onBoard_of_sorted`). An entry reads as itself, its
payload aside, which is taken as it stands (`FeedEntry.Numbered.ofJson?_reread`).

Key definitions: `Event.shape`, `Payload.sorted`, `FeedEntry.Numbered`,
`FeedEntry.found`.
Key theorems: `Event.ofJson_reread_iff`, `Payload.ofJson_sorted`,
`Payload.onBoard_of_sorted`, `Feed.ofJson?_reread`.
-/
import Mathlib.Algebra.Group.Int.Defs
import UltimateTicTacToe.Proofs.Archive.OnBoard
import UltimateTicTacToe.Proofs.Json.Reading

namespace UltimateTicTacToe

open Json (numeral)

/-! ### Numbers and letters -/

namespace Json

theorem ordered_numeral (n : Nat) : (numeral n).ordered = numeral n := by
  unfold numeral
  split <;> rfl

theorem optional?_numeral (n : Nat) :
    optional? index? (some (numeral n)) = if n < UInt64.size then some (some n) else none := by
  rw [optional?, nullable?_of_ne_null (numeral_ne_null n), index?_numeral]
  split <;> rfl

end Json

theorem Outcome.ofJson?_toJson (inTagged : Bool) (o : Outcome) :
    ofJson? inTagged o.toJson = some o := by
  cases o <;> rfl

theorem Outcome.optional?_toJson (inTagged : Bool) (w : Option Outcome) :
    Json.optional? (ofJson? inTagged) (some (.option toJson w)) = some w := by
  cases w with
  | none => rfl
  | some o => cases o <;> rfl

theorem Score.ofJson?_toJson (s : Score) : ofJson? s.toJson = some s := by
  have hword : ∀ n : UInt32, Json.word? (.nat n.toNat) = some n := by
    intro n
    show (if n.toNat < UInt32.size then some (UInt32.ofNat n.toNat) else none) = some n
    rw [if_pos n.toNat_lt, UInt32.ofNat_toNat]
  show (do return ⟨← (Json.nat s.aWins.toNat).word?, ← (Json.nat s.bWins.toNat).word?,
    ← (Json.nat s.draws.toNat).word?⟩) = some s
  rw [hword, hword, hword]
  rfl

/-! ### Events -/

namespace Event

theorem inDigits_toJson (e : Event) : e.toJson.InDigits := by
  cases e with
  | placed p => exact .object (by simp [Json.InDigits.nat])
  | decided g o => exact .object (by simp [Json.InDigits.nat, Outcome.toJson, Json.InDigits.string])
  | ended o => exact .object (by simp [Outcome.toJson, Json.InDigits.string])

theorem ordered_toJson (e : Event) : e.toJson.ordered = e.toJson := by
  cases e <;> rfl

theorem ordered_reread (e : Event) : e.toJson.reread.ordered = e.toJson.reread := by
  cases e with
  | placed p =>
    show Json.object [("g", (numeral p.grid).ordered), ("t", (numeral p.tile).ordered)] = _
    rw [Json.ordered_numeral, Json.ordered_numeral]
    rfl
  | decided g o =>
    show Json.object [("g", (numeral g).ordered), ("w", o.toJson)] = _
    rw [Json.ordered_numeral]
    rfl
  | ended o => rfl

/-- The fields with which an event is written. -/
def shape : Event → EventShape
  | .placed p => ⟨some p.grid, some p.tile, none, none⟩
  | .decided g o => ⟨some g, none, some o, none⟩
  | .ended o => ⟨none, none, none, some o⟩

/-- The fields of an event make that event, if it lies on the board. -/
theorem ofShape_shape {e e' : Event} : ofShape e.shape = .ok e' ↔ e.onBoard = true ∧ e' = e := by
  cases e with
  | placed p =>
    have hrow : ofShape (shape (.placed p)) =
        if p.onBoard then .ok (.placed p) else .error (.offBoard p) := rfl
    rw [hrow]
    split
    · rename_i h
      simp [onBoard, h, eq_comm]
    · rename_i h
      simp [onBoard, h]
  | decided g o =>
    have hrow : ofShape (shape (.decided g o)) =
        if isIndex g then .ok (.decided g o) else .error (.offBoard ⟨g, 0⟩) := rfl
    rw [hrow]
    split
    · rename_i h
      simp [onBoard, h, eq_comm]
    · rename_i h
      simp [onBoard, h]
  | ended o =>
    have hrow : ofShape (shape (.ended o)) = .ok (.ended o) := rfl
    simp [hrow, onBoard, eq_comm]

/-- The numbers of the event are numbers of 64 bits. -/
def Fits : Event → Prop
  | .placed p => p.grid < UInt64.size ∧ p.tile < UInt64.size
  | .decided g _ => g < UInt64.size
  | .ended _ => True

theorem fits_of_onBoard {e : Event} (h : e.onBoard = true) : e.Fits := by
  have hsize : 9 < UInt64.size := by decide
  cases e with
  | placed p =>
    obtain ⟨hg, ht⟩ := Placement.onBoard_iff.mp h
    exact ⟨Nat.lt_trans hg hsize, Nat.lt_trans ht hsize⟩
  | decided g o =>
    have hg : g < 9 := by simpa [onBoard, isIndex] using h
    exact Nat.lt_trans hg hsize
  | ended o => trivial

/-- An event whose numbers fit 64 bits has no number that cannot be read. -/
theorem isPlain_reread {e : Event} (hfits : e.Fits) (depth : Nat) :
    e.toJson.reread.isPlain (depth + 1) = true := by
  cases e with
  | placed p =>
    show Json.isPlain (depth + 1) (.object [("g", numeral p.grid), ("t", numeral p.tile)]) = true
    rw [Json.numeral_eq_nat hfits.1, Json.numeral_eq_nat hfits.2]
    exact Json.isPlain_object.mpr (by simp)
  | decided g o =>
    show Json.isPlain (depth + 1) (.object [("g", numeral g), ("w", .string _)]) = true
    rw [Json.numeral_eq_nat hfits]
    exact Json.isPlain_object.mpr (by simp)
  | ended o =>
    show Json.isPlain (depth + 1) (.object [("overall", .string _)]) = true
    exact Json.isPlain_object.mpr (by simp)

/-- A written event has the fields with which it was written, unless a number in it is
too large to be read. -/
theorem ofJson?_reread (inTagged : Bool) (e : Event) :
    (e.Fits → EventShape.ofJson? inTagged e.toJson.reread = some e.shape) ∧
      (¬ e.Fits → EventShape.ofJson? inTagged e.toJson.reread = none) := by
  cases e with
  | placed p =>
    have hfields : (toJson (.placed p)).reread.fields? ["g", "t", "w", "overall"] 4 =
        some [some (numeral p.grid), some (numeral p.tile), none, none] := rfl
    simp only [EventShape.ofJson?, hfields, Json.optional?_numeral]
    constructor
    · rintro ⟨hg, ht⟩
      rw [if_pos hg, if_pos ht]
      rfl
    · intro h
      by_cases hg : p.grid < UInt64.size
      · rw [if_pos hg, if_neg fun ht => h ⟨hg, ht⟩]
      · rw [if_neg hg]
  | decided g o =>
    have hfields : (toJson (.decided g o)).reread.fields? ["g", "t", "w", "overall"] 4 =
        some [some (numeral g), none, some (.option Outcome.toJson (some o)), none] := rfl
    simp only [EventShape.ofJson?, hfields, Json.optional?_numeral, Outcome.optional?_toJson]
    constructor
    · intro (hg : g < UInt64.size)
      rw [if_pos hg]
      rfl
    · intro (hg : ¬ g < UInt64.size)
      rw [if_neg hg]
  | ended o =>
    have hfields : (toJson (.ended o)).reread.fields? ["g", "t", "w", "overall"] 4 =
        some [none, none, none, some (.option Outcome.toJson (some o))] := rfl
    simp only [EventShape.ofJson?, hfields, Outcome.optional?_toJson]
    exact ⟨fun _ => rfl, fun h => absurd trivial h⟩

/-- **A written event reads as itself if it lies on the board**, and cannot be read
otherwise. -/
theorem ofJson_reread_iff {inTagged : Bool} {e e' : Event} :
    ofJson inTagged e.toJson.reread = .ok e' ↔ e.onBoard = true ∧ e' = e := by
  obtain ⟨hfits, hlarge⟩ := ofJson?_reread inTagged e
  constructor
  · intro h
    obtain ⟨s, hs, he⟩ := ofJson_ok h
    by_cases hf : e.Fits
    · rw [hfits hf] at hs
      cases hs
      exact ofShape_shape.mp he
    · rw [hlarge hf] at hs
      cases hs
  · intro h
    rw [ofJson, hfits (fits_of_onBoard h.1)]
    simp only [ofShape_shape.mpr h]

end Event

/-! ### Payloads -/

namespace Payload

/-- A payload with its tag, the fields in the order of their names. -/
def sorted : Payload → Json
  | .history h =>
    .object [("events", .list Event.toJson h.events),
      ("overall_winner", .option Outcome.toJson h.winner), ("type", .string "GameHistory")]
  | .score s =>
    .object [("a_wins", .nat s.aWins.toNat), ("b_wins", .nat s.bWins.toNat),
      ("draws", .nat s.draws.toNat), ("type", .string "Scores")]
  | .winners os =>
    .object [("type", .string "GameWinners"), ("winners", .list Outcome.toJson os)]

theorem ordered_toJson (p : Payload) : p.toJson.ordered = p.sorted := by
  cases p with
  | history h =>
    show Json.object [("events", (Json.list Event.toJson h.events).ordered),
      ("overall_winner", (Json.option Outcome.toJson h.winner).ordered),
      ("type", .string "GameHistory")] = _
    rw [Json.ordered_list Event.ordered_toJson, Json.ordered_option fun _ => rfl]
    rfl
  | score s => rfl
  | winners os =>
    show Json.object [("type", .string "GameWinners"),
      ("winners", (Json.list Outcome.toJson os).ordered)] = _
    rw [Json.ordered_list fun _ => rfl]
    rfl

theorem inDigits_sorted (p : Payload) : p.sorted.InDigits := by
  have houtcome : ∀ o : Outcome, o.toJson.InDigits := fun o => .string _
  cases p with
  | history h =>
    have hevents := Json.InDigits.list Event.inDigits_toJson h.events
    have hwinner := Json.InDigits.option houtcome h.winner
    exact .object (by simp [hevents, hwinner, Json.InDigits.string])
  | score s => exact .object (by simp [Json.InDigits.nat, Json.InDigits.string])
  | winners os =>
    have houtcomes := Json.InDigits.list houtcome os
    exact .object (by simp [houtcomes, Json.InDigits.string])

/-- A history, as it is read. -/
theorem reread_history (h : History) : (sorted (.history h)).reread =
    .object [("events", .list (fun e : Event => e.toJson.reread) h.events),
      ("overall_winner", .option Outcome.toJson h.winner), ("type", .string "GameHistory")] := by
  show Json.object [("events", .array (Json.itemsReread (h.events.map Event.toJson))),
    ("overall_winner", (Json.option Outcome.toJson h.winner).reread), _] = _
  rw [Json.itemsReread_map]
  cases h.winner <;> rfl

theorem reread_score (s : Score) : (sorted (.score s)).reread = sorted (.score s) := by
  have hword : ∀ n : UInt32, numeral n.toNat = .nat n.toNat := fun n =>
    Json.numeral_eq_nat (Nat.lt_trans n.toNat_lt (by decide))
  show Json.object [("a_wins", numeral s.aWins.toNat), ("b_wins", numeral s.bWins.toNat),
    ("draws", numeral s.draws.toNat), _] = _
  rw [hword, hword, hword]
  rfl

theorem reread_winners (os : List Outcome) :
    (sorted (.winners os)).reread = sorted (.winners os) := by
  show Json.object [_, ("winners", .array (Json.itemsReread (os.map Outcome.toJson)))] = _
  rw [Json.itemsReread_map]
  rfl

theorem ordered_reread_sorted (p : Payload) : p.sorted.reread.ordered = p.sorted.reread := by
  cases p with
  | history h =>
    rw [reread_history]
    show Json.object [("events", (Json.list (fun e : Event => e.toJson.reread) h.events).ordered),
      ("overall_winner", (Json.option Outcome.toJson h.winner).ordered), _] = _
    rw [Json.ordered_list Event.ordered_reread, Json.ordered_option fun _ => rfl]
    rfl
  | score s =>
    rw [reread_score]
    rfl
  | winners os =>
    rw [reread_winners]
    show Json.object [_, ("winners", (Json.list Outcome.toJson os).ordered)] = _
    rw [Json.ordered_list fun _ => rfl]
    rfl

/-- A payload on the board has no part that cannot be read. -/
theorem isPlain_reread_sorted {p : Payload} (h : p.OnBoard) (depth : Nat) :
    p.sorted.reread.isPlain (depth + 3) = true := by
  have houtcome : ∀ (d : Nat) (o : Outcome), o.toJson.isPlain d = true := fun d _ =>
    Json.isPlain_string d _
  cases p with
  | history game =>
    have hevents : (Json.list (fun e : Event => e.toJson.reread) game.events).isPlain
        (depth + 2) = true :=
      Json.isPlain_list.mpr fun e he =>
        Event.isPlain_reread (Event.fits_of_onBoard (h e he)) depth
    have hwinner := Json.isPlain_option (houtcome (depth + 2)) game.winner
    rw [reread_history]
    exact Json.isPlain_object.mpr (by simp [hevents, hwinner])
  | score s =>
    rw [reread_score]
    exact Json.isPlain_object.mpr (by simp)
  | winners os =>
    have hwinners : (Json.list Outcome.toJson os).isPlain (depth + 2) = true :=
      Json.isPlain_list.mpr fun o _ => houtcome (depth + 1) o
    rw [reread_winners]
    exact Json.isPlain_object.mpr (by simp [hwinners])

/-- A history is read by its fields. -/
theorem ofJson_history (game : History) : ofJson (sorted (.history game)).reread = do
    let events ← Event.listOfJson true (.list (fun e : Event => e.toJson.reread) game.events)
    return .history ⟨events, game.winner⟩ := by
  have htag : (sorted (.history game)).reread.tagged? "type" = some ("GameHistory",
      .object [("events", .list (fun e : Event => e.toJson.reread) game.events),
        ("overall_winner", .option Outcome.toJson game.winner)]) := by
    rw [reread_history]
    rfl
  have hwinner := Outcome.optional?_toJson true game.winner
  rw [ofJson, htag]
  show (do return Payload.history (← (do
    let events ← Event.listOfJson true (.list (fun e : Event => e.toJson.reread) game.events)
    let winner ← Misread.ofOption (Json.optional? (Outcome.ofJson? true)
      (some (.option Outcome.toJson game.winner)))
    return (⟨events, winner⟩ : History)))) = _
  rw [hwinner]
  cases Event.listOfJson true (.list (fun e : Event => e.toJson.reread) game.events) <;> rfl

/-- **A written payload that lies on the board reads as itself.** -/
theorem ofJson_sorted {p : Payload} (h : p.OnBoard) : ofJson p.sorted.reread = .ok p := by
  cases p with
  | history game =>
    have hevents : Event.listOfJson true (.list (fun e : Event => e.toJson.reread) game.events) =
        .ok game.events :=
      Json.readAll_map fun e he => Event.ofJson_reread_iff.mpr ⟨h e he, rfl⟩
    rw [ofJson_history, hevents]
    rfl
  | score s =>
    have hrow : ofJson (sorted (.score s)) = do
        return .score (← Misread.ofOption (Score.ofJson? s.toJson)) := rfl
    rw [reread_score, hrow, Score.ofJson?_toJson]
    rfl
  | winners os =>
    have houtcomes : Json.readAll? (Outcome.ofJson? true) (os.map Outcome.toJson) = some os :=
      Json.readAll?_map_self fun o _ => Outcome.ofJson?_toJson true o
    have hrow : ofJson (sorted (.winners os)) = do
        return .winners (← Misread.ofOption
          (Json.readAll? (Outcome.ofJson? true) (os.map Outcome.toJson))) := rfl
    rw [reread_winners, hrow, houtcomes]
    rfl

/-- **A written payload that can be read lies on the board.** -/
theorem onBoard_of_sorted {p q : Payload} (h : ofJson p.sorted.reread = .ok q) : p.OnBoard := by
  cases p with
  | history game =>
    intro e he
    rw [ofJson_history] at h
    obtain ⟨events, hevents, -⟩ := exists_of_bind_eq_ok h
    obtain ⟨e', he'⟩ := Json.exists_ok_of_readAll hevents e.toJson.reread (List.mem_map_of_mem he)
    exact (Event.ofJson_reread_iff.mp he').1
  | score s => trivial
  | winners os => trivial

end Payload

/-! ### Entries and feeds -/

/-- The number of the entry, if it has one, is a count of 63 bits. -/
def FeedEntry.Numbered (e : FeedEntry) : Prop := ∀ n, e.id = some n → 0 ≤ n ∧ n < 2 ^ 63

namespace FeedEntry

/-- An entry as it is found by a reader of its text: the payload is what the text of
the payload denotes. -/
def found (e : FeedEntry) : FeedEntry := { e with payload := e.payload.reread.ordered }

/-- A number of 63 bits is written in digits. -/
theorem Numbered.id_eq {e : FeedEntry} (h : e.Numbered) :
    Json.option Json.int e.id = .option Json.nat (e.id.map Int.toNat) := by
  cases hid : e.id with
  | none => rfl
  | some n =>
    have hpos := (h n hid).1
    exact if_neg (by omega)

theorem Numbered.reread_id {e : FeedEntry} (h : e.Numbered) :
    (Json.option Json.int e.id).reread = Json.option Json.int e.id := by
  rw [h.id_eq]
  cases hid : e.id with
  | none => rfl
  | some n =>
    have hlt := (h n hid).2
    have hsize : (2 : Int) ^ 63 < UInt64.size := by decide
    exact Json.numeral_eq_nat (by omega)

theorem Numbered.optional?_id {e : FeedEntry} (h : e.Numbered) :
    Json.optional? Json.int? (some (.option Json.int e.id)) = some e.id := by
  rw [h.id_eq]
  cases hid : e.id with
  | none => rfl
  | some n =>
    obtain ⟨hpos, hlt⟩ := h n hid
    have hsize : (2 : Int) ^ 63 = (UInt64.size / 2 : Nat) := by decide
    have hint : (Json.nat n.toNat).int? = some n := by
      show (if n.toNat < UInt64.size / 2 then some (n.toNat : Int) else none) = some n
      rw [if_pos (by omega), Int.toNat_of_nonneg hpos]
    show (Json.nat n.toNat).int?.map some = some (some n)
    rw [hint]
    rfl

theorem Numbered.inDigits_toJson {e : FeedEntry} (h : e.Numbered) (hp : e.payload.InDigits) :
    e.toJson.InDigits := by
  have hid : (Json.option Json.int e.id).InDigits := by
    rw [h.id_eq]
    exact .option .nat _
  exact .object (by simp [hid, hp, Json.InDigits.string])

/-- An entry is read with its members in the order of their names. -/
theorem Numbered.ordered_reread {e : FeedEntry} (h : e.Numbered) :
    e.toJson.reread.ordered = .object [("id", .option Json.int e.id),
      ("payload", e.payload.reread.ordered), ("type", .string e.kind)] := by
  have hordered : (Json.option Json.int e.id).ordered = Json.option Json.int e.id := by
    rw [h.id_eq]
    exact Json.ordered_option (fun _ => rfl) _
  have hid := h.reread_id
  show Json.object [("id", (Json.option Json.int e.id).reread.ordered), _, _] = _
  rw [hid, hordered]
  rfl

theorem Numbered.isPlain_reread {e : FeedEntry} (h : e.Numbered) {depth : Nat}
    (hp : e.payload.reread.isPlain depth = true) :
    e.toJson.reread.isPlain (depth + 1) = true := by
  have hid : (Json.option Json.int e.id).reread.isPlain depth = true := by
    rw [h.reread_id, h.id_eq]
    exact Json.isPlain_option (Json.isPlain_nat depth) _
  have hkind : (Json.string e.kind).reread.isPlain depth = true := Json.isPlain_string depth _
  exact Json.isPlain_object.mpr (by simp [Json.membersReread_eq, hid, hkind, hp])

/-- **A written entry reads as itself**, with what its payload denotes. -/
theorem Numbered.ofJson?_reread {e : FeedEntry} (h : e.Numbered) :
    ofJson? some e.toJson.reread.ordered = some e.found := by
  have hfields : e.toJson.reread.ordered.fields? ["id", "type", "payload"] 3 =
      some [some (.option Json.int e.id), some (.string e.kind),
        some e.payload.reread.ordered] := by
    rw [h.ordered_reread]
    rfl
  simp only [ofJson?, hfields, h.optional?_id]
  rfl

end FeedEntry

namespace Feed

theorem inDigits_toJson {f : Feed}
    (h : ∀ e ∈ f.entries, e.Numbered ∧ e.payload.InDigits) : f.toJson.InDigits := by
  have hentries : (Json.list FeedEntry.toJson f.entries).InDigits := by
    refine .array fun j hj => ?_
    obtain ⟨e, he, rfl⟩ := List.mem_map.mp hj
    exact (h e he).1.inDigits_toJson (h e he).2
  exact .object (by simpa using hentries)

/-- A feed, as it is read. -/
theorem reread_toJson (f : Feed) : f.toJson.reread =
    .object [("events", .list (fun e : FeedEntry => e.toJson.reread) f.entries)] := by
  show Json.object [("events", .array (Json.itemsReread (f.entries.map FeedEntry.toJson)))] = _
  rw [Json.itemsReread_map]
  rfl

theorem isPlain_reread {f : Feed} {depth : Nat}
    (h : ∀ e ∈ f.entries, e.Numbered ∧ e.payload.reread.isPlain depth = true) :
    f.toJson.reread.isPlain (depth + 3) = true := by
  have hentries : (Json.list (fun e : FeedEntry => e.toJson.reread) f.entries).isPlain
      (depth + 2) = true :=
    Json.isPlain_list.mpr fun e he => (h e he).1.isPlain_reread (h e he).2
  rw [reread_toJson]
  exact Json.isPlain_object.mpr (by simpa using hentries)

theorem ordered_reread (f : Feed) : f.toJson.reread.ordered =
    .object [("events", .array (f.entries.map fun e => e.toJson.reread.ordered))] := by
  rw [reread_toJson, ← Json.itemsOrdered_map]
  rfl

/-- **A written feed reads as its entries do.** -/
theorem ofJson?_reread {f : Feed} (h : ∀ e ∈ f.entries, e.Numbered) :
    ofJson? some f.toJson.reread.ordered = some ⟨f.entries.map FeedEntry.found⟩ := by
  have hentries : Json.readAll? (FeedEntry.ofJson? some)
      (f.entries.map fun e => e.toJson.reread.ordered) = some (f.entries.map FeedEntry.found) :=
    Json.readAll?_map fun e he => (h e he).ofJson?_reread
  have hrow : ofJson? some f.toJson.reread.ordered = (Json.readAll? (FeedEntry.ofJson? some)
      (f.entries.map fun e => e.toJson.reread.ordered)).map Feed.mk := by
    rw [ordered_reread]
    rfl
  rw [hrow, hentries]
  rfl

end Feed

end UltimateTicTacToe
