/-
# A record survives its feed

The feed of a record names its games, the score and the outcomes one after the other,
and the reader puts them into a record again. Each name is recognised for what it
names (`Slot.ofKind?_kind`), the games arrive in ascending order, and so every one of
them is put at the end of those before it: what is put together is the record
(`Record.fillAll?_parts`). A payload off the board cannot be read, and the reader
stops there.

Key definitions: `Record.fillAll?`, `ArchiveFault.OfFeed`.
Key theorems: `Slot.ofKind?_kind`, `Record.fillAll?_parts`, `Record.parse_of_reread`,
`Record.feed_roundTrip`.
-/
import Mathlib.Data.Fintype.Card
import UltimateTicTacToe.Proofs.Archive.Codec

namespace UltimateTicTacToe

/-! ### Kinds -/

namespace Slot

theorem gameId?_kind (id : UInt32) : gameId? (kind (.game id)) = some id := by
  have hkind : (kind (.game id)).toList =
      'g' :: 'a' :: 'm' :: 'e' :: '_' :: Nat.toDigits 10 id.toNat := by
    rw [kind, String.toList_append, Nat.toString_eq_repr, Nat.toList_repr]
    rfl
  rw [gameId?, hkind]
  show ((Numeral.natural? (Nat.toDigits 10 id.toNat)).filter fun n => n < UInt32.size).map
    UInt32.ofNat = some id
  rw [Numeral.natural?_toDigits, Option.filter_some, if_pos (decide_eq_true id.toNat_lt),
    Option.map_some, UInt32.ofNat_toNat]

/-- **The kind of an entry says what the entry is about.** -/
theorem ofKind?_kind (slot : Slot) : ofKind? slot.kind = some slot := by
  cases slot with
  | game id => rw [ofKind?, gameId?_kind]
  | score => decide
  | winners => decide

end Slot

/-! ### Games -/

namespace Games

theorem eq_of_entries {games games' : Games} (h : games.entries = games'.entries) :
    games = games' := by
  cases games
  cases games'
  cases h
  rfl

/-- A game with a number above all others is put at the end. -/
theorem put_of_lt {id : UInt32} {game : History} : ∀ {entries : List (UInt32 × History)},
    (∀ g ∈ entries, g.1 < id) → put id game entries = entries ++ [(id, game)]
  | [], _ => rfl
  | (other, old) :: rest, h => by
    obtain ⟨hother, hrest⟩ := List.forall_mem_cons.mp h
    have hlt : ¬ id < other := fun hid => UInt32.lt_irrefl _ (UInt32.lt_trans hid hother)
    have hne : id ≠ other := by
      rintro rfl
      exact UInt32.lt_irrefl _ hother
    rw [put, if_neg hlt, if_neg hne, put_of_lt hrest, List.cons_append]

/-- The game with a number is the one that stands beside it. -/
theorem get?_eq_some_iff {games : Games} {id : UInt32} {game : History} :
    games.get? id = some game ↔ (id, game) ∈ games.entries := by
  rw [get?, List.lookup_eq_some_iff]
  constructor
  · rintro ⟨before, after, hsplit, -⟩
    rw [hsplit]
    exact List.mem_append_right _ List.mem_cons_self
  · intro hmem
    obtain ⟨before, after, hsplit⟩ := List.append_of_mem hmem
    refine ⟨before, after, hsplit, fun p hp => bne_iff_ne.mpr fun heq => ?_⟩
    have hascending := games.ascending
    rw [hsplit] at hascending
    have hlt := (List.pairwise_append.mp hascending).2.2 p hp _ List.mem_cons_self
    rw [heq] at hlt
    exact UInt32.lt_irrefl _ hlt

/-- There are no more games than numbers. -/
theorem length_le (games : Games) : games.entries.length ≤ UInt32.size := by
  have hnodup : (games.entries.map fun g => g.1.toFin).Nodup := by
    refine List.pairwise_map.mpr (games.ascending.imp fun hlt heq => ?_)
    rw [UInt32.toFin_inj.mp heq] at hlt
    exact UInt32.lt_irrefl _ hlt
  have hcard := hnodup.length_le_card
  rwa [List.length_map, Fintype.card_fin] at hcard

end Games

/-! ### Filling a record -/

namespace Record

/-- The record with what payloads say about slots, one after the other; none if one of
them says nothing about its slot. -/
def fillAll? (r : Record) : List (Slot × Payload) → Option Record
  | [] => some r
  | (slot, payload) :: parts => (r.fill? slot payload).bind fun s => s.fillAll? parts

theorem fillAll?_append (r : Record) (parts parts' : List (Slot × Payload)) :
    r.fillAll? (parts ++ parts') = (r.fillAll? parts).bind fun s => s.fillAll? parts' := by
  induction parts generalizing r with
  | nil => rfl
  | cons part parts ih =>
    obtain ⟨slot, payload⟩ := part
    rw [List.cons_append, fillAll?, fillAll?, Option.bind_assoc]
    congr 1
    funext s
    exact ih s

/-- Games in ascending order are put behind those that are there. -/
theorem fillAll?_games (r : Record) (games : List (UInt32 × History))
    (h : (r.games.entries ++ games).Pairwise fun a b => a.1 < b.1) :
    r.fillAll? (games.map fun g => (.game g.1, .history g.2)) =
      some { r with games := ⟨r.games.entries ++ games, h⟩ } := by
  induction games generalizing r with
  | nil =>
    have hgames : r.games = ⟨r.games.entries ++ [], h⟩ :=
      Games.eq_of_entries (List.append_nil _).symm
    rw [← hgames]
    rfl
  | cons game games ih =>
    have hbelow : ∀ g ∈ r.games.entries, g.1 < game.1 := fun g hg =>
      (List.pairwise_append.mp h).2.2 g hg game List.mem_cons_self
    have hput : (r.insertGame game.1 game.2).games.entries = r.games.entries ++ [game] :=
      Games.put_of_lt hbelow
    have hentries : (r.insertGame game.1 game.2).games.entries ++ games =
        r.games.entries ++ game :: games := by
      rw [hput, List.append_assoc]
      rfl
    rw [List.map_cons, fillAll?]
    show (r.insertGame game.1 game.2).fillAll? _ = _
    rw [ih _ (hentries ▸ h)]
    simp only [hentries]
    rfl

/-- **The parts of a record make the record.** -/
theorem fillAll?_parts (r : Record) : empty.fillAll? r.parts = some r := by
  obtain ⟨games, score, winners⟩ := r
  have hgames := fillAll?_games empty games.entries games.ascending
  rw [parts, List.append_assoc, fillAll?_append, hgames]
  cases score <;> cases winners <;> rfl

/-! ### Entries -/

/-- An entry of the feed carries a part of the record and a number in its range. -/
theorem mem_entriesFrom {n : Int} {parts : List (Slot × Payload)} {e : FeedEntry}
    (h : e ∈ entriesFrom n parts) : ∃ k part, part ∈ parts ∧ n ≤ k ∧ k < n + parts.length ∧
      e = ⟨some k, part.1.kind, part.2.toJson.ordered⟩ := by
  induction parts generalizing n with
  | nil => cases h
  | cons part parts ih =>
    rw [List.length_cons]
    rcases List.mem_cons.mp h with rfl | h
    · exact ⟨n, part, List.mem_cons_self, by omega, by omega, rfl⟩
    · obtain ⟨k, part', hpart, hlow, hhigh, he⟩ := ih h
      exact ⟨k, part', List.mem_cons_of_mem _ hpart, by omega, by omega, he⟩

/-- The entry for a part, as it is read. -/
theorem found_entry (n : Int) (slot : Slot) (payload : Payload) :
    FeedEntry.found ⟨some n, slot.kind, payload.toJson.ordered⟩ =
      ⟨some n, slot.kind, payload.sorted.reread⟩ := by
  rw [FeedEntry.found, Payload.ordered_toJson, Payload.ordered_reread_sorted]

/-- Entries with payloads on the board fill the record. -/
theorem addAll_found {parts : List (Slot × Payload)} {r s : Record} {n : Int}
    (h : ∀ part ∈ parts, part.2.OnBoard) (hs : r.fillAll? parts = some s) :
    r.addAll ((entriesFrom n parts).map FeedEntry.found) = .ok s := by
  induction parts generalizing r n with
  | nil =>
    cases hs
    rfl
  | cons part parts ih =>
    obtain ⟨slot, payload⟩ := part
    obtain ⟨hpayload, hrest⟩ := List.forall_mem_cons.mp h
    rw [fillAll?] at hs
    obtain ⟨t, ht, hs⟩ := Option.bind_eq_some_iff.mp hs
    have hadd : r.add ⟨some n, slot.kind, payload.sorted.reread⟩ = .ok t := by
      simp only [add, Slot.ofKind?_kind, Payload.ofJson_sorted hpayload, ht]
    rw [entriesFrom, List.map_cons, addAll, found_entry, hadd]
    exact ih hrest hs

/-- Entries that fill a record have payloads on the board. -/
theorem onBoard_of_addAll_found {parts : List (Slot × Payload)} {r s : Record} {n : Int}
    (h : r.addAll ((entriesFrom n parts).map FeedEntry.found) = .ok s) :
    ∀ part ∈ parts, part.2.OnBoard := by
  induction parts generalizing r n with
  | nil => exact fun _ h => nomatch h
  | cons part parts ih =>
    obtain ⟨slot, payload⟩ := part
    rw [entriesFrom, List.map_cons, addAll, found_entry] at h
    split at h
    · rename_i t ht
      refine List.forall_mem_cons.mpr ⟨?_, ih h⟩
      simp only [add, Slot.ofKind?_kind] at ht
      split at ht
      · cases ht
      · rename_i q hq
        exact Payload.onBoard_of_sorted hq
    · cases h

theorem onBoard_iff_parts {r : Record} : r.OnBoard ↔ ∀ part ∈ r.parts, part.2.OnBoard := by
  constructor
  · intro h part hpart
    rw [parts, List.mem_append, List.mem_append] at hpart
    rcases hpart with (hgame | hscore) | hwinners
    · obtain ⟨g, hg, rfl⟩ := List.mem_map.mp hgame
      exact h g hg
    · obtain ⟨s, -, rfl⟩ := Option.map_eq_some_iff.mp (Option.mem_toList.mp hscore)
      trivial
    · obtain ⟨os, -, rfl⟩ := Option.map_eq_some_iff.mp (Option.mem_toList.mp hwinners)
      trivial
  · intro h g hg
    have hmem : (Slot.game g.1, Payload.history g.2) ∈ r.parts := by
      rw [parts, List.mem_append, List.mem_append]
      exact Or.inl (Or.inl (List.mem_map_of_mem hg))
    exact h _ hmem

/-- The entries of a record are numbered within 63 bits. -/
theorem numbered_toFeed (r : Record) : ∀ e ∈ r.toFeed.entries, e.Numbered := by
  intro e he n hn
  obtain ⟨k, part, -, hlow, hhigh, rfl⟩ := mem_entriesFrom he
  cases hn
  have hgames := r.games.length_le
  have hparts : r.parts.length ≤ r.games.entries.length + 2 := by
    rw [parts, List.length_append, List.length_append, List.length_map]
    cases r.score <;> cases r.winners <;> simp
  have hsize : ((UInt32.size + 2 : Nat) : Int) < 2 ^ 63 := by decide
  omega

theorem inDigits_toFeed (r : Record) : r.toFeed.toJson.InDigits := by
  refine Feed.inDigits_toJson fun e he => ⟨numbered_toFeed r e he, ?_⟩
  obtain ⟨k, part, -, -, -, rfl⟩ := mem_entriesFrom he
  rw [Payload.ordered_toJson]
  exact part.2.inDigits_sorted

theorem OnBoard.isPlain_toFeed {r : Record} (h : r.OnBoard) :
    r.toFeed.toJson.reread.isPlain Json.maxDepth = true := by
  show r.toFeed.toJson.reread.isPlain (124 + 3) = true
  refine Feed.isPlain_reread fun e he => ⟨numbered_toFeed r e he, ?_⟩
  obtain ⟨k, part, hpart, -, -, rfl⟩ := mem_entriesFrom he
  rw [Payload.ordered_toJson]
  exact Payload.isPlain_reread_sorted (onBoard_iff_parts.mp h part hpart) 121

end Record

/-! ### Reading a feed -/

/-- The fault lies in the text, in the feed, or in one of its entries; it is not that of
an array of events. -/
def ArchiveFault.OfFeed : ArchiveFault → Prop
  | .notEvent _ => False
  | .event _ => False
  | _ => True

namespace Record

theorem ofFeed_of_add_error {r : Record} {e : FeedEntry} {f : ArchiveFault}
    (h : r.add e = .error f) : f.OfFeed := by
  unfold add at h
  split at h
  · cases h
  · split at h
    · cases h
      trivial
    · split at h
      · cases h
      · cases h
        trivial

theorem ofFeed_of_addAll_error {entries : List FeedEntry} {r : Record} {f : ArchiveFault}
    (h : r.addAll entries = .error f) : f.OfFeed := by
  induction entries generalizing r with
  | nil => cases h
  | cons e entries ih =>
    rw [addAll] at h
    split at h
    · exact ih h
    · rename_i hf
      cases h
      exact ofFeed_of_add_error hf

/-- A text that denotes the feed of a record is read entry by entry, if it can be read
as a plain value. -/
theorem parse_of_reread {r : Record} {text : String}
    (h : Json.parse? text = some r.toFeed.toJson.reread) :
    parse text = if r.toFeed.toJson.reread.isPlain Json.maxDepth then
      empty.addAll (r.toFeed.entries.map FeedEntry.found) else .error .notJson := by
  have hplain : Json.parsePlain? text =
      if r.toFeed.toJson.reread.isPlain Json.maxDepth then some r.toFeed.toJson.reread.ordered
      else none := by
    rw [Json.parsePlain?, h]
    rfl
  have hfeed := Feed.ofJson?_reread (numbered_toFeed r)
  rw [parse, hplain]
  split
  · rename_i j hj
    split at hj
    · rename_i hp
      cases hj
      rw [if_pos hp]
      rw [Feed.ordered_reread] at hfeed ⊢
      simp only [ofValue, hfeed]
      rfl
    · cases hj
  · rename_i hj
    split at hj
    · cases hj
    · rename_i hp
      rw [if_neg hp]

/-- **A text that denotes the feed of a record** reads as the record if that lies on the
board, and is refused as a feed otherwise. -/
theorem parse_feed_iff {r : Record} {text : String}
    (h : Json.parse? text = some r.toFeed.toJson.reread) :
    (parse text = .ok r ↔ r.OnBoard) ∧
      (¬ r.OnBoard → ∃ f, parse text = .error f ∧ f.OfFeed) := by
  have hparse := parse_of_reread h
  refine ⟨⟨onBoard_of_parse, fun hr => ?_⟩, fun hr => ?_⟩
  · rw [hparse, if_pos hr.isPlain_toFeed]
    exact addAll_found (onBoard_iff_parts.mp hr) (fillAll?_parts r)
  · split at hparse
    · cases hadd : empty.addAll (r.toFeed.entries.map FeedEntry.found) with
      | ok s => exact absurd (onBoard_iff_parts.mpr (onBoard_of_addAll_found hadd)) hr
      | error f => exact ⟨f, hparse.trans hadd, ofFeed_of_addAll_error hadd⟩
    · exact ⟨_, hparse, trivial⟩

/-- A record on the board is read again from either text of its feed. -/
theorem OnBoard.parse_toFeed {r : Record} (h : r.OnBoard) :
    ∀ text ∈ [r.toFeed.toJson.compact, r.toFeed.toJson.indented], parse text = .ok r := by
  intro text htext
  rcases List.mem_pair.mp htext with rfl | rfl
  · exact (parse_feed_iff (inDigits_toFeed r).parse?_compact).1.mpr h
  · exact (parse_feed_iff (inDigits_toFeed r).parse?_indented).1.mpr h

/-- **The feed of a record**, in either text, reads as the record exactly if every event
lies on the board, and is refused as a feed otherwise. Whatever else is read does lie on
the board, so it survives being written and read again, and none of its games is refused
for a place off the board. -/
theorem feed_roundTrip :
    (∀ r : Record, ∀ text ∈ [r.toFeed.toJson.compact, r.toFeed.toJson.indented],
      (parse text = .ok r ↔ r.OnBoard) ∧
        (¬ r.OnBoard → ∃ f, parse text = .error f ∧ f.OfFeed)) ∧
    ∀ (text : String) (r : Record), parse text = .ok r →
      r.OnBoard ∧ parse r.toFeed.toJson.compact = .ok r ∧ parse r.toFeed.toJson.indented = .ok r ∧
        ∀ id p, r.timeline id ≠ .error (.game (.offBoard p)) := by
  have hcompact : ∀ r : Record, Json.parse? r.toFeed.toJson.compact = some r.toFeed.toJson.reread :=
    fun r => (inDigits_toFeed r).parse?_compact
  have hindented : ∀ r : Record,
      Json.parse? r.toFeed.toJson.indented = some r.toFeed.toJson.reread :=
    fun r => (inDigits_toFeed r).parse?_indented
  constructor
  · intro r text htext
    rcases List.mem_pair.mp htext with rfl | rfl
    · exact parse_feed_iff (hcompact r)
    · exact parse_feed_iff (hindented r)
  · intro text r h
    have hr := onBoard_of_parse h
    exact ⟨hr, (parse_feed_iff (hcompact r)).1.mpr hr, (parse_feed_iff (hindented r)).1.mpr hr,
      hr.timeline_ne_offBoard⟩

/-- A match with the lowest and the highest number of a game. Neither the outcomes of the
games nor those of the match fit the events. -/
def sampleMatch : Record where
  games := (Games.empty.insert 4294967295
    ⟨[.placed ⟨4, 0⟩, .decided 8 .stalemate, .ended .blue], some .red⟩).insert 0 ⟨[], none⟩
  score := some ⟨1, 0, 4294967295⟩
  winners := some [.red, .stalemate]

/-- The same match with one more game, where a tile has a number too high. -/
def strayMatch : Record := sampleMatch.insertGame 1 ⟨[.placed ⟨8, 8⟩, .placed ⟨8, 9⟩], none⟩

theorem sampleMatch_roundTrip :
    parse sampleMatch.toFeed.toJson.indented = .ok sampleMatch ∧
      parse sampleMatch.toFeed.toJson.compact = .ok sampleMatch ∧
      (∀ id p, sampleMatch.timeline id ≠ .error (.game (.offBoard p))) ∧
      ∃ f, parse strayMatch.toFeed.toJson.compact = .error f ∧ f.OfFeed := by
  obtain ⟨hfeed, hread⟩ := feed_roundTrip
  have hindented : parse sampleMatch.toFeed.toJson.indented = .ok sampleMatch :=
    (hfeed sampleMatch _ (by simp)).1.mpr (by decide)
  obtain ⟨-, hcompact, -, hopen⟩ := hread _ _ hindented
  exact ⟨hindented, hcompact, hopen, (hfeed strayMatch _ List.mem_cons_self).2 (by decide)⟩

end Record

end UltimateTicTacToe
