/-
# Two routes for the events of a game

The events of a game can be given as an array of values, or as such an array in an entry
of a feed. Both routes look for the same fields, and what they find in them is the same,
with one exception: within an entry a letter may be written as the name of an empty object
(`Json.isHollow`), as if `null` stood there (`Json.filled`).

So an array with such an outcome is refused, and in an entry it is read as if it had been
written with `null`. Where there is none, the routes agree: they take the same events and
find the same faults (`Event.routes_agree`).

Key definitions: `Json.isHollow`, `Event.outcomesGiven`, `Event.filled`,
`ArchiveFault.SameCause`, `RoutesAgree`.
Key theorems: `Event.ofJson_filled`, `Event.readAll_filled`, `Event.routes_agree`.
-/
import UltimateTicTacToe.Proofs.Archive.OnBoard

namespace UltimateTicTacToe

/-! ### Letters -/

namespace Json

/-- An object whose only member is an empty object. -/
def isHollow : Json → Bool
  | .object [(_, .object [])] => true
  | _ => false

/-- The value, with `null` for the empty object if it is hollow. -/
def filled : Json → Json
  | .object [(s, .object [])] => .object [(s, .null)]
  | j => j

theorem filled_of_not_isHollow {j : Json} (h : j.isHollow = false) : j.filled = j := by
  unfold filled
  split
  · cases h
  · rfl

theorem filled_ne_null {j : Json} (h : j ≠ .null) : j.filled ≠ .null := by
  unfold filled
  split
  · nofun
  · exact h

/-- Within a tagged value a letter is read as if it had been filled. -/
theorem letter?_filled (j : Json) : j.letter? true = j.filled.letter? false := by
  unfold filled
  split
  · rfl
  · rename_i h
    unfold letter?
    split
    · rfl
    · rfl
    · exact absurd rfl (h _)
    · rfl

end Json

namespace Outcome

theorem optional?_filled (w : Option Json) :
    Json.optional? (ofJson? true) w = Json.optional? (ofJson? false) (w.map Json.filled) := by
  cases w with
  | none => rfl
  | some j =>
    by_cases h : j = .null
    · rw [h]
      rfl
    · show Json.nullable? _ j = Json.nullable? _ j.filled
      rw [Json.nullable?_of_ne_null h, Json.nullable?_of_ne_null (Json.filled_ne_null h), ofJson?,
        ofJson?, Json.letter?_filled]

/-- Outside of tagged values a hollow letter is none. -/
theorem not_isHollow_of_optional? {j : Json} {o : Option Outcome}
    (h : Json.optional? (ofJson? false) (some j) = some o) : j.isHollow = false := by
  unfold Json.isHollow
  split
  · cases h
  · rfl

end Outcome

/-! ### Fields -/

namespace Event

/-- The values that stand where a reader of events expects an outcome. -/
def outcomesGiven : Json → List Json
  | .object members => Json.named "w" members ++ Json.named "overall" members
  | .array items => items.drop 2
  | _ => []

/-- The value of the member with this name, filled if the name is that of an outcome. -/
def filledAt (name : String) (value : Json) : Json :=
  if name = "w" ∨ name = "overall" then value.filled else value

/-- The value, with the outcomes filled where they are hollow. -/
def filled : Json → Json
  | .object members => .object (members.map fun m => (m.1, filledAt m.1 m.2))
  | .array items => .array (items.take 2 ++ (items.drop 2).map Json.filled)
  | j => j

/-- An outcome in the value is hollow. -/
def GivesHollow (j : Json) : Prop := ∃ w ∈ outcomesGiven j, w.isHollow = true

instance : DecidablePred GivesHollow := fun j =>
  inferInstanceAs (Decidable (∃ w ∈ outcomesGiven j, w.isHollow = true))

theorem fields?_filled (j : Json) : (filled j).fields? ["g", "t", "w", "overall"] 4 =
    (j.fields? ["g", "t", "w", "overall"] 4).map fun fields =>
      fields.take 2 ++ (fields.drop 2).map (Option.map Json.filled) := by
  cases j with
  | object members =>
    show Json.pick? _ _ = (Json.pick? members _).map _
    rw [Json.pick?_map]
    cases hfields : Json.pick? members ["g", "t", "w", "overall"] with
    | none => rfl
    | some fields =>
      obtain ⟨g, t, w, o, rfl⟩ : ∃ g t w o, fields = [g, t, w, o] :=
        List.length_eq_four.mp (Json.pick?_eq_some_iff.mp hfields).length_eq.symm
      have hnumber : filledAt "g" = id ∧ filledAt "t" = id := by simp [funext_iff, filledAt]
      have houtcome : filledAt "w" = Json.filled ∧ filledAt "overall" = Json.filled := by
        simp [funext_iff, filledAt]
      simp [hnumber, houtcome]
  | array items =>
    have hrow (items : List Json) : (Json.array items).fields? ["g", "t", "w", "overall"] 4 =
        if 4 ≤ items.length then some (items.map some) else none :=
      Json.fields?_array ["g", "t", "w", "overall"] items
    have hlength : (items.take 2 ++ (items.drop 2).map Json.filled).length = items.length := by
      rw [List.length_append, List.length_map, ← List.length_append, List.take_append_drop]
    rw [filled, hrow, hrow, hlength]
    split
    · simp only [List.map_append, List.map_take, List.map_drop, List.map_map, Option.map_some]
      rfl
    · rfl
  | _ => rfl

theorem outcomesGiven_of_fields? {j : Json} {g t w o : Option Json}
    (h : j.fields? ["g", "t", "w", "overall"] 4 = some [g, t, w, o]) :
    outcomesGiven j = w.toList ++ o.toList := by
  cases j with
  | object members =>
    have hall := Json.pick?_eq_some_iff.mp h
    simp only [List.forall₂_cons] at hall
    obtain ⟨-, -, hw, ho, -⟩ := hall
    rw [outcomesGiven, hw, ho]
  | array items =>
    have hrow : (if 4 ≤ items.length then some (items.map some) else none) = some [g, t, w, o] :=
      (Json.fields?_array ["g", "t", "w", "overall"] items).symm.trans h
    split at hrow
    · have hdrop : (items.drop 2).map some = [w, o] := by
        rw [List.map_drop, Option.some.inj hrow]
        rfl
      obtain ⟨jw, rest, hitems, rfl, hrest⟩ := List.map_eq_cons_iff.mp hdrop
      obtain ⟨jo, rfl, rfl⟩ := List.map_eq_singleton_iff.mp hrest
      exact hitems
    · cases hrow
  | _ => cases h

theorem ofJson?_filled (j : Json) :
    EventShape.ofJson? true j = EventShape.ofJson? false (filled j) := by
  unfold EventShape.ofJson?
  rw [fields?_filled]
  rcases j.fields? ["g", "t", "w", "overall"] 4 with _ | fields
  · rfl
  · rcases fields with _ | ⟨g, _ | ⟨t, _ | ⟨w, _ | ⟨o, _ | ⟨x, rest⟩⟩⟩⟩⟩
    · rfl
    · rfl
    · rfl
    · rfl
    · simp only [Outcome.optional?_filled]
      rfl
    · rfl

/-- **Within an entry an event is read as if its outcomes had been filled.** -/
theorem ofJson_filled (j : Json) : ofJson true j = ofJson false (filled j) := by
  rw [ofJson, ofJson, ofJson?_filled]

theorem filled_of_not_givesHollow {j : Json} (h : ¬ GivesHollow j) : filled j = j := by
  have hsolid : ∀ w ∈ outcomesGiven j, w.filled = w := fun w hw =>
    Json.filled_of_not_isHollow (Bool.eq_false_iff.mpr fun hhollow => h ⟨w, hw, hhollow⟩)
  cases j with
  | object members =>
    have hmember : ∀ m ∈ members, (m.1, filledAt m.1 m.2) = m := by
      intro (name, value) hm
      have hnamed : value ∈ Json.named name members := Json.mem_named.mpr hm
      by_cases hname : name = "w" ∨ name = "overall"
      · have hgiven : value ∈ outcomesGiven (.object members) := by
          rcases hname with rfl | rfl
          · exact List.mem_append_left _ hnamed
          · exact List.mem_append_right _ hnamed
        rw [filledAt, if_pos hname, hsolid value hgiven]
      · rw [filledAt, if_neg hname]
    rw [filled, List.map_congr_left hmember, List.map_id']
  | array items =>
    have hitems : (items.drop 2).map Json.filled = items.drop 2 :=
      (List.map_congr_left hsolid).trans (List.map_id' _)
    rw [filled, hitems, List.take_append_drop]
  | _ => rfl

/-- Outside of entries an event with a hollow outcome is none. -/
theorem not_givesHollow_of_ofJson {j : Json} {e : Event} (h : ofJson false j = .ok e) :
    ¬ GivesHollow j := by
  obtain ⟨s, hs, -⟩ := ofJson_ok h
  unfold EventShape.ofJson? at hs
  split at hs
  · rename_i g t w o hfields
    split at hs
    · rename_i hw ho
      rintro ⟨j', hj', hhollow⟩
      rw [outcomesGiven_of_fields? hfields, List.mem_append] at hj'
      rcases hj' with hmem | hmem
      · obtain rfl := Option.mem_toList.mp hmem
        rw [Outcome.not_isHollow_of_optional? hw] at hhollow
        cases hhollow
      · obtain rfl := Option.mem_toList.mp hmem
        rw [Outcome.not_isHollow_of_optional? ho] at hhollow
        cases hhollow
    · cases hs
  · cases hs

end Event

/-! ### Lists of events -/

/-- The faults are the same but for their wording: a value does not have the form of an
event, or the event with its fields is none. -/
inductive ArchiveFault.SameCause : ArchiveFault → Misread → Prop
  | form (text : String) : SameCause (.notEvent text) .form
  | event (cause : EventFault) : SameCause (.event cause) (.event cause)

namespace Event

theorem ofValue_alike (j : Json) :
    Json.Alike ArchiveFault.SameCause (ofValue j) (ofJson false j) := by
  unfold ofValue
  cases ofJson false j with
  | ok e => exact .ok e
  | error cause =>
    cases cause with
    | form => exact .error (.form _)
    | event cause => exact .error (.event cause)

/-- **A list in an entry is read as the array with its outcomes filled.** -/
theorem readAll_filled (vs : List Json) : Json.Alike ArchiveFault.SameCause
    (Json.readAll ofValue (vs.map filled)) (Json.readAll (ofJson true) vs) := by
  rw [funext ofJson_filled, Json.readAll_comp filled vs]
  exact Json.readAll_alike ofValue_alike _

theorem not_givesHollow_of_readAll {vs : List Json} {es : List Event}
    (h : Json.readAll ofValue vs = .ok es) : ∀ v ∈ vs, ¬ GivesHollow v := by
  intro v hv
  obtain ⟨e, he⟩ := Json.exists_ok_of_readAll h v hv
  have halike := ofValue_alike v
  rw [he] at halike
  cases hread : ofJson false v with
  | ok e' => exact not_givesHollow_of_ofJson hread
  | error cause =>
    rw [hread] at halike
    cases halike

end Event

/-! ### Entries -/

/-- The payload with these events, its members in either order. -/
def gamePayloads (vs : List Json) : List Json :=
  [.object [("type", .string "GameHistory"), ("events", .array vs)],
    .object [("events", .array vs), ("type", .string "GameHistory")]]

/-- The feed with a single entry, which is about game 1. -/
def gameFeed (id : Option Int) (payload : Json) : Feed := ⟨[⟨id, "game_1", payload⟩]⟩

/-- The record of such a feed, from what is read of the events. -/
def Record.ofGame : Except Misread (List Event) → Except ArchiveFault Record
  | .ok es => .ok (empty.insertGame 1 ⟨es, none⟩)
  | .error cause => .error (.payload "game_1" cause)

theorem Record.ofFeed_gameFeed {id : Option Int} {vs : List Json} {payload : Json}
    (h : payload ∈ gamePayloads vs) :
    ofFeed (gameFeed id payload) = ofGame (Json.readAll (Event.ofJson true) vs) := by
  have hkind : Slot.ofKind? "game_1" = some (.game 1) := by decide
  have hread : Payload.ofJson payload =
      (do return Payload.history (← History.ofJson true (.object [("events", .array vs)]))) := by
    rcases List.mem_pair.mp h with rfl | rfl
    · rfl
    · rfl
  have hhistory : History.ofJson true (.object [("events", .array vs)]) = (do
      let events ← Json.readAll (Event.ofJson true) vs
      return (⟨events, none⟩ : History)) := rfl
  rw [ofFeed, gameFeed, addAll, add, hkind, hread, hhistory]
  cases Json.readAll (Event.ofJson true) vs <;> rfl

/-- What the routes make of the same events: the game 1 of a record is the list, or the
faults have the same cause. -/
inductive RoutesAgree : Except ArchiveFault (List Event) → Except ArchiveFault Record → Prop
  | events {es : List Event} {r : Record} :
      r.games.get? 1 = some ⟨es, none⟩ → RoutesAgree (.ok es) (.ok r)
  | fault {f : ArchiveFault} {cause : Misread} :
      f.SameCause cause → RoutesAgree (.error f) (.error (.payload "game_1" cause))

theorem RoutesAgree.ofGame {list : Except ArchiveFault (List Event)}
    {events : Except Misread (List Event)} (h : Json.Alike ArchiveFault.SameCause list events) :
    RoutesAgree list (Record.ofGame events) := by
  cases h with
  | ok es => exact .events rfl
  | error hcause => exact .fault hcause

theorem RoutesAgree.ok_iff {list : Except ArchiveFault (List Event)}
    {record : Except ArchiveFault Record} (h : RoutesAgree list record) {es : List Event} :
    list = .ok es ↔ ∃ r, record = .ok r ∧ (r.games.get? 1).map (·.events) = some es := by
  cases h with
  | events hgame => simp [hgame]
  | fault => simp

namespace Event

theorem filled_agrees (id : Option Int) {vs : List Json} {payload : Json}
    (h : payload ∈ gamePayloads vs) :
    RoutesAgree (Json.readAll ofValue (vs.map filled)) (Record.ofFeed (gameFeed id payload)) := by
  rw [Record.ofFeed_gameFeed h]
  exact .ofGame (readAll_filled vs)

/-- **Both routes take the same events**, but for hollow outcomes. An array is read as
certain events if and only if no outcome in it is hollow and a feed with them is read, the
game 1 of which has these events. If no outcome is hollow the routes agree on faults as
well, and if one is then the feed is read as if it had been filled. -/
theorem routes_agree (id : Option Int) (vs : List Json) : ∀ payload ∈ gamePayloads vs,
    (∀ es, Json.readAll ofValue vs = .ok es ↔ (∀ v ∈ vs, ¬ GivesHollow v) ∧
      ∃ r, Record.ofFeed (gameFeed id payload) = .ok r ∧
        (r.games.get? 1).map (·.events) = some es) ∧
    ((∀ v ∈ vs, ¬ GivesHollow v) →
      RoutesAgree (Json.readAll ofValue vs) (Record.ofFeed (gameFeed id payload))) ∧
    RoutesAgree (Json.readAll ofValue (vs.map filled))
      (Record.ofFeed (gameFeed id payload)) := by
  intro payload hpayload
  have hfilled := filled_agrees id hpayload
  have hsolid (h : ∀ v ∈ vs, ¬ GivesHollow v) :
      RoutesAgree (Json.readAll ofValue vs) (Record.ofFeed (gameFeed id payload)) := by
    have hmap : vs.map filled = vs :=
      (List.map_congr_left fun v hv => filled_of_not_givesHollow (h v hv)).trans (List.map_id' vs)
    rwa [hmap] at hfilled
  refine ⟨fun es => ?_, hsolid, hfilled⟩
  constructor
  · intro h
    have hnone := not_givesHollow_of_readAll h
    exact ⟨hnone, (hsolid hnone).ok_iff.mp h⟩
  · rintro ⟨hnone, h⟩
    exact (hsolid hnone).ok_iff.mpr h

/-- An outcome whose letter is the name of an empty object. -/
def hollowWinner : Json := .object [("g", .nat 0), ("w", .object [("R", .object [])])]

/-- An array with nothing but this outcome is refused, and a feed with it is not. -/
theorem hollowWinner_divides : (∀ es, Json.readAll ofValue [hollowWinner] ≠ .ok es) ∧
    ∀ payload ∈ gamePayloads [hollowWinner],
      ∃ r, Record.ofFeed (gameFeed none payload) = .ok r ∧
        (r.games.get? 1).map (·.events) = some [.decided 0 .red] := by
  refine ⟨nofun, fun payload hpayload => ?_⟩
  exact ⟨_, Record.ofFeed_gameFeed hpayload, rfl⟩

/-- An array, an object with the fields of two kinds of events, and one with a field that
no event has. -/
def unlikeSpellings : List Json := [
  .array [.nat 0, .nat 4, .null, .null],
  .object [("t", .nat 1), ("w", .string "S"), ("g", .nat 0)],
  .object [("w", .object [("B", .null)]), ("g", .nat 3), ("x", .array [])]]

theorem unlikeSpellings_routes :
    let feed := gameFeed none (.object [("type", .string "GameHistory"),
      ("events", .array unlikeSpellings)])
    RoutesAgree (Json.readAll ofValue unlikeSpellings) (Record.ofFeed feed) ∧
      ∃ r, Record.ofFeed feed = .ok r ∧ (r.games.get? 1).map (·.events) =
        some [.placed ⟨0, 4⟩, .placed ⟨0, 1⟩, .decided 3 .blue] := by
  intro feed
  obtain ⟨hok, hsolid, -⟩ := routes_agree none unlikeSpellings _ List.mem_cons_self
  exact ⟨hsolid (by decide), ((hok _).mp rfl).2⟩

end Event
end UltimateTicTacToe
