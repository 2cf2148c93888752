/-
# Events read from their texts

An event can be read from its text in two ways: straight, or by way of a plain value, in
which the members are in order and of those with one name only the last is left. The first
passes over whatever it does not look for, however deep it is and whatever its numbers; the
second wants all of the text to be readable. Where both can be asked, they differ in one
thing only: a field that is given twice, or the letter of an outcome that is
(`Event.repeats`). Read straight that is no event, and the plain value has forgotten it.

So the two never make different events of one text, and a text in which no name is repeated
is an event for both or for neither (`Event.parse_agrees`).

Key definitions: `Event.repeats`.
Key theorems: `Json.letter?_ordered`, `Event.ofJson_ordered`, `Event.ofJson_of_repeats`,
`Event.parse_agrees`.
-/
import UltimateTicTacToe.Archive.Record
import UltimateTicTacToe.Proofs.Archive.Routes
import UltimateTicTacToe.Proofs.Json.Ordered

namespace UltimateTicTacToe

/-! ### Values in order -/

namespace Json

theorem index?_ordered (j : Json) : j.ordered.index? = j.index? := by
  cases j <;> rfl

theorem ordered_eq_null {j : Json} : j.ordered = .null ↔ j = .null := by
  cases j <;> simp [ordered]

/-- A reader that does not see the order does not see it in a field either. -/
theorem optional?_ordered {α : Type} {read : Json → Option α} {w : Option Json}
    (h : ∀ j, w = some j → read j.ordered = read j) :
    optional? read (w.map ordered) = optional? read w := by
  cases w with
  | none => rfl
  | some j =>
    show nullable? read j.ordered = nullable? read j
    by_cases hnull : j = .null
    · rw [hnull]
      rfl
    · rw [nullable?_of_ne_null hnull, nullable?_of_ne_null (mt ordered_eq_null.mp hnull), h j rfl]

/-! ### Letters -/

theorem letter?_object {members : List (String × Json)} {s : String} :
    (object members).letter? false = some s ↔ members = [(s, .null)] := by
  constructor
  · intro h
    unfold letter? at h
    split at h
    · rename_i heq
      cases heq
    · rename_i heq
      rw [object.inj heq, Option.some.inj h]
    · cases h
    · cases h
  · rintro rfl
    rfl

/-- **A letter is that of the value in order**, if no name is repeated. -/
theorem letter?_ordered {j : Json} (h : j.repeatsName = false) :
    j.ordered.letter? false = j.letter? false := by
  cases j with
  | object members =>
    have hnames : (members.map (·.1)).Nodup := by simpa [repeatsName] using h
    refine Option.ext fun s => ?_
    show (object (membersOrdered [] members)).letter? false = some s ↔ _
    rw [letter?_object, letter?_object]
    constructor
    · intro hone
      obtain ⟨v, rfl, hv⟩ := eq_singleton_of_membersOrdered hnames hone
      rw [ordered_eq_null.mp hv]
    · rintro rfl
      rfl
  | _ => rfl

/-- An object in which a name is repeated is no letter. -/
theorem letter?_of_repeatsName {j : Json} (h : j.repeatsName = true) :
    j.letter? false = none := by
  cases j with
  | object members =>
    refine Option.eq_none_iff_forall_ne_some.mpr fun s hs => ?_
    rw [letter?_object.mp hs] at h
    cases h
  | _ => cases h

end Json

/-! ### Events -/

namespace Event

/-- What a reader of events looks for is there twice: one of the fields, or the letter of
an outcome. -/
def repeats (j : Json) : Bool :=
  j.repeatsField ["g", "t", "w", "overall"] || (outcomesGiven j).any Json.repeatsName

theorem ofJson?_ordered {j : Json} (h : repeats j = false) :
    EventShape.ofJson? false j.ordered = EventShape.ofJson? false j := by
  obtain ⟨hfield, hletter⟩ := Bool.or_eq_false_iff.mp h
  have houtcome (w : Option Json) (hw : ∀ j', w = some j' → j' ∈ outcomesGiven j) :
      Json.optional? (Outcome.ofJson? false) (w.map Json.ordered) =
        Json.optional? (Outcome.ofJson? false) w := by
    refine Json.optional?_ordered fun j' hj' => ?_
    have honce : j'.repeatsName = false :=
      Bool.eq_false_iff.mpr (List.any_eq_false.mp hletter j' (hw j' hj'))
    rw [Outcome.ofJson?, Outcome.ofJson?, Json.letter?_ordered honce]
  have hindex (n : Option Json) : Json.optional? Json.index? (n.map Json.ordered) =
      Json.optional? Json.index? n := Json.optional?_ordered fun j' _ => j'.index?_ordered
  unfold EventShape.ofJson?
  rw [Json.fields?_ordered hfield]
  cases hfields : j.fields? ["g", "t", "w", "overall"] 4 with
  | none => rfl
  | some fields =>
    rcases fields with _ | ⟨g, _ | ⟨t, _ | ⟨w, _ | ⟨o, _ | ⟨x, rest⟩⟩⟩⟩⟩
    · rfl
    · rfl
    · rfl
    · rfl
    · have hgiven := outcomesGiven_of_fields? hfields
      have hw := houtcome w (by rintro j' rfl; simp [hgiven])
      have ho := houtcome o (by rintro j' rfl; simp [hgiven])
      simp only [Option.map_some, List.map_cons, List.map_nil, hindex, hw, ho]
    · rfl

theorem ofJson?_of_repeats {j : Json} (h : repeats j = true) :
    EventShape.ofJson? false j = none := by
  unfold EventShape.ofJson?
  rcases Bool.or_eq_true_iff.mp h with hfield | hletter
  · rw [Json.fields?_of_repeatsField hfield]
  · obtain ⟨j', hj', htwice⟩ := List.any_eq_true.mp hletter
    have hno : Json.optional? (Outcome.ofJson? false) (some j') = none := by
      have hnull : j' ≠ .null := by
        rintro rfl
        cases htwice
      show Json.nullable? _ j' = none
      rw [Json.nullable?_of_ne_null hnull, Outcome.ofJson?, Json.letter?_of_repeatsName htwice]
      rfl
    split
    · rename_i g t w o hfields
      rw [outcomesGiven_of_fields? hfields, List.mem_append] at hj'
      split
      · rename_i hw ho
        rcases hj' with hmem | hmem
        · rw [Option.mem_toList.mp hmem, hno] at hw
          cases hw
        · rw [Option.mem_toList.mp hmem, hno] at ho
          cases ho
      · rfl
    · rfl

/-- **An event is that of the value in order**, if nothing that matters is there twice. -/
theorem ofJson_ordered {j : Json} (h : repeats j = false) :
    ofJson false j.ordered = ofJson false j := by
  rw [ofJson, ofJson, ofJson?_ordered h]

/-- A value in which something that matters is there twice is no event. -/
theorem ofJson_of_repeats {j : Json} (h : repeats j = true) :
    ofJson false j = .error .form := by
  rw [ofJson, ofJson?_of_repeats h]

theorem repeats_of_namesOnce {j : Json} (h : j.namesOnce = true) : repeats j = false := by
  have hgiven : ∀ w ∈ outcomesGiven j, w.namesOnce = true := by
    cases j with
    | object members =>
      intro w hw
      have hvalues := (Json.namesOnce_object.mp h).2
      rcases List.mem_append.mp hw with hw | hw
      · exact hvalues _ (Json.mem_named.mp hw)
      · exact hvalues _ (Json.mem_named.mp hw)
    | array items => exact fun w hw => Json.namesOnce_array.mp h w (List.mem_of_mem_drop hw)
    | _ => exact fun w hw => nomatch hw
  rw [repeats, Json.repeatsField_of_namesOnce h, Bool.false_or]
  refine List.any_eq_false.mpr fun w hw => ?_
  rw [Json.repeatsName_of_namesOnce (hgiven w hw)]
  exact Bool.false_ne_true

/-! ### Texts -/

theorem parse_of_parse? {text : String} {j : Json} (h : Json.parse? text = some j) :
    parse text = ofJson false j := by
  rw [parse, h]

/-- Read straight or by way of its plain value, a text makes the same event, or is none for
the same cause, if nothing that matters is there twice. -/
theorem parse_alike {text : String} {j v : Json} (hj : Json.parse? text = some j)
    (hv : j.plain? Json.maxDepth = some v) (h : repeats j = false) :
    Json.Alike ArchiveFault.SameCause (ofValue v) (parse text) := by
  obtain ⟨-, rfl⟩ := Option.ite_some_none_eq_some.mp hv
  rw [parse_of_parse? hj, ← ofJson_ordered h]
  exact ofValue_alike j.ordered

/-- **The two ways of reading an event never contradict each other.** If a text denotes a
plain value and is an event when it is read straight, then the value is the same event. If
moreover no object in it repeats a name, the text is an event if and only if the value
is. -/
theorem parse_agrees {text : String} {v : Json} (h : Json.parsePlain? text = some v) :
    (∀ e, parse text = .ok e → ofValue v = .ok e) ∧
      ((∀ j, Json.parse? text = some j → j.namesOnce = true) →
        ∀ e, parse text = .ok e ↔ ofValue v = .ok e) := by
  obtain ⟨j, hj, hv⟩ := Option.bind_eq_some_iff.mp h
  refine ⟨fun e he => ?_, fun honce e => ?_⟩
  · have honce : repeats j = false := by
      refine Bool.eq_false_iff.mpr fun htwice => ?_
      rw [parse_of_parse? hj, ofJson_of_repeats htwice] at he
      cases he
    exact (parse_alike hj hv honce).ok_iff.mpr he
  · exact (parse_alike hj hv (repeats_of_namesOnce (honce j hj))).ok_iff.symm

/-- An outcome with a field whose name is written as an escape, with one that no event has,
and with its letter as the name of a member. -/
def escapedName : String :=
  "\x7b\"\\u0067\":4,\"x\":[\x7b\"y\":-0.5\x7d],\"w\":\x7b\"R\":null\x7d\x7d"

theorem escapedName_agrees : ∃ v, Json.parsePlain? escapedName = some v ∧
    parse escapedName = .ok (.decided 4 .red) ∧ ofValue v = .ok (.decided 4 .red) ∧
    (∀ j, Json.parse? escapedName = some j → j.namesOnce = true) ∧
    ∀ e, parse escapedName = .ok e ↔ ofValue v = .ok e := by
  obtain ⟨v, hv⟩ : ∃ v, Json.parsePlain? escapedName = some v :=
    Option.isSome_iff_exists.mp (by decide +kernel)
  have hparse : parse escapedName = .ok (.decided 4 .red) := by decide +kernel
  have honce : ∀ j, Json.parse? escapedName = some j → j.namesOnce = true := by
    intro j hj
    have hall : (Json.parse? escapedName).all Json.namesOnce = true := by decide +kernel
    rwa [hj] at hall
  obtain ⟨hagrees, hequally⟩ := parse_agrees hv
  exact ⟨v, hv, hparse, hagrees _ hparse, honce, hequally honce⟩

/-- The letter of an outcome is given twice. -/
def repeatedLetter : String := "\x7b\"overall\":\x7b\"B\":null,\"B\":null\x7d\x7d"

/-- Only the plain value of such a text is an event. -/
example : parse repeatedLetter = .error .form ∧
    (Json.parsePlain? repeatedLetter).map ofValue = some (.ok (.ended .blue)) := by
  decide +kernel

end Event
end UltimateTicTacToe
