/-
# Lists of events as texts

A list of events is written as an array, each event as an object of its own fields. If
every event lies on the board, either text of the array reads as the list; if not, the
first event that does not is what the reader complains of (`Event.parseAll_written`). A
number of more than 64 bits cannot be read at all and is left out here.

The reader takes other texts too: with the fields of several kinds of events at once, with
names that mean nothing, with an array in place of an object. Whatever it takes, the
events lie on the board, so they are found again in the texts in which they are written
(`Event.parseAll_codec`).

Key definitions: `Event.place?`, `Event.textsOf`.
Key theorems: `Event.ofValue_offBoard`, `Event.parseAll_written`, `Event.parseAll_codec`.
-/
import UltimateTicTacToe.Proofs.Archive.Codec

namespace UltimateTicTacToe
namespace Event

/-! ### Single events -/

/-- The place that the event names; for a sub-board its first tile. -/
def place? : Event → Option Placement
  | .placed p => some p
  | .decided g _ => some ⟨g, 0⟩
  | .ended _ => none

theorem onBoard_of_place? {e : Event} {p : Placement} (h : e.place? = some p) :
    e.onBoard = p.onBoard := by
  cases e with
  | placed q =>
    obtain rfl := Option.some.inj h
    rfl
  | decided g o =>
    obtain rfl := Option.some.inj h
    exact (Bool.and_true _).symm
  | ended o => cases h

/-- The fields of an event off the board make no event, and the fault says where it lies. -/
theorem ofShape_offBoard {e : Event} {p : Placement} (hp : e.place? = some p)
    (h : p.onBoard = false) : ofShape e.shape = .error (.offBoard p) := by
  rw [← onBoard_of_place? hp] at h
  cases e with
  | placed q =>
    obtain rfl := Option.some.inj hp
    exact if_neg (by simpa [onBoard, Placement.onBoard] using h)
  | decided g o =>
    obtain rfl := Option.some.inj hp
    exact if_neg (by simpa [onBoard] using h)
  | ended o => cases hp

theorem ofValue_onBoard {e : Event} (h : e.onBoard = true) : ofValue e.toJson.reread = .ok e := by
  rw [ofValue, ofJson_reread_iff.mpr ⟨h, rfl⟩]

/-- A written event that lies off the board is refused for the place that it names. -/
theorem ofValue_offBoard {e : Event} {p : Placement} (hfits : e.Fits) (hp : e.place? = some p)
    (h : p.onBoard = false) : ofValue e.toJson.reread = .error (.event (.offBoard p)) := by
  have hread : ofJson false e.toJson.reread = .error (.event (.offBoard p)) := by
    rw [ofJson, (ofJson?_reread false e).1 hfits]
    simp only [ofShape_offBoard hp h]
  rw [ofValue, hread]

/-! ### Texts -/

/-- The texts of the list: the compact one and the indented one. -/
def textsOf (es : List Event) : List String :=
  [(Json.list toJson es).compact, (Json.list toJson es).indented]

/-- Either text of a list denotes the array of its events. -/
theorem parsePlain?_textsOf {es : List Event} (hfits : ∀ e ∈ es, e.Fits) :
    ∀ text ∈ textsOf es, Json.parsePlain? text =
      some (.array (es.map fun e => e.toJson.reread)) := by
  have hdigits : (Json.list toJson es).InDigits := .list inDigits_toJson es
  have hreread : (Json.list toJson es).reread = .list (fun e => e.toJson.reread) es := by
    show Json.array (Json.itemsReread (es.map toJson)) = _
    rw [Json.itemsReread_map]
    rfl
  have hisPlain : (Json.list (fun e : Event => e.toJson.reread) es).isPlain Json.maxDepth = true :=
    Json.isPlain_list.mpr fun e he => isPlain_reread (hfits e he) 125
  have hplain : (Json.list toJson es).reread.plain? Json.maxDepth =
      some (.list (fun e => e.toJson.reread) es) := by
    rw [hreread, Json.plain?, if_pos hisPlain, Json.ordered_list ordered_reread]
  intro text htext
  rcases List.mem_pair.mp htext with rfl | rfl
  · rw [Json.parsePlain?, hdigits.parse?_compact]
    exact hplain
  · rw [Json.parsePlain?, hdigits.parse?_indented]
    exact hplain

/-- **A written list reads as itself if all of it lies on the board**, and is refused for
the first event that does not. -/
theorem parseAll_written {es : List Event} (hfits : ∀ e ∈ es, e.Fits) :
    ∀ text ∈ textsOf es, ((∀ e ∈ es, e.onBoard = true) → parseAll text = .ok es) ∧
      ∀ before e after p, es = before ++ e :: after → (∀ b ∈ before, b.onBoard = true) →
        e.place? = some p → p.onBoard = false →
        parseAll text = .error (.event (.offBoard p)) := by
  intro text htext
  have hparse : parseAll text = Json.readAll ofValue (es.map fun e => e.toJson.reread) := by
    rw [parseAll, parsePlain?_textsOf hfits text htext]
  refine ⟨fun h => ?_, fun before e after p hsplit hbefore hp hoff => ?_⟩
  · rw [hparse]
    exact Json.readAll_map fun e he => ofValue_onBoard (h e he)
  · have hfirst := ofValue_offBoard (hfits e (by simp [hsplit])) hp hoff
    rw [hparse, hsplit, List.map_append, List.map_cons]
    refine Json.readAll_append_error (fun j hj => ?_) hfirst
    obtain ⟨b, hb, rfl⟩ := List.mem_map.mp hj
    exact ⟨b, ofValue_onBoard (hbefore b hb)⟩

theorem onBoard_of_parseAll {text : String} {es : List Event} (h : parseAll text = .ok es) :
    ∀ e ∈ es, e.onBoard = true := by
  unfold parseAll at h
  split at h
  · intro e he
    obtain ⟨j, -, hj⟩ := Json.exists_mem_of_readAll h e he
    exact onBoard_of_ofValue hj
  · cases h

/-- **Lists of events and their texts.** A list of events with numbers of 64 bits, in
either text, reads as itself if all its events lie on the board, and is otherwise refused
for the first that does not, by the place that it names. Whatever text is read, the events
lie on the board, and the texts in which they are written read as the same events. -/
theorem parseAll_codec :
    (∀ es : List Event, (∀ e ∈ es, e.Fits) → ∀ text ∈ textsOf es,
      ((∀ e ∈ es, e.onBoard = true) → parseAll text = .ok es) ∧
      ∀ before e after p, es = before ++ e :: after → (∀ b ∈ before, b.onBoard = true) →
        e.place? = some p → p.onBoard = false →
        parseAll text = .error (.event (.offBoard p))) ∧
    ∀ (text : String) (es : List Event), parseAll text = .ok es →
      (∀ e ∈ es, e.onBoard = true) ∧ ∀ text' ∈ textsOf es, parseAll text' = .ok es := by
  refine ⟨fun es hfits => parseAll_written hfits, fun text es h => ?_⟩
  have hon := onBoard_of_parseAll h
  have hfits : ∀ e ∈ es, e.Fits := fun e he => fits_of_onBoard (hon e he)
  exact ⟨hon, fun text' htext' => (parseAll_written hfits text' htext').1 hon⟩

/-- An array, an object with the fields of two kinds of events, and one with a field that
no event has. -/
def mixedSpellings : Json := .array [
  .array [.nat 0, .nat 4, .null, .null],
  .object [("t", .nat 1), ("w", .string "S"), ("g", .nat 0)],
  .object [("w", .object [("B", .null)]), ("g", .nat 3), ("x", .array [])]]

/-- The outcome of a sub-board that does not exist, and after it a tile that does not. -/
def twiceAstray : List Event :=
  [.placed ⟨0, 4⟩, .decided 18446744073709551615 .red, .placed ⟨4, 9⟩]

theorem mixedSpellings_codec :
    parseAll mixedSpellings.compact = .ok [.placed ⟨0, 4⟩, .placed ⟨0, 1⟩, .decided 3 .blue] ∧
      (∀ text ∈ textsOf [.placed ⟨0, 4⟩, .placed ⟨0, 1⟩, .decided 3 .blue],
        parseAll text = .ok [.placed ⟨0, 4⟩, .placed ⟨0, 1⟩, .decided 3 .blue]) ∧
      ∀ text ∈ textsOf twiceAstray,
        parseAll text = .error (.event (.offBoard ⟨18446744073709551615, 0⟩)) := by
  obtain ⟨hwritten, hread⟩ := parseAll_codec
  have hmixed : parseAll mixedSpellings.compact =
      .ok [.placed ⟨0, 4⟩, .placed ⟨0, 1⟩, .decided 3 .blue] := by
    decide +kernel
  have hfits : ∀ e ∈ twiceAstray, e.Fits := by simp [twiceAstray, Fits, UInt64.size]
  refine ⟨hmixed, (hread _ _ hmixed).2, fun text htext => ?_⟩
  exact (hwritten twiceAstray hfits text htext).2 [.placed ⟨0, 4⟩] _ [.placed ⟨4, 9⟩] _ rfl
    (by decide) rfl (by decide)

end Event
end UltimateTicTacToe
