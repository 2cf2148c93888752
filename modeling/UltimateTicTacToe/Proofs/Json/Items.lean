/-
# Values and lists of values

What a function on JSON trees does to the items of a list it does to each of them.
Of a list that has been written item by item every item can be taken by itself: the
list is plain if the items are (`Json.isPlain_list`), it is put in order by putting
the items in order (`Json.itemsOrdered_map`), and it reads as the list that was
written if each item reads as what was written (`Json.readAll_map`,
`Json.readAll?_map`). A value that may be missing is read as it was written
(`Json.nullable?_option`).

The fields of a record are what its members with their names have for a value
(`Json.pick?_eq_some_iff`), so they change with the members (`Json.pick?_map`). Two
readers that do alike with every value do alike with every list (`Json.readAll_alike`).

Key definitions: `Json.Alike`.
Key theorems: `Json.isPlain_list`, `Json.itemsOrdered_map`, `Json.pick?_map`,
`Json.readAll_map`, `Json.exists_mem_of_readAll`, `Json.exists_ok_of_readAll`,
`Json.readAll_alike`.
-/
import Mathlib.Data.List.Forall2
import UltimateTicTacToe.Json.Fields

namespace UltimateTicTacToe
namespace Json

variable {α β ε : Type}

/-! ### Plain values -/

@[simp] theorem isPlain_string (depth : Nat) (s : String) : (string s).isPlain depth = true := by
  cases depth <;> rfl

@[simp] theorem isPlain_nat (depth n : Nat) : (nat n).isPlain depth = true := by
  cases depth <;> rfl

theorem isPlain_option {depth : Nat} {f : α → Json} (h : ∀ a, (f a).isPlain depth = true)
    (value : Option α) : (option f value).isPlain depth = true := by
  cases value with
  | none => cases depth <;> rfl
  | some a => exact h a

theorem isPlain_list {depth : Nat} {f : α → Json} {as : List α} :
    (list f as).isPlain (depth + 1) = true ↔ ∀ a ∈ as, (f a).isPlain depth = true := by
  show arePlain depth (as.map f) = true ↔ _
  induction as with
  | nil => simp [arePlain]
  | cons a as ih => rw [List.map_cons, arePlain, Bool.and_eq_true, ih, List.forall_mem_cons]

theorem isPlain_object {depth : Nat} {members : List (String × Json)} :
    (object members).isPlain (depth + 1) = true ↔ ∀ m ∈ members, m.2.isPlain depth = true := by
  show membersArePlain depth members = true ↔ _
  induction members with
  | nil => simp [membersArePlain]
  | cons m members ih => rw [membersArePlain, Bool.and_eq_true, ih, List.forall_mem_cons]

/-! ### Values in order -/

theorem itemsOrdered_map (f : α → Json) (as : List α) :
    itemsOrdered (as.map f) = as.map fun a => (f a).ordered := by
  induction as with
  | nil => rfl
  | cons a as ih => rw [List.map_cons, itemsOrdered, ih, List.map_cons]

theorem ordered_list {f : α → Json} (h : ∀ a, (f a).ordered = f a) (as : List α) :
    (list f as).ordered = list f as := by
  show array (itemsOrdered (as.map f)) = array (as.map f)
  rw [itemsOrdered_map, funext h]

theorem ordered_option {f : α → Json} (h : ∀ a, (f a).ordered = f a) (value : Option α) :
    (option f value).ordered = option f value := by
  cases value with
  | none => rfl
  | some a => exact h a

/-! ### Values that are read -/

theorem nullable?_of_ne_null {read : Json → Option α} {j : Json} (h : j ≠ .null) :
    nullable? read j = (read j).map some := by
  cases j with
  | null => exact absurd rfl h
  | _ => rfl

/-- A value that may be missing reads as it was written, if no value is read of `null`. -/
theorem nullable?_option {read : Json → Option α} {f : α → Json} (hnull : read .null = none)
    {value : Option α} (h : ∀ a ∈ value, read (f a) = some a) :
    nullable? read (option f value) = some value := by
  cases value with
  | none => rfl
  | some a =>
    have ha : read (f a) = some a := h a rfl
    have hne : f a ≠ .null := by
      intro heq
      rw [heq, hnull] at ha
      cases ha
    show nullable? read (f a) = some (some a)
    rw [nullable?_of_ne_null hne, ha]
    rfl

/-- A number of 64 bits is all that is read as one. -/
theorem index?_lt {j : Json} {n : Nat} (h : j.index? = some n) : n < UInt64.size := by
  unfold index? at h
  split at h
  · split at h
    · rename_i hn
      cases h
      exact hn
    · cases h
  · cases h

theorem nullable?_index?_lt {j : Json} {value : Option Nat}
    (h : nullable? index? j = some value) : ∀ n ∈ value, n < UInt64.size := by
  intro n hn
  unfold nullable? at h
  split at h
  · cases h
    cases hn
  · obtain ⟨m, hm, rfl⟩ := Option.map_eq_some_iff.mp h
    cases hn
    exact index?_lt hm

/-! ### Fields that are read -/

variable {f : String → Json → Json} {members : List (String × Json)}

theorem mem_named {name : String} {j : Json} :
    j ∈ named name members ↔ (name, j) ∈ members := by
  simp [named]

theorem named_map (name : String) :
    named name (members.map fun m => (m.1, f m.1 m.2)) = (named name members).map (f name) := by
  unfold named
  induction members with
  | nil => rfl
  | cons m members ih =>
    by_cases h : m.1 = name
    · simpa [h] using ih
    · simpa [h] using ih

/-- The fields of an object whose members have been changed one by one. -/
theorem pick?_map (names : List String) :
    pick? (members.map fun m => (m.1, f m.1 m.2)) names =
      (pick? members names).map (List.zipWith (fun name value => value.map (f name)) names) := by
  induction names with
  | nil => rfl
  | cons name names ih =>
    rw [pick?, pick?, named_map, ih]
    rcases named name members with _ | ⟨value, _ | ⟨value', values⟩⟩
    · cases pick? members names <;> rfl
    · cases pick? members names <;> rfl
    · rfl

/-- The fields of an object are the values of the members with their names. -/
theorem pick?_eq_some_iff {names : List String} {values : List (Option Json)} :
    pick? members names = some values ↔
      List.Forall₂ (fun name value => named name members = value.toList) names values := by
  induction names generalizing values with
  | nil => rw [List.forall₂_nil_left_iff, pick?, Option.some.injEq, eq_comm]
  | cons name names ih =>
    rw [List.forall₂_cons_left_iff, pick?]
    constructor
    · intro h
      split at h
      · rename_i rest hnamed hrest
        cases h
        exact ⟨none, rest, hnamed, ih.mp hrest, rfl⟩
      · rename_i value rest hnamed hrest
        cases h
        exact ⟨some value, rest, hnamed, ih.mp hrest, rfl⟩
      · cases h
    · rintro ⟨value, rest, hnamed, hrest, rfl⟩
      rw [hnamed, ih.mpr hrest]
      cases value <;> rfl

/-- A record that may not leave anything out of an array has the items as its fields. -/
theorem fields?_array (names : List String) (items : List Json) :
    (array items).fields? names names.length =
      if names.length ≤ items.length then some (items.map some) else none := by
  rw [fields?]
  split
  · rename_i h
    rw [Nat.sub_eq_zero_of_le h, List.replicate_zero, List.append_nil]
  · rfl

/-! ### Lists that are read -/

variable {ε' : Type} {read : Json → Except ε α} {read' : Json → Except ε' α}

theorem readAll_cons (j : Json) (js : List Json) : readAll read (j :: js) = (do
    let a ← read j
    let as ← readAll read js
    return a :: as) := by
  rw [readAll]
  cases read j with
  | error e => rfl
  | ok a => cases readAll read js <;> rfl

theorem readAll_cons_ok {j : Json} {js : List Json} {as : List α} :
    readAll read (j :: js) = .ok as ↔
      ∃ b bs, read j = .ok b ∧ readAll read js = .ok bs ∧ as = b :: bs := by
  rw [readAll]
  cases read j with
  | error e => simp
  | ok b => cases readAll read js <;> simp [eq_comm]

/-- Everything that is read of a list is read of one of its items. -/
theorem exists_mem_of_readAll : ∀ {js : List Json} {as : List α},
    readAll read js = .ok as → ∀ a ∈ as, ∃ j ∈ js, read j = .ok a
  | [], as, h, a, ha => by
    cases h
    cases ha
  | j :: js, as, h, a, ha => by
    obtain ⟨b, bs, hb, hbs, rfl⟩ := readAll_cons_ok.mp h
    rcases List.mem_cons.mp ha with rfl | ha
    · exact ⟨j, List.mem_cons_self, hb⟩
    · obtain ⟨k, hk, hread⟩ := exists_mem_of_readAll hbs a ha
      exact ⟨k, List.mem_cons_of_mem _ hk, hread⟩

/-- A list can be read only if every item can. -/
theorem exists_ok_of_readAll : ∀ {js : List Json} {as : List α},
    readAll read js = .ok as → ∀ j ∈ js, ∃ a, read j = .ok a
  | [], _, _, _, hk => nomatch hk
  | j :: js, as, h, k, hk => by
    obtain ⟨b, bs, hb, hbs, rfl⟩ := readAll_cons_ok.mp h
    rcases List.mem_cons.mp hk with rfl | hk
    · exact ⟨b, hb⟩
    · exact exists_ok_of_readAll hbs k hk

/-- Reading stops at the first item that cannot be read. -/
theorem readAll_append_error {before after : List Json} {j : Json}
    {e : ε} (h : ∀ k ∈ before, ∃ a, read k = .ok a) (hj : read j = .error e) :
    readAll read (before ++ j :: after) = .error e := by
  induction before with
  | nil =>
    show readAll read (j :: after) = .error e
    rw [readAll, hj]
  | cons k before ih =>
    obtain ⟨⟨a, ha⟩, hbefore⟩ := List.forall_mem_cons.mp h
    rw [List.cons_append, readAll, ha, ih hbefore]

theorem readAll_map {f : α → Json} {as : List α}
    (h : ∀ a ∈ as, read (f a) = .ok a) : readAll read (as.map f) = .ok as := by
  induction as with
  | nil => rfl
  | cons a as ih =>
    rw [List.forall_mem_cons] at h
    rw [List.map_cons, readAll, h.1, ih h.2]

theorem readAll_comp (f : Json → Json) (js : List Json) :
    readAll (fun j => read (f j)) js = readAll read (js.map f) := by
  induction js with
  | nil => rfl
  | cons j js ih => rw [List.map_cons, readAll, readAll, ih]

theorem readAll?_map {read : Json → Option β} {f : α → Json} {g : α → β} {as : List α}
    (h : ∀ a ∈ as, read (f a) = some (g a)) : readAll? read (as.map f) = some (as.map g) := by
  induction as with
  | nil => rfl
  | cons a as ih =>
    rw [List.forall_mem_cons] at h
    rw [List.map_cons, readAll?, h.1, ih h.2, List.map_cons]

theorem readAll?_map_self {read : Json → Option α} {f : α → Json} {as : List α}
    (h : ∀ a ∈ as, read (f a) = some a) : readAll? read (as.map f) = some as := by
  have hmap := readAll?_map (g := id) h
  rwa [List.map_id] at hmap

theorem exists_mem_of_readAll? {read : Json → Option β} : ∀ {js : List Json} {bs : List β},
    readAll? read js = some bs → ∀ b ∈ bs, ∃ j ∈ js, read j = some b
  | [], bs, h, b, hb => by
    cases h
    cases hb
  | j :: js, bs, h, b, hb => by
    rw [readAll?] at h
    split at h
    · rename_i c cs hc hcs
      cases h
      rcases List.mem_cons.mp hb with rfl | hb
      · exact ⟨j, List.mem_cons_self, hc⟩
      · obtain ⟨k, hk, hread⟩ := exists_mem_of_readAll? hcs b hb
        exact ⟨k, List.mem_cons_of_mem _ hk, hread⟩
    · cases h

/-! ### Two readers -/

/-- Two readers have read the same, or have failed for causes that are related. -/
inductive Alike (related : ε → ε' → Prop) : Except ε α → Except ε' α → Prop
  | ok (a : α) : Alike related (.ok a) (.ok a)
  | error {e : ε} {e' : ε'} : related e e' → Alike related (.error e) (.error e')

theorem Alike.ok_iff {related : ε → ε' → Prop} {x : Except ε α} {x' : Except ε' α}
    (h : Alike related x x') {a : α} : x = .ok a ↔ x' = .ok a := by
  cases h with
  | ok b => simp
  | error _ => simp

theorem Alike.bind {β : Type} {related : ε → ε' → Prop} {x : Except ε α} {x' : Except ε' α}
    (h : Alike related x x') {f : α → Except ε β} {f' : α → Except ε' β}
    (hf : ∀ a, Alike related (f a) (f' a)) : Alike related (x >>= f) (x' >>= f') := by
  cases h with
  | ok a => exact hf a
  | error hcause => exact .error hcause

/-- Readers that do alike with every value do alike with every list. -/
theorem readAll_alike {related : ε → ε' → Prop} (h : ∀ j, Alike related (read j) (read' j))
    (js : List Json) : Alike related (readAll read js) (readAll read' js) := by
  induction js with
  | nil => exact .ok []
  | cons j js ih =>
    rw [readAll_cons, readAll_cons]
    exact (h j).bind fun a => ih.bind fun as => .ok (a :: as)

end Json
end UltimateTicTacToe
