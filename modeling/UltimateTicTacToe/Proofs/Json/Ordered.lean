/-
# Values in order

A value in order has the names of every object in ascending order, and each of them only
once. What it has for a name is the last that the object has for it
(`Json.named_membersOrdered`), so the order of the members and those that are given again
later are all that is lost.

A reader of fields refuses an object that gives one of them twice. Of every other object
it takes the same fields as of the object in order, with their values in order
(`Json.fields?_ordered`). It can tell the two apart by nothing but a name that is
repeated.

Key definitions: `Json.Ascending`, `Json.repeatsName`, `Json.namesOnce`.
Key theorems: `Json.named_membersOrdered`, `Json.pick?_ordered`, `Json.fields?_ordered`.
-/
import Mathlib.Data.List.Nodup
import UltimateTicTacToe.Proofs.Json.Items

namespace UltimateTicTacToe
namespace Json

variable {members done : List (String × Json)} {name other : String} {value : Json}

/-! ### Members in order -/

/-- The names are in ascending order, and no two members have one name. -/
def Ascending (members : List (String × Json)) : Prop := members.Pairwise fun m n => m.1 < n.1

theorem mem_putMember {m : String × Json} (h : m ∈ putMember name value members) :
    m = (name, value) ∨ m ∈ members := by
  induction members with
  | nil => exact .inl (List.mem_singleton.mp h)
  | cons n members ih =>
    unfold putMember at h
    split at h
    · exact (List.mem_cons.mp h).imp_right (List.mem_cons_of_mem _)
    · split at h
      · exact List.mem_cons.mp h
      · rcases List.mem_cons.mp h with rfl | h
        · exact .inr List.mem_cons_self
        · exact (ih h).imp_right (List.mem_cons_of_mem _)

theorem ascending_putMember (h : Ascending members) :
    Ascending (putMember name value members) := by
  induction members with
  | nil => exact List.pairwise_singleton _ _
  | cons n members ih =>
    obtain ⟨hfirst, hrest⟩ := List.pairwise_cons.mp h
    unfold putMember
    split
    · rename_i heq
      exact List.pairwise_cons.mpr ⟨fun m hm => heq ▸ hfirst m hm, hrest⟩
    · rename_i hne
      split
      · rename_i hlt
        refine List.pairwise_cons.mpr ⟨fun m hm => ?_, h⟩
        rcases List.mem_cons.mp hm with rfl | hm
        · exact hlt
        · exact String.lt_trans hlt (hfirst m hm)
      · rename_i hge
        refine List.pairwise_cons.mpr ⟨fun m hm => ?_, ih hrest⟩
        rcases mem_putMember hm with rfl | hm
        · exact Std.lt_of_le_of_ne (String.not_lt.mp hge) (Ne.symm hne)
        · exact hfirst m hm

/-! ### What the members have for a name -/

theorem named_cons (m : String × Json) (members : List (String × Json)) :
    named name (m :: members) = if m.1 = name then m.2 :: named name members
      else named name members := by
  unfold named
  rw [List.filter_cons]
  split
  · rename_i h
    rw [if_pos (of_decide_eq_true h), List.map_cons]
  · rename_i h
    rw [if_neg (of_decide_eq_false (Bool.eq_false_iff.mpr h))]

theorem named_eq_nil (h : ∀ m ∈ members, m.1 ≠ name) : named name members = [] := by
  unfold named
  rw [List.filter_eq_nil_iff.mpr fun m hm => by simpa using h m hm, List.map_nil]

theorem named_putMember_of_ne (h : name ≠ other) :
    named other (putMember name value members) = named other members := by
  induction members with
  | nil => rw [putMember, named_cons, if_neg h]
  | cons n members ih =>
    unfold putMember
    split
    · rename_i heq
      rw [named_cons, named_cons, if_neg h, if_neg (heq ▸ h)]
    · split
      · rw [named_cons, if_neg h]
      · rw [named_cons, named_cons, ih]

/-- A member that is put is the only one with its name. -/
theorem named_putMember_self (h : Ascending members) :
    named name (putMember name value members) = [value] := by
  induction members with
  | nil => rw [putMember, named_cons, if_pos rfl]; rfl
  | cons n members ih =>
    obtain ⟨hfirst, hrest⟩ := List.pairwise_cons.mp h
    unfold putMember
    split
    · rename_i heq
      have hnone : named name members = [] := named_eq_nil fun m hm hname =>
        String.lt_irrefl n.1 (by simpa [hname, heq] using hfirst m hm)
      rw [named_cons, if_pos rfl, hnone]
    · rename_i hne
      split
      · rename_i hlt
        have hnone : named name (n :: members) = [] := named_eq_nil fun m hm hname => by
          rcases List.mem_cons.mp hm with rfl | hm
          · exact hne hname.symm
          · exact String.lt_irrefl name (String.lt_trans hlt (hname ▸ hfirst m hm))
        rw [named_cons, if_pos rfl, hnone]
      · rw [named_cons, if_neg (Ne.symm hne), ih hrest]

theorem named_membersOrdered_append (h : Ascending done) :
    named name (membersOrdered done members) =
      match (named name members).getLast? with
      | some last => [last.ordered]
      | none => named name done := by
  induction members generalizing done with
  | nil => rfl
  | cons m members ih =>
    rw [membersOrdered, ih (ascending_putMember h), named_cons]
    by_cases hname : m.1 = name
    · subst hname
      rw [if_pos rfl, List.getLast?_cons, named_putMember_self h]
      cases (named m.1 members).getLast? <;> rfl
    · rw [if_neg hname, named_putMember_of_ne hname]

/-- **In order, the last of the members with one name counts.** -/
theorem named_membersOrdered (name : String) (members : List (String × Json)) :
    named name (membersOrdered [] members) =
      ((named name members).getLast?.map ordered).toList := by
  rw [named_membersOrdered_append List.Pairwise.nil]
  cases (named name members).getLast? <;> rfl

/-- An object with one member in order has that member, if no name is repeated. -/
theorem eq_singleton_of_membersOrdered (hnames : (members.map (·.1)).Nodup)
    (h : membersOrdered [] members = [(name, value)]) :
    ∃ v, members = [(name, v)] ∧ v.ordered = value := by
  have hname : ∀ m ∈ members, m.1 = name := by
    intro m hm
    have hgiven : named m.1 members ≠ [] := List.ne_nil_of_mem (mem_named.mpr hm)
    have hlast : named m.1 (membersOrdered [] members) =
        [((named m.1 members).getLast hgiven).ordered] := by
      rw [named_membersOrdered, List.getLast?_eq_some_getLast hgiven]
      rfl
    by_contra hne
    rw [h, named_cons, if_neg (Ne.symm hne)] at hlast
    cases hlast
  rcases members with _ | ⟨m, _ | ⟨n, rest⟩⟩
  · cases h
  · obtain ⟨rfl, rfl⟩ := Prod.mk.inj (List.singleton_inj.mp h)
    exact ⟨m.2, rfl, rfl⟩
  · -- two members cannot both have the name
    have hsame : m.1 = n.1 := (hname m (by simp)).trans (hname n (by simp)).symm
    simp [hsame] at hnames

/-! ### Fields -/

/-- One of the fields is given twice. -/
def repeatsField (names : List String) : Json → Bool
  | .object members => names.any fun name => 1 < (named name members).length
  | _ => false

theorem pick?_eq_none_iff {names : List String} :
    pick? members names = none ↔ ∃ name ∈ names, 1 < (named name members).length := by
  induction names with
  | nil => simp [pick?]
  | cons name names ih =>
    rw [pick?, List.exists_mem_cons_iff, ← ih]
    rcases named name members with _ | ⟨v, _ | ⟨v', rest⟩⟩
    · cases pick? members names <;> simp
    · cases pick? members names <;> simp
    · simp

/-- The fields of an object in order are those of the object, in order. -/
theorem pick?_ordered {names : List String} {values : List (Option Json)}
    (h : pick? members names = some values) :
    pick? (membersOrdered [] members) names = some (values.map (Option.map ordered)) := by
  refine pick?_eq_some_iff.mpr (List.forall₂_map_right_iff.mpr ?_)
  refine (pick?_eq_some_iff.mp h).imp fun name value hvalue => ?_
  rw [named_membersOrdered, hvalue]
  cases value <;> rfl

theorem itemsOrdered_eq (items : List Json) : itemsOrdered items = items.map ordered := by
  have h := itemsOrdered_map id items
  rwa [List.map_id] at h

/-- A reader of fields refuses a value that gives one of them twice. -/
theorem fields?_of_repeatsField {names : List String} {j : Json}
    (h : j.repeatsField names = true) (required : Nat) : j.fields? names required = none := by
  cases j with
  | object members =>
    obtain ⟨name, hname, hmore⟩ := List.any_eq_true.mp h
    exact pick?_eq_none_iff.mpr ⟨name, hname, of_decide_eq_true hmore⟩
  | _ => cases h

/-- **Of any other value it takes the same fields as of the value in order.** -/
theorem fields?_ordered {names : List String} {j : Json} (h : j.repeatsField names = false)
    (required : Nat) : j.ordered.fields? names required =
      (j.fields? names required).map (List.map (Option.map ordered)) := by
  cases j with
  | object members =>
    obtain ⟨values, hvalues⟩ : ∃ values, pick? members names = some values := by
      refine Option.ne_none_iff_exists'.mp fun hnone => ?_
      obtain ⟨name, hname, hmore⟩ := pick?_eq_none_iff.mp hnone
      exact List.any_eq_false.mp h name hname (decide_eq_true hmore)
    show pick? (membersOrdered [] members) names = (pick? members names).map _
    rw [pick?_ordered hvalues, hvalues]
    rfl
  | array items =>
    show (array (itemsOrdered items)).fields? names required = _
    simp only [fields?, itemsOrdered_eq, List.length_map]
    split
    · simp [Function.comp_def]
    · rfl
  | _ => rfl

/-! ### Names that are repeated -/

/-- The value is an object in which two members have one name. -/
def repeatsName : Json → Bool
  | .object members => !decide (members.map (·.1)).Nodup
  | _ => false

mutual

/-- No object in the tree has two members with one name. -/
def namesOnce : Json → Bool
  | .array items => itemsNameOnce items
  | .object members => decide (members.map (·.1)).Nodup && membersNameOnce members
  | _ => true

/-- `namesOnce` of every item. -/
def itemsNameOnce : List Json → Bool
  | [] => true
  | item :: items => namesOnce item && itemsNameOnce items

/-- `namesOnce` of the value of every member. -/
def membersNameOnce : List (String × Json) → Bool
  | [] => true
  | (_, value) :: members => namesOnce value && membersNameOnce members

end

theorem namesOnce_array {items : List Json} :
    (array items).namesOnce = true ↔ ∀ j ∈ items, j.namesOnce = true := by
  show itemsNameOnce items = true ↔ _
  induction items with
  | nil => simp [itemsNameOnce]
  | cons j items ih => rw [itemsNameOnce, Bool.and_eq_true, ih, List.forall_mem_cons]

theorem namesOnce_object : (object members).namesOnce = true ↔
    (members.map (·.1)).Nodup ∧ ∀ m ∈ members, m.2.namesOnce = true := by
  have hvalues : membersNameOnce members = true ↔ ∀ m ∈ members, m.2.namesOnce = true := by
    induction members with
    | nil => simp [membersNameOnce]
    | cons m members ih => rw [membersNameOnce, Bool.and_eq_true, ih, List.forall_mem_cons]
  rw [namesOnce, Bool.and_eq_true, decide_eq_true_iff, hvalues]

theorem repeatsName_of_namesOnce {j : Json} (h : j.namesOnce = true) : j.repeatsName = false := by
  cases j with
  | object members => simp [repeatsName, (namesOnce_object.mp h).1]
  | _ => rfl

theorem length_named (name : String) (members : List (String × Json)) :
    (named name members).length = (members.map (·.1)).count name := by
  induction members with
  | nil => rfl
  | cons m members ih =>
    rw [named_cons, List.map_cons, List.count_cons, ← ih]
    by_cases hname : m.1 = name <;> simp [hname]

theorem repeatsField_of_namesOnce {j : Json} (h : j.namesOnce = true) (names : List String) :
    j.repeatsField names = false := by
  cases j with
  | object members =>
    have hnames := (namesOnce_object.mp h).1
    refine List.any_eq_false.mpr fun name _ => ?_
    have honce := List.nodup_iff_count_le_one.mp hnames name
    simpa [length_named] using honce
  | _ => rfl

end Json
end UltimateTicTacToe
