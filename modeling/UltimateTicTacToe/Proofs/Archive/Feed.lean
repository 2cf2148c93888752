/-
# What a feed says

Entries of a kind that names nothing are passed over, and their payloads are never looked
at. A feed can be read if every other entry carries a payload that says something about
what its kind names, and the first entry that does not is the one that is complained of.
The record then holds, of each thing, what the last entry about it says
(`Record.ofFeed_saysLast`).

So the payloads about each thing, in their order, are all that a feed has to say, and two
feeds in which they agree make the same record (`Record.addAll_congr`): such as those that
differ in entries about nothing, in the ids, or in the order of entries about different
things (`FeedEdit`).

Key definitions: `FeedEntry.Says`, `FeedEntry.LastSays`, `Record.said?`, `FeedEdit`,
`Feed.SaysLast`.
Key theorems: `Record.said?_of_addAll`, `Record.addAll_eq_error_iff`,
`Record.addAll_congr`, `Record.ofFeed_saysLast`.
-/
import Mathlib.Logic.Relation
import UltimateTicTacToe.Proofs.Archive.Kind
import UltimateTicTacToe.Proofs.Archive.RoundTrip
import UltimateTicTacToe.Proofs.Record

namespace UltimateTicTacToe

/-! ### Entries -/

/-- The payload has something to say about the slot. -/
def Payload.IsFor : Payload → Slot → Prop
  | .history _, .game _ => True
  | .score _, .score => True
  | .winners _, .winners => True
  | _, _ => False

namespace FeedEntry

/-- The entry is about the slot, and this is what it says. -/
structure Says (e : FeedEntry) (slot : Slot) (payload : Payload) : Prop where
  named : slot.NamedBy e.kind
  read : Payload.ofJson e.payload = .ok payload
  isFor : payload.IsFor slot

/-- The entry says something about what it is about, if it is about anything. -/
def Readable (e : FeedEntry) : Prop :=
  ∀ slot : Slot, slot.NamedBy e.kind → ∃ payload, e.Says slot payload

/-- The entry is about something and does not say anything about it: its payload cannot
be read, or is for something else. -/
inductive FailsWith (e : FeedEntry) : ArchiveFault → Prop
  | payload {slot : Slot} {cause : Misread} : slot.NamedBy e.kind →
      Payload.ofJson e.payload = .error cause → FailsWith e (.payload e.kind cause)
  | mismatch {slot : Slot} {payload : Payload} : slot.NamedBy e.kind →
      Payload.ofJson e.payload = .ok payload → ¬ payload.IsFor slot →
      FailsWith e (.mismatch e.kind payload)

/-- Of the entries about the slot the last one says this. -/
def LastSays (es : List FeedEntry) (slot : Slot) (payload : Payload) : Prop :=
  ∃ before e after, es = before ++ e :: after ∧ e.Says slot payload ∧
    ∀ e' ∈ after, ¬ slot.NamedBy e'.kind

theorem lastSays_snoc {es : List FeedEntry} {e : FeedEntry} {slot : Slot} {payload : Payload} :
    LastSays (es ++ [e]) slot payload ↔
      e.Says slot payload ∨ (¬ slot.NamedBy e.kind ∧ LastSays es slot payload) := by
  constructor
  · rintro ⟨before, e', after, hsplit, htells, hafter⟩
    rcases snoc_eq_append_cons.mp hsplit with ⟨-, rfl, -⟩ | ⟨init, rfl, hes⟩
    · exact Or.inl htells
    · obtain ⟨hinit, he⟩ := List.forall_mem_append.mp hafter
      exact Or.inr ⟨he e (List.mem_singleton.mpr rfl), before, e', init, hes, htells, hinit⟩
  · rintro (htells | ⟨hnot, before, e', init, rfl, htells, hinit⟩)
    · exact ⟨es, e, [], rfl, htells, List.forall_mem_nil _⟩
    · refine ⟨before, e', init ++ [e], by simp, htells, List.forall_mem_append.mpr ⟨hinit, ?_⟩⟩
      simpa using hnot

/-- The payloads of the entries about the slot, in their order. -/
def payloadsAbout (slot : Slot) (es : List FeedEntry) : List Json :=
  (es.filter fun e => slot.NamedBy e.kind).map (·.payload)

theorem mem_payloadsAbout {slot : Slot} {es : List FeedEntry} {j : Json} :
    j ∈ payloadsAbout slot es ↔ ∃ e ∈ es, slot.NamedBy e.kind ∧ e.payload = j := by
  simp [payloadsAbout, and_assoc]

theorem payloadsAbout_append (slot : Slot) (as bs : List FeedEntry) :
    payloadsAbout slot (as ++ bs) = payloadsAbout slot as ++ payloadsAbout slot bs := by
  rw [payloadsAbout, List.filter_append, List.map_append]
  rfl

theorem payloadsAbout_cons (slot : Slot) (e : FeedEntry) (es : List FeedEntry) :
    payloadsAbout slot (e :: es) =
      if slot.NamedBy e.kind then e.payload :: payloadsAbout slot es
      else payloadsAbout slot es := by
  unfold payloadsAbout
  split
  · rename_i h
    rw [List.filter_cons_of_pos (by simpa using h), List.map_cons]
  · rename_i h
    rw [List.filter_cons_of_neg (by simpa using h)]

/-- The last entry about a slot carries the last of the payloads about it. -/
theorem lastSays_iff {es : List FeedEntry} {slot : Slot} {payload : Payload} :
    LastSays es slot payload ↔ ∃ j, (payloadsAbout slot es).getLast? = some j ∧
      Payload.ofJson j = .ok payload ∧ payload.IsFor slot := by
  induction es using List.reverseRecOn with
  | nil => simp [LastSays, payloadsAbout]
  | append_singleton es e ih =>
    rw [lastSays_snoc, payloadsAbout_append, payloadsAbout_cons]
    by_cases h : slot.NamedBy e.kind
    · rw [if_pos h]
      show _ ↔ ∃ j, (payloadsAbout slot es ++ [e.payload]).getLast? = some j ∧ _
      rw [List.getLast?_concat]
      constructor
      · rintro (htells | ⟨hnot, -⟩)
        · exact ⟨e.payload, rfl, htells.read, htells.isFor⟩
        · exact absurd h hnot
      · rintro ⟨j, hj, hread, hfor⟩
        obtain rfl := Option.some.inj hj
        exact Or.inl ⟨h, hread, hfor⟩
    · rw [if_neg h]
      show _ ↔ ∃ j, (payloadsAbout slot es ++ []).getLast? = some j ∧ _
      rw [List.append_nil, ← ih]
      constructor
      · rintro (htells | ⟨-, hlast⟩)
        · exact absurd htells.named h
        · exact hlast
      · exact fun hlast => Or.inr ⟨h, hlast⟩

theorem exists_lastSays {es : List FeedEntry} (hes : ∀ e ∈ es, e.Readable) {slot : Slot}
    {e : FeedEntry} (he : e ∈ es) (hnamed : slot.NamedBy e.kind) :
    ∃ payload, LastSays es slot payload := by
  have hne : payloadsAbout slot es ≠ [] :=
    List.ne_nil_of_mem (mem_payloadsAbout.mpr ⟨e, he, hnamed, rfl⟩)
  obtain ⟨e', he', hnamed', hlast⟩ := mem_payloadsAbout.mp (List.getLast_mem hne)
  obtain ⟨payload, htells⟩ := hes e' he' slot hnamed'
  refine ⟨payload, lastSays_iff.mpr ⟨_, List.getLast?_eq_some_getLast hne, ?_, htells.isFor⟩⟩
  rw [← hlast]
  exact htells.read

end FeedEntry

/-! ### Games -/

namespace Games

theorem lookup_cons (id id' : UInt32) (game : History) (entries : List (UInt32 × History)) :
    ((id, game) :: entries).lookup id' = if id = id' then some game else entries.lookup id' := by
  by_cases h : id = id'
  · rw [h, List.lookup_cons_self, if_pos rfl]
  · have hne : (id' == id) = false := beq_false_of_ne (Ne.symm h)
    rw [List.lookup_cons, hne, if_neg h]

theorem lookup_put (id id' : UInt32) (game : History) : ∀ entries : List (UInt32 × History),
    (put id game entries).lookup id' = if id = id' then some game else entries.lookup id'
  | [] => lookup_cons id id' game []
  | (other, old) :: rest => by
    unfold put
    split
    · exact lookup_cons id id' game _
    · split
      · rename_i heq
        rw [lookup_cons, lookup_cons, ← heq]
        split
        · rfl
        · rfl
      · rename_i hne
        rw [lookup_cons, lookup_cons, lookup_put id id' game rest]
        by_cases h : id = id'
        · rw [if_pos h, if_pos h, if_neg fun hother => hne (h.trans hother.symm)]
        · rw [if_neg h, if_neg h]

theorem get?_insert (games : Games) (id id' : UInt32) (game : History) :
    (games.insert id game).get? id' = if id = id' then some game else games.get? id' :=
  lookup_put id id' game games.entries

/-- Games are known by what there is for each number. -/
theorem ext_get? {games games' : Games} (h : ∀ id, games.get? id = games'.get? id) :
    games = games' := by
  have hmem (g : UInt32 × History) : g ∈ games.entries ↔ g ∈ games'.entries := by
    rw [← get?_eq_some_iff, ← get?_eq_some_iff, h]
  have hnodup (games : Games) : games.entries.Nodup := by
    refine List.Pairwise.imp ?_ games.ascending
    rintro a b hlt rfl
    exact UInt32.lt_irrefl _ hlt
  have hperm : games.entries.Perm games'.entries :=
    (List.perm_ext_iff_of_nodup (hnodup games) (hnodup games')).mpr hmem
  refine eq_of_entries (hperm.eq_of_pairwise (fun a b _ _ hab hba => ?_) games.ascending
    games'.ascending)
  exact absurd (UInt32.lt_trans hab hba) (UInt32.lt_irrefl _)

end Games

/-! ### Records -/

namespace Record

/-- What the record says about a slot. -/
def said? (r : Record) : Slot → Option Payload
  | .game id => (r.games.get? id).map .history
  | .score => r.score.map .score
  | .winners => r.winners.map .winners

/-- Records that say the same about everything are the same. -/
theorem ext_said? {r r' : Record} (h : ∀ slot, r.said? slot = r'.said? slot) : r = r' := by
  obtain ⟨games, score, winners⟩ := r
  obtain ⟨games', score', winners'⟩ := r'
  have hgames : games = games' := Games.ext_get? fun id =>
    Option.map_injective (fun _ _ => Payload.history.inj) (h (.game id))
  have hscore : score = score' :=
    Option.map_injective (fun _ _ => Payload.score.inj) (h .score)
  have hwinners : winners = winners' :=
    Option.map_injective (fun _ _ => Payload.winners.inj) (h .winners)
  rw [hgames, hscore, hwinners]

theorem said?_empty (slot : Slot) : empty.said? slot = none := by
  cases slot <;> rfl

/-- A payload that is for the slot is what the record says about it then, and about
everything else it says what it did. -/
theorem exists_fill? {payload : Payload} {slot : Slot} (r : Record) (h : payload.IsFor slot) :
    ∃ s, r.fill? slot payload = some s ∧
      ∀ slot', s.said? slot' = if slot = slot' then some payload else r.said? slot' := by
  cases payload with
  | history game =>
    cases slot with
    | game id =>
      refine ⟨_, rfl, fun slot' => ?_⟩
      cases slot' with
      | game id' =>
        simp only [said?, insertGame, Games.get?_insert, Slot.game.injEq]
        split
        · rfl
        · rfl
      | score => rfl
      | winners => rfl
    | score => exact h.elim
    | winners => exact h.elim
  | score score =>
    cases slot with
    | game id => exact h.elim
    | score => exact ⟨_, rfl, fun slot' => by cases slot' <;> rfl⟩
    | winners => exact h.elim
  | winners outcomes =>
    cases slot with
    | game id => exact h.elim
    | score => exact h.elim
    | winners => exact ⟨_, rfl, fun slot' => by cases slot' <;> rfl⟩

theorem fill?_eq_none {payload : Payload} {slot : Slot} (r : Record) (h : ¬ payload.IsFor slot) :
    r.fill? slot payload = none := by
  cases payload <;> cases slot <;> first | rfl | exact absurd trivial h

/-! ### One entry -/

theorem add_of_not_named {e : FeedEntry} (r : Record) (h : ∀ slot : Slot, ¬ slot.NamedBy e.kind) :
    r.add e = .ok r := by
  rw [add, Slot.ofKind?_eq_none_iff.mpr h]

/-- An entry that says something is taken into the record. -/
theorem exists_add {e : FeedEntry} {slot : Slot} {payload : Payload} (r : Record)
    (h : e.Says slot payload) : ∃ s, r.add e = .ok s ∧
      ∀ slot', s.said? slot' = if slot = slot' then some payload else r.said? slot' := by
  obtain ⟨s, hs, hsaid⟩ := r.exists_fill? h.isFor
  refine ⟨s, ?_, hsaid⟩
  rw [add, Slot.ofKind?_eq_some_iff.mpr h.named]
  simp only [h.read, hs]

/-- Whether an entry is refused, and why, depends on nothing but the entry. -/
theorem add_eq_error_iff {e : FeedEntry} {f : ArchiveFault} (r : Record) :
    r.add e = .error f ↔ e.FailsWith f := by
  cases hkind : Slot.ofKind? e.kind with
  | none =>
    have hnot := Slot.ofKind?_eq_none_iff.mp hkind
    rw [r.add_of_not_named hnot]
    refine iff_of_false nofun ?_
    rintro (⟨hnamed, -⟩ | ⟨hnamed, -, -⟩)
    · exact hnot _ hnamed
    · exact hnot _ hnamed
  | some slot =>
    have hnamed := Slot.ofKind?_eq_some_iff.mp hkind
    rw [add, hkind]
    cases hread : Payload.ofJson e.payload with
    | error cause =>
      simp only [Except.error.injEq]
      constructor
      · rintro rfl
        exact .payload hnamed hread
      · rintro (⟨-, hread'⟩ | ⟨-, hread', -⟩)
        · rw [hread] at hread'
          rw [Except.error.inj hread']
        · rw [hread] at hread'
          cases hread'
    | ok payload =>
      by_cases hfor : payload.IsFor slot
      · obtain ⟨s, hs, -⟩ := r.exists_fill? hfor
        simp only [hs]
        refine iff_of_false nofun ?_
        rintro (⟨-, hread'⟩ | ⟨hnamed', hread', hnot⟩)
        · rw [hread] at hread'
          cases hread'
        · rw [hread] at hread'
          rw [← Except.ok.inj hread', hnamed'.unique hnamed] at hnot
          exact hnot hfor
      · simp only [r.fill?_eq_none hfor, Except.error.injEq]
        constructor
        · rintro rfl
          exact .mismatch hnamed hread hfor
        · rintro (⟨-, hread'⟩ | ⟨-, hread', -⟩)
          · rw [hread] at hread'
            cases hread'
          · rw [hread] at hread'
            rw [Except.ok.inj hread']

theorem exists_add_iff {e : FeedEntry} (r : Record) : (∃ s, r.add e = .ok s) ↔ e.Readable := by
  constructor
  · rintro ⟨s, hs⟩ slot hnamed
    have hnot (f : ArchiveFault) : ¬ e.FailsWith f := fun hf => by
      rw [r.add_eq_error_iff.mpr hf] at hs
      cases hs
    cases hread : Payload.ofJson e.payload with
    | error cause => exact absurd (.payload hnamed hread) (hnot _)
    | ok payload =>
      by_cases hfor : payload.IsFor slot
      · exact ⟨payload, hnamed, hread, hfor⟩
      · exact absurd (.mismatch hnamed hread hfor) (hnot _)
  · intro h
    cases hkind : Slot.ofKind? e.kind with
    | none => exact ⟨r, r.add_of_not_named (Slot.ofKind?_eq_none_iff.mp hkind)⟩
    | some slot =>
      obtain ⟨payload, htells⟩ := h slot (Slot.ofKind?_eq_some_iff.mp hkind)
      obtain ⟨s, hs, -⟩ := r.exists_add htells
      exact ⟨s, hs⟩

/-! ### All entries -/

theorem addAll_append_ok {r s : Record} {as bs : List FeedEntry} :
    r.addAll (as ++ bs) = .ok s ↔ ∃ t, r.addAll as = .ok t ∧ t.addAll bs = .ok s := by
  induction as generalizing r with
  | nil => simp [addAll]
  | cons e as ih =>
    rw [List.cons_append, addAll, addAll]
    cases r.add e with
    | error f => simp
    | ok t => exact ih

theorem addAll_singleton_ok {r s : Record} {e : FeedEntry} :
    r.addAll [e] = .ok s ↔ r.add e = .ok s := by
  rw [addAll]
  cases r.add e with
  | error f => simp
  | ok t => simp [addAll]

theorem exists_addAll_iff {es : List FeedEntry} (r : Record) :
    (∃ s, r.addAll es = .ok s) ↔ ∀ e ∈ es, e.Readable := by
  induction es generalizing r with
  | nil => exact iff_of_true ⟨r, rfl⟩ (List.forall_mem_nil _)
  | cons e es ih =>
    rw [List.forall_mem_cons, ← r.exists_add_iff, addAll]
    cases r.add e with
    | error f => simp
    | ok t => simp [ih t]

/-- **A feed is refused for the first entry that fails.** -/
theorem addAll_eq_error_iff {es : List FeedEntry} {f : ArchiveFault} (r : Record) :
    r.addAll es = .error f ↔ ∃ before e after, es = before ++ e :: after ∧
      (∀ e' ∈ before, e'.Readable) ∧ e.FailsWith f := by
  induction es generalizing r with
  | nil => simp [addAll]
  | cons e es ih =>
    have hsplit : (∃ before e' after, e :: es = before ++ e' :: after ∧
        (∀ e'' ∈ before, e''.Readable) ∧ e'.FailsWith f) ↔
          e.FailsWith f ∨ (e.Readable ∧ ∃ before e' after, es = before ++ e' :: after ∧
            (∀ e'' ∈ before, e''.Readable) ∧ e'.FailsWith f) := by
      constructor
      · rintro ⟨_ | ⟨first, before⟩, e', after, heq, hbefore, hfails⟩
        · obtain ⟨rfl, -⟩ := List.cons.inj heq
          exact Or.inl hfails
        · obtain ⟨rfl, hes⟩ := List.cons.inj heq
          obtain ⟨hfirst, hbefore⟩ := List.forall_mem_cons.mp hbefore
          exact Or.inr ⟨hfirst, before, e', after, hes, hbefore, hfails⟩
      · rintro (hfails | ⟨hfirst, before, e', after, rfl, hbefore, hfails⟩)
        · exact ⟨[], e, es, rfl, List.forall_mem_nil _, hfails⟩
        · exact ⟨e :: before, e', after, rfl, List.forall_mem_cons.mpr ⟨hfirst, hbefore⟩, hfails⟩
    rw [hsplit, ← r.add_eq_error_iff, ← r.exists_add_iff, addAll]
    cases r.add e with
    | error f' => simp
    | ok t => simp [ih t]

/-- **The record says of a slot what the last entry about it says.** -/
theorem said?_of_addAll {es : List FeedEntry} {r : Record} (h : empty.addAll es = .ok r)
    (slot : Slot) (payload : Payload) :
    r.said? slot = some payload ↔ FeedEntry.LastSays es slot payload := by
  induction es using List.reverseRecOn generalizing r with
  | nil =>
    cases h
    rw [said?_empty]
    simp [FeedEntry.LastSays]
  | append_singleton es e ih =>
    obtain ⟨t, ht, hr⟩ := addAll_append_ok.mp h
    rw [addAll_singleton_ok] at hr
    rw [FeedEntry.lastSays_snoc, ← ih ht]
    by_cases hnamed : ∃ slot' : Slot, slot'.NamedBy e.kind
    · obtain ⟨slot', hnamed⟩ := hnamed
      obtain ⟨payload', htells⟩ := (t.exists_add_iff.mp ⟨r, hr⟩) slot' hnamed
      obtain ⟨s, hs, hsaid⟩ := t.exists_add htells
      obtain rfl := Except.ok.inj (hr.symm.trans hs)
      rw [hsaid]
      by_cases hslot : slot' = slot
      · subst hslot
        rw [if_pos rfl, Option.some.injEq]
        constructor
        · rintro rfl
          exact Or.inl htells
        · rintro (htells' | ⟨hnot, -⟩)
          · exact Except.ok.inj (htells.read.symm.trans htells'.read)
          · exact absurd hnamed hnot
      · have hnot : ¬ slot.NamedBy e.kind := fun h' => hslot (hnamed.unique h')
        rw [if_neg hslot]
        constructor
        · exact fun hsaid' => Or.inr ⟨hnot, hsaid'⟩
        · rintro (htells' | ⟨-, hsaid'⟩)
          · exact absurd htells'.named hnot
          · exact hsaid'
    · have hnot := not_exists.mp hnamed
      rw [t.add_of_not_named hnot, Except.ok.injEq] at hr
      subst hr
      constructor
      · exact fun hsaid => Or.inr ⟨hnot slot, hsaid⟩
      · rintro (htells | ⟨-, hsaid⟩)
        · exact absurd htells.named (hnot slot)
        · exact hsaid

/-- Where there is no entry about a slot, and nowhere else, the record says nothing of
it. -/
theorem said?_eq_none_of_addAll {es : List FeedEntry} {r : Record}
    (h : empty.addAll es = .ok r) (slot : Slot) :
    r.said? slot = none ↔ ∀ e ∈ es, ¬ slot.NamedBy e.kind := by
  rw [Option.eq_none_iff_forall_ne_some]
  constructor
  · intro hnone e he hnamed
    obtain ⟨payload, hlast⟩ :=
      FeedEntry.exists_lastSays ((exists_addAll_iff empty).mp ⟨r, h⟩) he hnamed
    exact hnone payload ((said?_of_addAll h slot payload).mpr hlast)
  · intro hnot payload hsaid
    obtain ⟨before, e, after, rfl, htells, -⟩ := (said?_of_addAll h slot payload).mp hsaid
    exact hnot e (List.mem_append_right _ List.mem_cons_self) htells.named

/-- **The payloads about each thing are all that a feed says.** -/
theorem addAll_congr {es es' : List FeedEntry} {r : Record}
    (hsame : ∀ slot, FeedEntry.payloadsAbout slot es = FeedEntry.payloadsAbout slot es')
    (h : empty.addAll es = .ok r) : empty.addAll es' = .ok r := by
  have hread : ∀ e ∈ es', e.Readable := by
    intro e he slot hnamed
    have hmem : e.payload ∈ FeedEntry.payloadsAbout slot es := by
      rw [hsame]
      exact FeedEntry.mem_payloadsAbout.mpr ⟨e, he, hnamed, rfl⟩
    obtain ⟨e', he', hnamed', hpayload⟩ := FeedEntry.mem_payloadsAbout.mp hmem
    obtain ⟨payload, htells⟩ := (exists_addAll_iff empty).mp ⟨r, h⟩ e' he' slot hnamed'
    exact ⟨payload, hnamed, hpayload ▸ htells.read, htells.isFor⟩
  obtain ⟨r', hr'⟩ := (exists_addAll_iff empty).mpr hread
  have heq : r' = r := by
    refine ext_said? fun slot => Option.ext fun payload => ?_
    rw [said?_of_addAll hr', said?_of_addAll h, FeedEntry.lastSays_iff, FeedEntry.lastSays_iff,
      hsame]
  rw [hr', heq]

end Record

/-! ### Edits -/

/-- A change of a feed that changes nothing of what it says: an entry about nothing comes
in, goes out or becomes another one, an entry gets another id, or two neighbours that are
not about the same thing change places. -/
inductive FeedEdit : List FeedEntry → List FeedEntry → Prop
  | insert {e : FeedEntry} (before after : List FeedEntry) :
      (∀ slot : Slot, ¬ slot.NamedBy e.kind) → FeedEdit (before ++ after) (before ++ e :: after)
  | delete {e : FeedEntry} (before after : List FeedEntry) :
      (∀ slot : Slot, ¬ slot.NamedBy e.kind) → FeedEdit (before ++ e :: after) (before ++ after)
  | alter {e e' : FeedEntry} (before after : List FeedEntry) :
      (∀ slot : Slot, ¬ slot.NamedBy e.kind) → (∀ slot : Slot, ¬ slot.NamedBy e'.kind) →
      FeedEdit (before ++ e :: after) (before ++ e' :: after)
  | renumber (e : FeedEntry) (id : Option Int) (before after : List FeedEntry) :
      FeedEdit (before ++ e :: after) (before ++ { e with id } :: after)
  | exchange {e e' : FeedEntry} (before after : List FeedEntry) :
      (∀ slot : Slot, slot.NamedBy e.kind → ¬ slot.NamedBy e'.kind) →
      FeedEdit (before ++ e :: e' :: after) (before ++ e' :: e :: after)

theorem FeedEdit.payloadsAbout_eq {es es' : List FeedEntry} (h : FeedEdit es es') (slot : Slot) :
    FeedEntry.payloadsAbout slot es = FeedEntry.payloadsAbout slot es' := by
  cases h with
  | insert before after he =>
    rw [FeedEntry.payloadsAbout_append, FeedEntry.payloadsAbout_append,
      FeedEntry.payloadsAbout_cons, if_neg (he slot)]
  | delete before after he =>
    rw [FeedEntry.payloadsAbout_append, FeedEntry.payloadsAbout_append,
      FeedEntry.payloadsAbout_cons, if_neg (he slot)]
  | alter before after he he' =>
    rw [FeedEntry.payloadsAbout_append, FeedEntry.payloadsAbout_append,
      FeedEntry.payloadsAbout_cons, FeedEntry.payloadsAbout_cons, if_neg (he slot),
      if_neg (he' slot)]
  | renumber e id before after =>
    rw [FeedEntry.payloadsAbout_append, FeedEntry.payloadsAbout_append,
      FeedEntry.payloadsAbout_cons, FeedEntry.payloadsAbout_cons]
  | exchange before after hdistinct =>
    simp only [FeedEntry.payloadsAbout_append, FeedEntry.payloadsAbout_cons]
    split
    · rename_i hnamed
      simp only [if_neg (hdistinct slot hnamed)]
    · rfl

theorem payloadsAbout_eq_of_edits {es es' : List FeedEntry}
    (h : Relation.ReflTransGen FeedEdit es es') (slot : Slot) :
    FeedEntry.payloadsAbout slot es = FeedEntry.payloadsAbout slot es' := by
  induction h with
  | refl => rfl
  | tail _ hedit ih => exact ih.trans (hedit.payloadsAbout_eq slot)

/-! ### Feeds -/

/-- What a feed denotes is what the last entries about each thing say. -/
structure Feed.SaysLast (feed : Feed) : Prop where
  /-- A feed can be read if and only if each of its entries that is about something says
  something about it. -/
  readable : (∃ r, Record.ofFeed feed = .ok r) ↔ ∀ e ∈ feed.entries, e.Readable
  /-- The record holds what is said last, -/
  said : ∀ r, Record.ofFeed feed = .ok r → ∀ slot payload,
    r.said? slot = some payload ↔ FeedEntry.LastSays feed.entries slot payload
  /-- and nothing that is not said. -/
  unsaid : ∀ r, Record.ofFeed feed = .ok r → ∀ slot,
    r.said? slot = none ↔ ∀ e ∈ feed.entries, ¬ slot.NamedBy e.kind
  /-- A feed that cannot be read is refused for the first of the entries that fail. -/
  refused : ∀ f, Record.ofFeed feed = .error f ↔ ∃ before e after,
    feed.entries = before ++ e :: after ∧ (∀ e' ∈ before, e'.Readable) ∧ e.FailsWith f
  /-- Another feed with the same payloads about each thing makes the same record. -/
  same : ∀ r, Record.ofFeed feed = .ok r → ∀ feed' : Feed,
    (∀ slot, FeedEntry.payloadsAbout slot feed.entries =
      FeedEntry.payloadsAbout slot feed'.entries) → Record.ofFeed feed' = .ok r
  /-- So does a feed that edits lead to. -/
  edited : ∀ r, Record.ofFeed feed = .ok r → ∀ feed' : Feed,
    Relation.ReflTransGen FeedEdit feed.entries feed'.entries → Record.ofFeed feed' = .ok r

/-- **A feed says what its last entries say**, whatever the feed. -/
theorem Record.ofFeed_saysLast (feed : Feed) : feed.SaysLast where
  readable := exists_addAll_iff empty
  said _ h := said?_of_addAll h
  unsaid _ h := said?_eq_none_of_addAll h
  refused _ := addAll_eq_error_iff empty
  same _ h _ hsame := addAll_congr hsame h
  edited _ h _ hedits := addAll_congr (payloadsAbout_eq_of_edits hedits) h

end UltimateTicTacToe
