/-
# A written value reads as what it denotes

Reading undoes writing in two stages. A tree has one sequence of tokens, and the
reader builds the tree from it, whatever the tree (`Json.ofTokens?_tokens`). The items
of an array and the members of an object are read alike, as parts with commas between
them (`Json.steps_join`). A value in which all numbers are written in digits has two
texts, and both spell the tokens of the tree that the value denotes
(`Json.InDigits.spelled`). So either text reads as that tree
(`Json.InDigits.parse?_compact`, `Json.InDigits.parse?_indented`). The tree is the
value itself but for numbers of more than 64 bits.

Not covered: values with negative or floating-point numbers.

Key definitions: `Json.tokens`, `Json.reread`, `Json.InDigits`.
Key theorems: `Json.steps_join`, `Json.ofTokens?_tokens`, `Json.InDigits.spelled`,
`Json.InDigits.parse?_compact`, `Json.InDigits.parse?_indented`.
-/
import UltimateTicTacToe.Json.Reader
import UltimateTicTacToe.Json.Writer
import UltimateTicTacToe.Proofs.Json.Numeral
import UltimateTicTacToe.Proofs.Json.Tokens

namespace UltimateTicTacToe
namespace Json

/-! ### The tokens of a tree -/

mutual

/-- The tokens of a tree. -/
def tokens : Json → List Token
  | .array items => .openArray :: ([.comma].intercalate (itemsTokens items) ++ [.closeArray])
  | .object members =>
    .openObject :: ([.comma].intercalate (membersTokens members) ++ [.closeObject])
  | .string s => [.string (some s)]
  | j => [.scalar j]

/-- The tokens of every item. -/
def itemsTokens : List Json → List (List Token)
  | [] => []
  | item :: items => tokens item :: itemsTokens items

/-- The tokens of every member: its name, the colon, its value. -/
def membersTokens : List (String × Json) → List (List Token)
  | [] => []
  | (name, value) :: members =>
    (.string (some name) :: .colon :: tokens value) :: membersTokens members

end

/-- Where a value may stand, the reader takes the tokens of `j` for `j`. -/
def Reads (j : Json) : Prop :=
  ∀ stack ts, (Reader.value stack).steps (j.tokens ++ ts) = (Reader.after j stack).steps ts

theorem itemsTokens_eq (items : List Json) : itemsTokens items = items.map tokens := by
  induction items with
  | nil => rfl
  | cons item items ih => rw [itemsTokens, ih, List.map_cons]

/-- The tokens of a member. -/
def memberTokens (m : String × Json) : List Token := .string (some m.1) :: .colon :: m.2.tokens

theorem membersTokens_eq (members : List (String × Json)) :
    membersTokens members = members.map memberTokens := by
  induction members with
  | nil => rfl
  | cons member members ih =>
    rw [membersTokens, ih, List.map_cons]
    rfl

/-- Parts with commas between them are read one after the other: `before` is where the
reader waits for a part, `after` where it has taken one, and `done` where the mark that
closes them has been taken, each with the parts that have been read. -/
theorem steps_join {α : Type} {close : Token} (part : α → List Token)
    (before : List α → Reader) (after : α → List α → Reader) (done : List α → Reader)
    (hcomma : ∀ a read ts, (after a read).steps (.comma :: ts) = (before (a :: read)).steps ts)
    (hclose : ∀ a read ts,
      (after a read).steps (close :: ts) = (done (a :: read).reverse).steps ts)
    {a : α} {as : List α} (hpart : ∀ b ∈ a :: as, ∀ read ts,
      (before read).steps (part b ++ ts) = (after b read).steps ts)
    (read : List α) (ts : List Token) :
    (before read).steps ([.comma].intercalate ((a :: as).map part) ++ close :: ts) =
      (done (read.reverse ++ a :: as)).steps ts := by
  have hfirst := hpart a List.mem_cons_self
  induction as generalizing a read with
  | nil =>
    rw [List.map_cons, List.map_nil, List.intercalate_singleton, hfirst, hclose,
      List.reverse_cons]
  | cons b as ih =>
    have hrest := fun c hc => hpart c (List.mem_cons_of_mem a hc)
    have htail := ih hrest (a :: read) (hrest b List.mem_cons_self)
    rw [List.reverse_cons, List.append_assoc, List.singleton_append, List.map_cons] at htail
    rw [List.map_cons, List.map_cons, List.intercalate_cons_cons, List.append_assoc,
      List.append_assoc, hfirst, ← htail]
    exact hcomma a read _

/-- No value begins with the mark that closes an array. -/
theorem steps_firstItem (j : Json) (stack : List Reader.Frame) (ts : List Token) :
    (Reader.firstItem stack).steps (j.tokens ++ ts) =
      (Reader.value (.items [] :: stack)).steps (j.tokens ++ ts) := by
  cases j <;> rfl

/-- The first of several parts comes first. -/
theorem join_cons (part : List Token) (parts : List (List Token)) :
    ∃ rest, [Token.comma].intercalate (part :: parts) = part ++ rest := by
  cases parts with
  | nil => exact ⟨[], by rw [List.intercalate_singleton, List.append_nil]⟩
  | cons q parts => exact ⟨_, List.intercalate_cons_cons.trans (List.append_assoc ..)⟩

theorem reads_array {items : List Json} (h : ∀ j ∈ items, j.Reads) : Reads (.array items) := by
  intro stack ts
  cases items with
  | nil => rfl
  | cons item items =>
    have hopen : (Reader.value stack).steps ((Json.array (item :: items)).tokens ++ ts) =
        (Reader.firstItem stack).steps
          ([.comma].intercalate ((item :: items).map tokens) ++ .closeArray :: ts) := by
      rw [tokens, itemsTokens_eq, List.cons_append, List.append_assoc]
      rfl
    have hitems : (Reader.value (.items [] :: stack)).steps
        ([.comma].intercalate ((item :: items).map tokens) ++ .closeArray :: ts) =
          (Reader.after (.array (item :: items)) stack).steps ts :=
      steps_join tokens (fun read => .value (.items read :: stack))
        (fun j read => .after j (.items read :: stack)) (fun read => .after (.array read) stack)
        (fun _ _ _ => rfl) (fun _ _ _ => rfl) (fun j hj read => h j hj (.items read :: stack)) [] ts
    obtain ⟨rest, hrest⟩ := join_cons item.tokens (items.map tokens)
    rw [List.map_cons, hrest, List.append_assoc] at hopen hitems
    rw [hopen, steps_firstItem, hitems]

theorem reads_object {members : List (String × Json)} (h : ∀ m ∈ members, m.2.Reads) :
    Reads (.object members) := by
  intro stack ts
  cases members with
  | nil => rfl
  | cons member members =>
    have hopen : (Reader.value stack).steps ((Json.object (member :: members)).tokens ++ ts) =
        (Reader.firstName stack).steps
          ([.comma].intercalate ((member :: members).map memberTokens) ++ .closeObject :: ts) := by
      rw [tokens, membersTokens_eq, List.cons_append, List.append_assoc]
      rfl
    have hmembers : (Reader.nextName [] true stack).steps
        ([.comma].intercalate ((member :: members).map memberTokens) ++ .closeObject :: ts) =
          (Reader.after (.object (member :: members)) stack).steps ts :=
      steps_join memberTokens (fun read => .nextName read true stack)
        (fun m read => .after m.2 (.member read true m.1 :: stack))
        (fun read => .after (.object read) stack) (fun _ _ _ => rfl) (fun _ _ _ => rfl)
        (fun m hm read => h m hm (.member read true m.1 :: stack)) [] ts
    -- the name of the first member is taken alike where the object might still be empty
    obtain ⟨rest, hrest⟩ := join_cons (memberTokens member) (members.map memberTokens)
    rw [List.map_cons, hrest] at hopen hmembers
    rw [hopen, ← hmembers]
    rfl

mutual

/-- **The reader takes the tokens of a tree for the tree.** -/
theorem reads : ∀ j : Json, j.Reads
  | .array items => reads_array (items_read items)
  | .object members => reads_object (members_read members)
  | .null => fun _ _ => rfl
  | .bool _ => fun _ _ => rfl
  | .number _ => fun _ _ => rfl
  | .string _ => fun _ _ => rfl
  | .unreadable => fun _ _ => rfl

theorem items_read : ∀ items : List Json, ∀ j ∈ items, j.Reads
  | [] => fun _ h => nomatch h
  | item :: items => List.forall_mem_cons.mpr ⟨reads item, items_read items⟩

theorem members_read : ∀ members : List (String × Json), ∀ m ∈ members, m.2.Reads
  | [] => fun _ h => nomatch h
  | (_, value) :: members => List.forall_mem_cons.mpr ⟨reads value, members_read members⟩

end

/-- **The tokens of a tree denote the tree.** -/
theorem ofTokens?_tokens (j : Json) : ofTokens? j.tokens = some j := by
  have h := reads j [] []
  rw [List.append_nil] at h
  rw [ofTokens?, h]
  rfl

/-! ### What a written value denotes -/

mutual

/-- The tree that the texts of a value denote: the value, with what the digits of its
numbers denote in place of the numbers. -/
def reread : Json → Json
  | .number (.natural n) => numeral n
  | .array items => .array (itemsReread items)
  | .object members => .object (membersReread members)
  | j => j

/-- `reread` of every item. -/
def itemsReread : List Json → List Json
  | [] => []
  | item :: items => reread item :: itemsReread items

/-- `reread` of every member. -/
def membersReread : List (String × Json) → List (String × Json)
  | [] => []
  | (name, value) :: members => (name, reread value) :: membersReread members

end

/-- A value that holds no number but natural ones, and those are written in digits. -/
inductive InDigits : Json → Prop where
  | null : InDigits .null
  | bool (b : Bool) : InDigits (.bool b)
  | nat (n : Nat) : InDigits (.nat n)
  | string (s : String) : InDigits (.string s)
  | array {items : List Json} (h : ∀ j ∈ items, InDigits j) : InDigits (.array items)
  | object {members : List (String × Json)} (h : ∀ m ∈ members, InDigits m.2) :
    InDigits (.object members)

theorem InDigits.list {α : Type} {encode : α → Json} (h : ∀ a, (encode a).InDigits)
    (items : List α) : (Json.list encode items).InDigits := by
  refine .array fun j hj => ?_
  obtain ⟨a, -, rfl⟩ := List.mem_map.mp hj
  exact h a

theorem InDigits.option {α : Type} {encode : α → Json} (h : ∀ a, (encode a).InDigits)
    (value : Option α) : (Json.option encode value).InDigits := by
  cases value with
  | none => exact .null
  | some a => exact h a

theorem itemsReread_eq (items : List Json) : itemsReread items = items.map reread := by
  induction items with
  | nil => rfl
  | cons item items ih => rw [itemsReread, ih, List.map_cons]

theorem membersReread_eq (members : List (String × Json)) :
    membersReread members = members.map fun m => (m.1, m.2.reread) := by
  induction members with
  | nil => rfl
  | cons member members ih => rw [membersReread, ih, List.map_cons]

theorem itemsReread_map {α : Type} (f : α → Json) (as : List α) :
    itemsReread (as.map f) = as.map fun a => (f a).reread := by
  rw [itemsReread_eq, List.map_map]
  rfl

theorem reread_list {α : Type} (f : α → Json) (as : List α) :
    (list f as).reread = list (fun a => (f a).reread) as :=
  congrArg array (itemsReread_map f as)

theorem reread_option {α : Type} (f : α → Json) (value : Option α) :
    (option f value).reread = option (fun a => (f a).reread) value := by
  cases value with
  | none => rfl
  | some a => rfl

/-! ### The two texts of a value -/

open Scanner (Spells EndsRun)

/-- Both texts of a value are the tokens of what it denotes. -/
def Spelled (j : Json) : Prop :=
  Spells j.chars j.reread.tokens ∧ ∀ depth, Spells (j.indentedChars depth) j.reread.tokens

/-- Texts that are written one after the other, with commas between them, are joined by
commas. -/
theorem eq_join {α : Type} {text : α → List Char} {texts : List α → List Char}
    (hnil : texts [] = []) (hone : ∀ a, texts [a] = text a)
    (hmore : ∀ a b as, texts (a :: b :: as) = text a ++ ',' :: texts (b :: as)) :
    ∀ as, texts as = [','].intercalate (as.map text)
  | [] => hnil
  | [a] => (hone a).trans List.intercalate_singleton.symm
  | a :: b :: as => by
    have htail := eq_join hnil hone hmore (b :: as)
    rw [List.map_cons] at htail
    rw [hmore, htail, List.map_cons, List.map_cons, List.intercalate_cons_cons,
      List.append_assoc]
    rfl

theorem itemsChars_eq (items : List Json) :
    itemsChars items = [','].intercalate (items.map chars) :=
  eq_join rfl (fun _ => rfl) (fun _ _ _ => rfl) items

theorem itemLines_eq (depth : Nat) (items : List Json) : itemLines depth items =
    [','].intercalate (items.map fun j => newLine depth ++ j.indentedChars depth) :=
  eq_join rfl (fun _ => rfl) (fun _ _ _ => rfl) items

theorem membersChars_eq (members : List (String × Json)) : membersChars members =
    [','].intercalate (members.map fun m => Text.quote m.1 ++ ':' :: m.2.chars) :=
  eq_join rfl (fun _ => rfl) (fun _ _ _ => rfl) members

theorem memberLines_eq (depth : Nat) (members : List (String × Json)) :
    memberLines depth members = [','].intercalate (members.map fun m =>
      newLine depth ++ (Text.quote m.1 ++ ':' :: ' ' :: m.2.indentedChars depth)) := by
  have hone : ∀ m : String × Json, memberLines depth [m] =
      newLine depth ++ (Text.quote m.1 ++ ':' :: ' ' :: m.2.indentedChars depth) :=
    fun _ => List.append_assoc ..
  refine eq_join rfl hone (fun m m' ms => ?_) members
  rw [← hone m]
  rfl

theorem isBlank_of_mem_newLine {depth : Nat} {c : Char} (h : c ∈ newLine depth) :
    Token.isBlank c = true := by
  rcases List.mem_cons.mp h with rfl | h
  · rfl
  · rw [List.eq_of_mem_replicate h]
    rfl

theorem itemsTokens_reread (items : List Json) :
    itemsTokens (itemsReread items) = items.map fun j => j.reread.tokens := by
  rw [itemsReread_eq, itemsTokens_eq, List.map_map]
  rfl

theorem membersTokens_reread (members : List (String × Json)) :
    membersTokens (membersReread members) =
      members.map fun m => .string (some m.1) :: .colon :: m.2.reread.tokens := by
  rw [membersReread_eq, membersTokens_eq, List.map_map]
  rfl

/-- Texts and tokens that belong to the same things, one by one. -/
theorem spells_join {α : Type} {text : α → List Char} {part : α → List Token} {as : List α}
    (h : ∀ a ∈ as, Spells (text a) (part a)) :
    Spells ([','].intercalate (as.map text)) ([.comma].intercalate (as.map part)) :=
  .join (List.forall₂_map_left_iff.mpr (List.forall₂_map_right_iff.mpr (List.forall₂_same.mpr h)))

/-- What stands between two marks, with the marks. -/
theorem spells_between {c d : Char} {t u : Token} (hc : Token.mark? c = some t)
    (hd : Token.mark? d = some u) (hends : Token.isRunChar d = false) {cs : List Char}
    {ts : List Token} (h : Spells cs ts) : Spells (c :: (cs ++ [d])) (t :: (ts ++ [u])) :=
  .mark hc (h.append (.mark hd .nil) ⟨d, [], rfl, hends⟩)

/-- The same with the second mark on a new line. -/
theorem spells_between_lines {c d : Char} {t u : Token} (hc : Token.mark? c = some t)
    (hd : Token.mark? d = some u) (depth : Nat) {cs : List Char} {ts : List Token}
    (h : Spells cs ts) :
    Spells (c :: (cs ++ (newLine depth ++ [d]))) (t :: (ts ++ [u])) :=
  .mark hc (h.append (.blanks (fun _ => isBlank_of_mem_newLine) (.mark hd .nil))
    ⟨'\n', _, rfl, rfl⟩)

theorem spelled_scalar {j : Json} (hchars : j.chars = j.scalarText)
    (hindented : ∀ depth, j.indentedChars depth = j.scalarText)
    (h : Spells j.scalarText j.reread.tokens) : j.Spelled := by
  refine ⟨?_, fun depth => ?_⟩
  · rw [hchars]
    exact h
  · rw [hindented]
    exact h

theorem spelled_nat (n : Nat) : Spelled (.nat n) := by
  have hrun : (Nat.toDigits 10 n).all Token.isRunChar = true := by
    refine List.all_eq_true.mpr fun c hc => ?_
    have hd := isDigit_of_mem_toDigits hc
    simp [Token.isRunChar, Token.isNumberChar, hd]
  have hvalue : (numeral n).tokens = [.scalar (numeral n)] := by
    unfold numeral
    split <;> rfl
  have hspells := Spells.run hrun Nat.toDigits_ne_nil (Token.ofRun?_toDigits n)
  rw [← hvalue] at hspells
  exact spelled_scalar rfl (fun _ => rfl) hspells

theorem spelled_array {items : List Json} (h : ∀ j ∈ items, j.Spelled) :
    Spelled (.array items) := by
  have hcompact : Spells (itemsChars items)
      ([.comma].intercalate (itemsTokens (itemsReread items))) := by
    rw [itemsChars_eq, itemsTokens_reread]
    exact spells_join fun j hj => (h j hj).1
  have hlines : ∀ depth, Spells (itemLines depth items)
      ([.comma].intercalate (itemsTokens (itemsReread items))) := by
    intro depth
    rw [itemLines_eq, itemsTokens_reread]
    exact spells_join fun j hj => .blanks (fun _ => isBlank_of_mem_newLine) ((h j hj).2 depth)
  refine ⟨spells_between rfl rfl rfl hcompact, fun depth => ?_⟩
  cases items with
  | nil => exact spells_between rfl rfl rfl .nil
  | cons item items =>
    have hbetween :=
      spells_between_lines (c := '[') (d := ']') rfl rfl depth (hlines (depth + 1))
    rw [← List.append_assoc] at hbetween
    exact hbetween

theorem spelled_object {members : List (String × Json)} (h : ∀ m ∈ members, m.2.Spelled) :
    Spelled (.object members) := by
  have hcompact : Spells (membersChars members)
      ([.comma].intercalate (membersTokens (membersReread members))) := by
    rw [membersChars_eq, membersTokens_reread]
    exact spells_join fun m hm => .quote m.1 (.mark rfl (h m hm).1)
  have hlines : ∀ depth, Spells (memberLines depth members)
      ([.comma].intercalate (membersTokens (membersReread members))) := by
    intro depth
    rw [memberLines_eq, membersTokens_reread]
    refine spells_join fun m hm => .blanks (fun _ => isBlank_of_mem_newLine) ?_
    have hvalue : Spells (' ' :: m.2.indentedChars depth) m.2.reread.tokens :=
      .blank rfl ((h m hm).2 depth)
    exact .quote m.1 (.mark rfl hvalue)
  refine ⟨spells_between rfl rfl rfl hcompact, fun depth => ?_⟩
  cases members with
  | nil => exact spells_between rfl rfl rfl .nil
  | cons member members =>
    have hbetween :=
      spells_between_lines (c := '\x7b') (d := '\x7d') rfl rfl depth (hlines (depth + 1))
    rw [← List.append_assoc] at hbetween
    exact hbetween

namespace InDigits

/-- **Both texts of a value are the tokens of what it denotes.** -/
theorem spelled {j : Json} (h : j.InDigits) : j.Spelled := by
  induction h with
  | null => exact spelled_scalar rfl (fun _ => rfl) (.run rfl (by decide) rfl)
  | bool b =>
    cases b with
    | true => exact spelled_scalar rfl (fun _ => rfl) (.run rfl (by decide) rfl)
    | false => exact spelled_scalar rfl (fun _ => rfl) (.run rfl (by decide) rfl)
  | nat n => exact spelled_nat n
  | string s =>
    have hquote := Spells.quote s .nil
    rw [List.append_nil] at hquote
    exact spelled_scalar rfl (fun _ => rfl) hquote
  | array _ ih => exact spelled_array ih
  | object _ ih => exact spelled_object ih

/-- **The compact text of a value reads as what the value denotes.** -/
theorem parse?_compact {j : Json} (h : j.InDigits) : parse? j.compact = some j.reread := by
  rw [parse?, compact, String.toList_ofList, h.spelled.1.ofText?]
  exact ofTokens?_tokens j.reread

/-- **The indented text of a value reads as what the value denotes.** -/
theorem parse?_indented {j : Json} (h : j.InDigits) : parse? j.indented = some j.reread := by
  rw [parse?, indented, String.toList_ofList, (h.spelled.2 0).ofText?]
  exact ofTokens?_tokens j.reread

end InDigits

end Json
end UltimateTicTacToe
