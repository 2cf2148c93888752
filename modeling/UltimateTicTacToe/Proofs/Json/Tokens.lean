/-
# Texts that are made of tokens

The scanner goes through a text one character at a time, so what it makes of a text
can be put together from what it makes of the parts. `Scanner.Spells cs ts` says that
it makes the tokens `ts` of the characters `cs`, wherever they stand. There is one
condition on what follows: a word or a number ends only where a character of another
kind comes, so the text must not go on with one of theirs. Marks, blanks, quoted
texts and runs spell what they should, parts with commas between them do
(`Spells.join`), and a text that spells tokens is those tokens, although nothing
follows it (`Spells.ofText?`).

Key definitions: `Scanner.EndsRun`, `Scanner.Spells`.
Key theorems: `Scanner.Spells.append`, `Scanner.Spells.run`, `Scanner.Spells.join`,
`Scanner.Spells.ofText?`.
-/
import Mathlib.Data.List.Forall2
import UltimateTicTacToe.Proofs.Json.Text

namespace UltimateTicTacToe
namespace Json
namespace Scanner

/-- A text that begins with a character of no word and no number. -/
def EndsRun (rest : List Char) : Prop := ∃ c cs, rest = c :: cs ∧ Token.isRunChar c = false

/-- Between tokens the scanner makes the tokens `ts` of the characters `cs`, whatever
its tokens so far and whatever follows that ends a run. -/
def Spells (cs : List Char) (ts : List Token) : Prop :=
  ∀ done rest, EndsRun rest →
    steps ⟨done, .between⟩ (cs ++ rest) = steps ⟨ts.reverse ++ done, .between⟩ rest

theorem EndsRun.append {cs : List Char} (h : EndsRun cs) (rest : List Char) :
    EndsRun (cs ++ rest) := by
  obtain ⟨c, cs, rfl, hc⟩ := h
  exact ⟨c, cs ++ rest, rfl, hc⟩

/-! ### Single characters -/

theorem steps_append (s : Scanner) (cs ds : List Char) :
    s.steps (cs ++ ds) = (s.steps cs).bind fun t => t.steps ds := by
  induction cs generalizing s with
  | nil => rfl
  | cons c cs ih =>
    rw [List.cons_append, steps, steps]
    cases s.step c with
    | none => rfl
    | some t => exact ih t

theorem steps_mark {c : Char} {t : Token} (h : Token.mark? c = some t) (done : List Token)
    (rest : List Char) :
    steps ⟨done, .between⟩ (c :: rest) = steps ⟨t :: done, .between⟩ rest := by
  have hstep : step ⟨done, .between⟩ c = some ⟨t :: done, .between⟩ := by
    unfold Token.mark? at h
    split at h
    all_goals first | (cases h; rfl) | cases h
  rw [steps, hstep]

theorem steps_blank {c : Char} (h : Token.isBlank c = true) (done : List Token)
    (rest : List Char) :
    steps ⟨done, .between⟩ (c :: rest) = steps ⟨done, .between⟩ rest := by
  have hstep : step ⟨done, .between⟩ c = some ⟨done, .between⟩ := if_pos h
  rw [steps, hstep]

/-- A character of a word or a number begins one. -/
theorem enter_of_isRunChar {c : Char} (h : Token.isRunChar c = true) (done : List Token) :
    enter done c = some ⟨done, .run [c]⟩ := by
  have hquote : c ≠ '"' := by
    rintro rfl
    exact absurd h (by decide)
  have hblank : Token.isBlank c = false := by
    rw [Bool.eq_false_iff]
    intro hb
    simp only [Token.isBlank, Bool.or_eq_true, decide_eq_true_eq] at hb
    rcases hb with ((rfl | rfl) | rfl) | rfl <;> exact absurd h (by decide)
  rw [enter, hblank, if_neg Bool.false_ne_true, if_neg hquote, if_pos h]

theorem steps_run {cs : List Char} (h : ∀ c ∈ cs, Token.isRunChar c = true)
    (done : List Token) (read rest : List Char) :
    steps ⟨done, .run read⟩ (cs ++ rest) = steps ⟨done, .run (cs.reverse ++ read)⟩ rest := by
  induction cs generalizing read with
  | nil => rfl
  | cons c cs ih =>
    have hstep : step ⟨done, .run read⟩ c = some ⟨done, .run (c :: read)⟩ :=
      if_pos (h c List.mem_cons_self)
    rw [List.cons_append, steps, hstep]
    show steps ⟨done, .run (c :: read)⟩ (cs ++ rest) = _
    rw [ih fun c hc => h c (List.mem_cons_of_mem _ hc), List.reverse_cons, List.append_assoc]
    rfl

/-! ### Parts of a text -/

namespace Spells

theorem nil : Spells [] [] := fun _ _ _ => rfl

theorem append {cs ds : List Char} {ts us : List Token} (hc : Spells cs ts)
    (hd : Spells ds us) (hends : EndsRun ds) : Spells (cs ++ ds) (ts ++ us) := by
  intro done rest hrest
  rw [List.append_assoc, hc _ _ (hends.append rest), hd _ _ hrest, List.reverse_append,
    List.append_assoc]

theorem mark {c : Char} {t : Token} (h : Token.mark? c = some t) {cs : List Char}
    {ts : List Token} (hs : Spells cs ts) : Spells (c :: cs) (t :: ts) := by
  intro done rest hrest
  rw [List.cons_append, steps_mark h, hs _ _ hrest, List.reverse_cons, List.append_assoc]
  rfl

theorem blank {c : Char} (h : Token.isBlank c = true) {cs : List Char} {ts : List Token}
    (hs : Spells cs ts) : Spells (c :: cs) ts := by
  intro done rest hrest
  rw [List.cons_append, steps_blank h, hs _ _ hrest]

theorem blanks {bs : List Char} (h : ∀ c ∈ bs, Token.isBlank c = true) {cs : List Char}
    {ts : List Token} (hs : Spells cs ts) : Spells (bs ++ cs) ts := by
  induction bs with
  | nil => exact hs
  | cons c bs ih =>
    exact (ih fun c hc => h c (List.mem_cons_of_mem _ hc)).blank (h c List.mem_cons_self)

theorem quote (s : String) {cs : List Char} {ts : List Token} (hs : Spells cs ts) :
    Spells (Text.quote s ++ cs) (.string (some s) :: ts) := by
  intro done rest hrest
  rw [List.append_assoc, steps_quote, hs _ _ hrest, List.reverse_cons, List.append_assoc]
  rfl

/-- **A word or a number is one token**, as soon as it has ended. -/
theorem run {cs : List Char} {t : Token} (hall : cs.all Token.isRunChar = true)
    (hne : cs ≠ []) (ht : Token.ofRun? cs = some t) : Spells cs [t] := by
  have h := List.all_eq_true.mp hall
  rintro done rest ⟨d, rest, rfl, hd⟩
  obtain ⟨c, cs, rfl⟩ := List.exists_cons_of_ne_nil hne
  have hfirst : step ⟨done, .between⟩ c = some ⟨done, .run [c]⟩ :=
    enter_of_isRunChar (h c List.mem_cons_self) done
  -- the character that ends the run is taken as if it stood between tokens
  have hlast : step ⟨done, .run (cs.reverse ++ [c])⟩ d = step ⟨t :: done, .between⟩ d := by
    have hread : (cs.reverse ++ [c]).reverse = c :: cs := by simp
    simp only [step, hd, hread, ht]
    rfl
  rw [List.cons_append, steps, hfirst]
  show steps ⟨done, .run [c]⟩ (cs ++ d :: rest) = _
  rw [steps_run fun c hc => h c (List.mem_cons_of_mem _ hc), steps, hlast]
  rfl

/-- **Parts with commas between them** are the tokens of the parts with commas between
them. -/
theorem join {texts : List (List Char)} {parts : List (List Token)}
    (h : List.Forall₂ Spells texts parts) :
    Spells ([','].intercalate texts) ([.comma].intercalate parts) := by
  induction h with
  | nil => exact nil
  | @cons cs ts texts parts hs hrest ih =>
    cases hrest with
    | nil => simpa only [List.intercalate_singleton] using hs
    | cons hs' hrest' =>
      rw [List.intercalate_cons_cons, List.intercalate_cons_cons, List.append_assoc,
        List.append_assoc]
      exact hs.append (mark rfl ih) ⟨',', _, rfl, rfl⟩

/-! ### Whole texts -/

/-- At the end of a text a blank makes no difference. -/
theorem finish_step_blank (s : Scanner) : (s.step ' ').bind finish = s.finish := by
  obtain ⟨done, mode⟩ := s
  cases mode with
  | between => rfl
  | run read =>
    show ((Token.ofRun? read.reverse).bind fun t => enter (t :: done) ' ').bind finish =
      (Token.ofRun? read.reverse).map fun t => (t :: done).reverse
    cases Token.ofRun? read.reverse with
    | none => rfl
    | some t => rfl
  | quoted read => rfl
  | escape read => rfl

/-- **A text that spells tokens is those tokens.** -/
theorem ofText? {cs : List Char} {ts : List Token} (h : Spells cs ts) :
    Token.ofText? cs = some ts := by
  have hblank : (steps ⟨[], .between⟩ (cs ++ [' '])).bind finish = Token.ofText? cs := by
    rw [steps_append, Token.ofText?, Option.bind_assoc]
    congr 1
    funext s
    have hlast : s.steps [' '] = s.step ' ' := by
      rw [steps]
      cases s.step ' ' with
      | none => rfl
      | some t => rfl
    rw [hlast, finish_step_blank]
  rw [← hblank, h [] [' '] ⟨' ', [], rfl, rfl⟩, List.append_nil, steps_blank rfl]
  show some ts.reverse.reverse = some ts
  rw [List.reverse_reverse]

end Spells
end Scanner
end Json
end UltimateTicTacToe
