/-
# Agents that can be relied on

An agent may answer anything. What a game needs of it is little: where there are legal
placements, it chooses one of them (`Agent.Ready`). It is not asked about positions that
send the player off the board, since no game has such a position. The agent has a memory,
so this is asked of everything that it may come to remember from where it starts
(`Agent.Remembers`, `Agent.Willing`), and of no memory besides. Two willing agents make a
willing agent for both colours (`Agent.Willing.versus`). Where one game comes after
another, the same is asked of what it remembers when a new one begins (`Agent.Obliging`).

The random agent is willing and obliging with every generator: a draw among `n` things
never leaves them, whatever words the stream brings (`Generator.fst_indexWithin_lt`).

Key definitions: `Agent.Ready`, `Agent.Remembers`, `Agent.Willing`, `Agent.Obliging`.
Key theorems: `Agent.Willing.versus`, `Generator.exists_choose`, `Agent.random_willing`,
`Agent.random_obliging`, `Agent.obliging_of_fixed`.
-/
import UltimateTicTacToe.Agent.Basic
import UltimateTicTacToe.Proofs.MoveList

namespace UltimateTicTacToe

/-! ### Draws -/

namespace Generator

/-- A word taken as a fraction of all words, times `n`, is below `n`. -/
theorem scaled_lt (w : UInt32) {n : Nat} (hn : 0 < n) : w.toNat * n / UInt32.size < n := by
  have hw : w.toNat * n < UInt32.size * n := Nat.mul_lt_mul_of_pos_right w.toNat_lt hn
  exact Nat.div_lt_of_lt_mul hw

/-- The word that is kept in the end gives a number below `n`, as any other would. -/
theorem fst_indexWithin_lt {n : Nat} (hn : 0 < n) : ∀ (tries : Nat) (g : Generator),
    (indexWithin n tries g).1 < n
  | 0, g => scaled_lt g.next.1 hn
  | tries + 1, g => by
    rw [indexWithin]
    split
    rename_i w g' _
    split
    · exact scaled_lt w hn
    · exact fst_indexWithin_lt hn tries g'

/-- **One of the items is chosen**, if there are any. -/
theorem exists_choose {α : Type} (g : Generator) {items : List α} (h : items ≠ []) :
    ∃ a ∈ items, (g.choose items).1 = some a := by
  cases items with
  | nil => exact absurd rfl h
  | cons a items =>
    have hlt := fst_indexWithin_lt (n := (a :: items).length) (Nat.succ_pos _) (Nat.pow 2 68) g
    exact ⟨_, List.getElem_mem hlt, List.getElem?_eq_getElem hlt⟩

end Generator

namespace Agent

variable {σ τ : Type}

/-- With memory `m` the agent chooses a legal placement wherever there is one. A position
that sends the player off the board does not count. -/
def Ready (agent : Agent σ) (m : σ) : Prop :=
  ∀ s : Position, s.TargetOnBoard → s.playableTiles ≠ [] →
    ∃ p ∈ s.playableTiles, (agent.choose m s).1 = some p

/-- What an agent that remembers `m` may remember later, when it has been asked for a
choice in any positions that do not send the player off the board. -/
inductive Remembers (agent : Agent σ) (m : σ) : σ → Prop
  | start : Remembers agent m m
  | asked {m' : σ} {s : Position} (hs : s.TargetOnBoard) : Remembers agent m m' →
      Remembers agent m (agent.choose m' s).2

/-- From memory `m` on the agent chooses a legal placement wherever there is one. -/
def Willing (agent : Agent σ) (m : σ) : Prop := ∀ m', agent.Remembers m m' → agent.Ready m'

theorem Remembers.of_asked {agent : Agent σ} {m m' : σ} {s : Position} (hs : s.TargetOnBoard)
    (h : agent.Remembers (agent.choose m s).2 m') : agent.Remembers m m' := by
  induction h with
  | start => exact .asked hs .start
  | asked hs' _ ih => exact .asked hs' ih

namespace Willing

theorem ready {agent : Agent σ} {m : σ} (h : agent.Willing m) : agent.Ready m := h m .start

/-- A willing agent stays willing. -/
theorem asked {agent : Agent σ} {m : σ} (h : agent.Willing m) {s : Position}
    (hs : s.TargetOnBoard) : agent.Willing (agent.choose m s).2 :=
  fun m' hm' => h m' (hm'.of_asked hs)

end Willing

/-- An agent that is ready with any memory is willing. -/
theorem willing_of_forall {agent : Agent σ} (h : ∀ m, agent.Ready m) (m : σ) :
    agent.Willing m :=
  fun m' _ => h m'

/-- What two agents remember is what each of them may remember. -/
theorem Remembers.versus {red : Agent σ} {blue : Agent τ} {r : σ} {b : τ} {m : σ × τ}
    (h : (red.versus blue).Remembers (r, b) m) : red.Remembers r m.1 ∧ blue.Remembers b m.2 := by
  induction h with
  | start => exact ⟨.start, .start⟩
  | @asked m s hs _ ih =>
    simp only [Agent.versus]
    cases s.turn with
    | red => exact ⟨.asked hs ih.1, ih.2⟩
    | blue => exact ⟨ih.1, .asked hs ih.2⟩

/-- **Two willing agents play a game willingly.** -/
theorem Willing.versus {red : Agent σ} {blue : Agent τ} {r : σ} {b : τ} (hr : red.Willing r)
    (hb : blue.Willing b) : (red.versus blue).Willing (r, b) := by
  intro m hm s htarget hs
  obtain ⟨hmr, hmb⟩ := hm.versus
  simp only [Agent.versus]
  cases s.turn with
  | red => exact hr m.1 hmr s htarget hs
  | blue => exact hb m.2 hmb s htarget hs

theorem random_ready (g : Generator) : Agent.random.Ready g := fun _ _ hs => g.exists_choose hs

/-- **The random agent is willing**, whatever its stream. -/
theorem random_willing (g : Generator) : Agent.random.Willing g := willing_of_forall random_ready g

end Agent

/-! ### One game after another -/

namespace Agent

variable {σ : Type} {agent : Agent σ} {m : σ}

/-- What an agent that remembers `m` may remember later, when it has been asked for
choices and new games have begun. -/
inductive Recalls (agent : Agent σ) (m : σ) : σ → Prop
  | start : Recalls agent m m
  | asked {m' : σ} {s : Position} (hs : s.TargetOnBoard) : Recalls agent m m' →
      Recalls agent m (agent.choose m' s).2
  | renewed {m' : σ} : Recalls agent m m' → Recalls agent m (agent.reset m')

/-- From memory `m` on the agent chooses a legal placement wherever there is one, in
this game and in those that are begun after it. -/
def Obliging (agent : Agent σ) (m : σ) : Prop := ∀ m', agent.Recalls m m' → agent.Willing m'

theorem Recalls.trans {m' m'' : σ} (h : agent.Recalls m m') (h' : agent.Recalls m' m'') :
    agent.Recalls m m'' := by
  induction h' with
  | start => exact h
  | asked hs _ ih => exact ih.asked hs
  | renewed _ ih => exact ih.renewed

namespace Obliging

theorem willing (h : agent.Obliging m) : agent.Willing m := h m .start

/-- An obliging agent stays obliging. -/
theorem of_recalls (h : agent.Obliging m) {m' : σ} (hm : agent.Recalls m m') :
    agent.Obliging m' :=
  fun m'' hm' => h m'' (hm.trans hm')

end Obliging

theorem Remembers.recalls {m' : σ} (h : agent.Remembers m m') : agent.Recalls m m' := by
  induction h with
  | start => exact .start
  | asked hs _ ih => exact ih.asked hs

/-- An agent that always remembers the same is obliging if it is ready then. What it would
do with another memory makes no difference. -/
theorem obliging_of_fixed (hask : ∀ s, (agent.choose m s).2 = m) (hreset : agent.reset m = m)
    (h : agent.Ready m) : agent.Obliging m := by
  have hsame {m' : σ} (hm : agent.Recalls m m') : m' = m := by
    induction hm with
    | start => rfl
    | asked _ _ ih => rw [ih, hask]
    | renewed _ ih => rw [ih, hreset]
  intro m' hm m'' hm'
  rw [hsame (hm.trans hm'.recalls)]
  exact h

/-- An agent that is ready with any memory is obliging. -/
theorem obliging_of_forall (h : ∀ m, agent.Ready m) (m : σ) : agent.Obliging m :=
  fun m' _ => willing_of_forall h m'

/-- The random agent is obliging too, since a new game goes on with the same stream. -/
theorem random_obliging (g : Generator) : Agent.random.Obliging g :=
  obliging_of_forall random_ready g

end Agent

/-! ### Bots -/

namespace Bot

/-- The bot that takes the first legal placement is obliging. That its memory could as
well be a script, which takes no notice of the rules, does no harm. -/
theorem first_obliging : agent.Obliging .first :=
  Agent.obliging_of_fixed (fun _ => rfl) rfl fun _ _ hs =>
    ⟨_, List.head_mem hs, List.head?_eq_some_head hs⟩

theorem last_obliging : agent.Obliging .last :=
  Agent.obliging_of_fixed (fun _ => rfl) rfl fun _ _ hs =>
    ⟨_, List.getLast_mem hs, List.getLast?_eq_some_getLast hs⟩

theorem first_willing : agent.Willing .first := first_obliging.willing

theorem last_willing : agent.Willing .last := last_obliging.willing

end Bot

end UltimateTicTacToe
