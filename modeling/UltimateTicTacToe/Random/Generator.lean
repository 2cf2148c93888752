/-
# Random choices

A generator hands out the words of a ChaCha stream one after the other. To choose
among `n` things, a word is multiplied by `n`: the upper half of the product is
the choice, and the word is refused and another one taken if the lower half lies
beyond the largest multiple of `n` that is a shift of it, so that every choice is
equally likely.

Key definitions: `Generator`, `Generator.ofSeed`, `Generator.index`,
`Generator.choose`.
-/
import UltimateTicTacToe.Random.ChaCha

namespace UltimateTicTacToe

/-- A stream of words at some place. -/
structure Generator where
  key : Vector UInt32 8
  /-- The counter of the next block. -/
  counter : Nat
  /-- The words left of the block before. -/
  words : List UInt32
  deriving DecidableEq, Repr

namespace Generator

/-- The start of the stream that belongs to a seed. -/
def ofSeed (seed : UInt64) : Generator := ⟨ChaCha.keyOfSeed seed, 0, []⟩

/-- The next word of the stream. -/
def next (g : Generator) : UInt32 × Generator :=
  match g.words with
  | w :: words => (w, { g with words })
  | [] =>
    let block := ChaCha.block g.key g.counter
    (block[0], { g with counter := g.counter + 1, words := block.toList.tail })

/-- The largest lower half of a product with which a choice among `n` is
kept. -/
def zone (n : Nat) : Nat := n <<< (31 - Nat.log2 n) - 1

/-- Chooses a number below `n`, taking at most `tries + 1` words. The last of them is kept
without a look at its lower half, so a word that should be refused counts there. -/
def indexWithin (n : Nat) : Nat → Generator → Nat × Generator
  | 0, g =>
    let (w, g) := g.next
    (w.toNat * n / UInt32.size, g)
  | tries + 1, g =>
    let (w, g) := g.next
    if w.toNat * n % UInt32.size ≤ zone n then (w.toNat * n / UInt32.size, g)
    else indexWithin n tries g

/-- Chooses a number below `n`. As many words as the stream has are enough: if
all of them are refused, the same ones come again for ever, and the choice would
never be made. Only then is a word kept that should be refused. -/
def index (g : Generator) (n : Nat) : Nat × Generator := indexWithin n (Nat.pow 2 68) g

/-- Chooses one of the items. Where there are none, no word is taken. -/
def choose {α : Type} (g : Generator) : List α → Option α × Generator
  | [] => (none, g)
  | items@(_ :: _) =>
    let (i, g) := g.index items.length
    (items[i]?, g)

end Generator
end UltimateTicTacToe
