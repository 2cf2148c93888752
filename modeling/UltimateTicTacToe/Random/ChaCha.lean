/-
# The ChaCha stream with eight rounds

A key of eight words and a block counter give a block of sixteen words: four
constants, the key, the counter in two words and two words of zero are mixed by
four double rounds, and the words before the mixing are added. The blocks from
counter 0 on make one long stream of words, which begins to repeat only after
`2 ^ 68` of them.

Key definitions: `ChaCha.block`, `ChaCha.keyOfSeed`.
-/
namespace UltimateTicTacToe
namespace ChaCha

/-- The words that are mixed. -/
abbrev Words := Vector UInt32 16

/-- Turns the bits of a word to the left. -/
def rotateLeft (x n : UInt32) : UInt32 := (x <<< n) ||| (x >>> (32 - n))

/-- Turns the bits of a word to the right. -/
def rotateRight (x n : UInt32) : UInt32 := (x >>> n) ||| (x <<< (32 - n))

/-- Mixes the words at four places. -/
def quarterRound (w : Words) (a b c d : Fin 16) : Words :=
  let xa := w[a] + w[b]
  let xd := rotateLeft (w[d] ^^^ xa) 16
  let xc := w[c] + xd
  let xb := rotateLeft (w[b] ^^^ xc) 12
  let xa := xa + xb
  let xd := rotateLeft (xd ^^^ xa) 8
  let xc := xc + xd
  let xb := rotateLeft (xb ^^^ xc) 7
  (((w.set a xa).set b xb).set c xc).set d xd

/-- Mixes the columns and then the diagonals of the words, four by four. -/
def doubleRound (w : Words) : Words :=
  let w := quarterRound w 0 4 8 12
  let w := quarterRound w 1 5 9 13
  let w := quarterRound w 2 6 10 14
  let w := quarterRound w 3 7 11 15
  let w := quarterRound w 0 5 10 15
  let w := quarterRound w 1 6 11 12
  let w := quarterRound w 2 7 8 13
  quarterRound w 3 4 9 14

/-- The words before the mixing. -/
def initial (key : Vector UInt32 8) (counter : Nat) : Words :=
  #v[0x61707865, 0x3320646e, 0x79622d32, 0x6b206574,
    key[0], key[1], key[2], key[3], key[4], key[5], key[6], key[7],
    .ofNat counter, .ofNat (counter / UInt32.size), 0, 0]

/-- The block with a counter. -/
def block (key : Vector UInt32 8) (counter : Nat) : Words :=
  let w := initial key counter
  (doubleRound (doubleRound (doubleRound (doubleRound w)))).zipWith (· + ·) w

/-! ### Keys from a seed -/

/-- The next state of the generator that spreads a seed over a key. -/
def spread (state : UInt64) : UInt64 := state * 6364136223846793005 + 11634580027462260723

/-- The word that a state gives. -/
def wordOf (state : UInt64) : UInt32 :=
  rotateRight (((state >>> 18) ^^^ state) >>> 27).toUInt32 (state >>> 59).toUInt32

/-- The state after `n` steps. -/
def stateAfter : Nat → UInt64 → UInt64
  | 0, state => state
  | n + 1, state => stateAfter n (spread state)

/-- The key that belongs to a seed. -/
def keyOfSeed (seed : UInt64) : Vector UInt32 8 :=
  Vector.ofFn fun i => wordOf (stateAfter (i + 1) seed)

end ChaCha
end UltimateTicTacToe
