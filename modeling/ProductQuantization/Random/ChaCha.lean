import ProductQuantization.Random.Source

/-!
# The seeded source

The words of a seeded source are the ChaCha keystream with twelve rounds.  A `ChaCha` is a key and
a position in the one endless sequence of thirty-two-bit words that the key determines: block after
block of sixteen words, the block number being the counter.  A sixty-four-bit word is two words of
the sequence, the low half first.

`ChaCha.ofSeed` stretches a sixty-four-bit seed into the eight words of a key.
-/

set_option autoImplicit false

namespace ProductQuantization

/-- A place in the keystream of a key. -/
structure ChaCha where
  key : Vector UInt32 8
  /-- How many words of the keystream have been used. -/
  position : Nat

namespace ChaCha

/-- The sixteen words that are mixed. -/
abbrev Block := Vector UInt32 16

/-- Rotate a word to the left. -/
def rotateLeft (x : UInt32) (k : UInt32) : UInt32 := (x <<< k) ||| (x >>> (32 - k))

/-- Mix four words of a block. -/
def quarterRound (a b c d : Fin 16) (x : Block) : Block :=
  let x := x.set a (x[a] + x[b])
  let x := x.set d (rotateLeft (x[d] ^^^ x[a]) 16)
  let x := x.set c (x[c] + x[d])
  let x := x.set b (rotateLeft (x[b] ^^^ x[c]) 12)
  let x := x.set a (x[a] + x[b])
  let x := x.set d (rotateLeft (x[d] ^^^ x[a]) 8)
  let x := x.set c (x[c] + x[d])
  x.set b (rotateLeft (x[b] ^^^ x[c]) 7)

/-- A round over the four columns and a round over the four diagonals. -/
def doubleRound (x : Block) : Block :=
  let x := quarterRound 0 4 8 12 x
  let x := quarterRound 1 5 9 13 x
  let x := quarterRound 2 6 10 14 x
  let x := quarterRound 3 7 11 15 x
  let x := quarterRound 0 5 10 15 x
  let x := quarterRound 1 6 11 12 x
  let x := quarterRound 2 7 8 13 x
  quarterRound 3 4 9 14 x

/-- The words that go into block `counter`: four constants, the key, the counter, and a stream
number of zero. -/
def input (key : Vector UInt32 8) (counter : Nat) : Block :=
  #v[0x61707865, 0x3320646e, 0x79622d32, 0x6b206574,
    key[0], key[1], key[2], key[3], key[4], key[5], key[6], key[7],
    counter.toUInt32, (counter / wordValues 32).toUInt32, 0, 0]

/-- Block `counter` of the keystream: six double rounds, and the input added on. -/
def block (key : Vector UInt32 8) (counter : Nat) : Block :=
  let start := input key counter
  let mixed := (List.range 6).foldl (fun x _ => doubleRound x) start
  mixed.zipWith (· + ·) start

/-- Word `i` of the keystream. -/
def word (key : Vector UInt32 8) (i : Nat) : UInt32 :=
  (block key (i / 16))[(⟨i % 16, Nat.mod_lt i (by decide)⟩ : Fin 16)]

/-- One step of the congruential generator that stretches seeds. -/
def stretchState (s : UInt64) : UInt64 := s * 6364136223846793005 + 11634580027462260723

/-- The word that a state of the seed stretcher gives: its upper bits folded and rotated. -/
def stretchWord (s : UInt64) : UInt32 :=
  let x := (((s >>> 18) ^^^ s) >>> 27).toUInt32
  let k := (s >>> 59).toUInt32
  (x >>> k) ||| (x <<< ((32 - k) % 32))

/-- State `i + 1` of the seed stretcher. -/
def stretchAfter (seed : UInt64) : Nat → UInt64
  | 0 => stretchState seed
  | i + 1 => stretchState (stretchAfter seed i)

/-- The start of the keystream that a seed determines. -/
def ofSeed (seed : UInt64) : ChaCha where
  key := Vector.ofFn fun i => stretchWord (stretchAfter seed i.val)
  position := 0

instance : RandomSource ChaCha where
  next32 s := (word s.key s.position, { s with position := s.position + 1 })
  next64 s :=
    let low := word s.key s.position
    let high := word s.key (s.position + 1)
    (high.toUInt64 <<< 32 ||| low.toUInt64, { s with position := s.position + 2 })

end ChaCha
end ProductQuantization
