import ProductQuantization.Number.Size

/-!
# Sources of random words

A `RandomSource` is a state from which sixty-four-bit and thirty-two-bit words can be drawn; each
draw gives a word and the state after it.  Everything random in the library is a function of such a
state, and returns the state it leaves behind, so that how much was drawn is part of the answer.

A number below `n` is drawn by *scaled rejection*: a word `w` of `b` bits, taken as a fraction of
`2 ^ b`, is scaled up by `n`, and the whole part of `w * n / 2 ^ b` is the number.  Words whose
remainder `w * n % 2 ^ b` exceeds a bound are refused and another word is drawn, which makes all
numbers equally likely.  A word is refused with probability below one half.  A source could go on
giving words that are refused, and would then be asked for ever; so that every draw ends in a number,
the last of `patience` words refused in a row is taken as it is.
-/

set_option autoImplicit false

namespace ProductQuantization

/-- A state from which random words are drawn. -/
class RandomSource (σ : Type) where
  /-- Sixty-four bits. -/
  next64 : σ → UInt64 × σ
  /-- Thirty-two bits. -/
  next32 : σ → UInt32 × σ

namespace Random

/-- How many words in a row may be refused. -/
def patience : Nat := wordValues 32

theorem scaled_lt {b w n : Nat} (hw : w < wordValues b) (hn : 0 < n) :
    w * n / wordValues b < n :=
  Nat.div_lt_of_lt_mul (Nat.mul_lt_mul_of_pos_right hw hn)

/-- Draw words until one is not refused, and scale it.  `word` draws a word of `b` bits. -/
def scaledRejection {σ : Type} (b : Nat) (word : σ → Fin (wordValues b) × σ) (n : Nat) (hn : 0 < n)
    (bound : Nat) : Nat → σ → Fin n × σ
  | 0, s =>
    let (w, s) := word s
    (⟨w.val * n / wordValues b, scaled_lt w.isLt hn⟩, s)
  | fuel + 1, s =>
    let (w, s') := word s
    if w.val * n % wordValues b ≤ bound then (⟨w.val * n / wordValues b, scaled_lt w.isLt hn⟩, s')
    else scaledRejection b word n hn bound fuel s'

/-- The bound that costs no division: `n` shifted up to the full width, less one. -/
def shiftedBound (b n : Nat) : Nat := n * wordValues (b - 1 - n.log2) - 1

/-- The bound that refuses as few words as possible. -/
def exactBound (b n : Nat) : Nat := wordValues b - 1 - (wordValues b - n) % n

variable {σ : Type} [RandomSource σ]

/-- Sixty-four bits as a number. -/
def word64 (s : σ) : Fin (wordValues 64) × σ :=
  let (w, s) := RandomSource.next64 s
  (⟨w.toNat, w.toNat_lt⟩, s)

/-- Thirty-two bits as a number. -/
def word32 (s : σ) : Fin (wordValues 32) × σ :=
  let (w, s) := RandomSource.next32 s
  (⟨w.toNat, w.toNat_lt⟩, s)

/-- A number below `n`, drawn with sixty-four-bit words. -/
def below (n : Nat) (hn : 0 < n) (s : σ) : Fin n × σ :=
  scaledRejection 64 word64 n hn (shiftedBound 64 n) patience s

/-- A number below `n`, drawn with thirty-two-bit words. -/
def below32 (n : Nat) (hn : 0 < n) (s : σ) : Fin n × σ :=
  scaledRejection 32 word32 n hn (shiftedBound 32 n) patience s

/-- A number below `n`, drawn with words of thirty-two bits, or of sixty-four if `n` is no word of
thirty-two bits; as few words as possible are refused. -/
def belowExact (n : Nat) (hn : 0 < n) (s : σ) : Fin n × σ :=
  if n < wordValues 32 then scaledRejection 32 word32 n hn (exactBound 32 n) patience s
  else scaledRejection 64 word64 n hn (exactBound 64 n) patience s

/-- A float in `[0, 1)`: the upper fifty-three bits of a word over `2 ^ 53`. -/
def unit (s : σ) : Float × σ :=
  let (w, s) := RandomSource.next64 s
  ((w >>> 11).toFloat * 1.1102230246251565e-16, s)

/-- Draw `count` words of sixty-four bits. -/
def words (count : Nat) (s : σ) : List UInt64 × σ :=
  match count with
  | 0 => ([], s)
  | count + 1 =>
    let (w, s) := RandomSource.next64 s
    let (ws, s) := words count s
    (w :: ws, s)

end Random
end ProductQuantization
