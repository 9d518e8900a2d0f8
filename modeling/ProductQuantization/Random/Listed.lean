import ProductQuantization.Random.Source

/-!
# A listed source

A source whose words are written down, for reproducing a particular course of events.  When the
list is used up it goes on with a linear congruential sequence.  A thirty-two-bit word is the lower
half of a sixty-four-bit one.
-/

set_option autoImplicit false

namespace ProductQuantization

/-- The words still to come, and the state of the sequence that follows them. -/
structure ListedSource where
  pending : List UInt64
  state : UInt64

namespace ListedSource

/-- The source that begins with the given words. -/
def ofList (words : List UInt64) : ListedSource := ⟨words, 0⟩

/-- The next word. -/
def next (s : ListedSource) : UInt64 × ListedSource :=
  match s.pending with
  | w :: rest => (w, { s with pending := rest })
  | [] =>
    let w := s.state * 6364136223846793005 + 1442695040888963407
    (w, { s with state := w })

instance : RandomSource ListedSource where
  next64 := next
  next32 s :=
    let (w, s) := next s
    (w.toUInt32, s)

end ListedSource
end ProductQuantization
