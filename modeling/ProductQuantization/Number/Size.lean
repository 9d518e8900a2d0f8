/-!
# Sizes and words

A word of `n` bits has `wordValues n` values.

Sizes are natural numbers, and what the library computes from the sizes of its own values it
computes exactly.  Shapes that are *declared* — in a file, or beside a buffer that is meant to fill
them — are sixty-four-bit words, and so are the products that check them: a product that is larger
wraps around.  Where a buffer is made for a matrix its size is not declared, and must not wrap, or the
buffer would not fill the matrix.
-/

set_option autoImplicit false

namespace ProductQuantization

/-- How many values a word of `n` bits has: two to the power `n`. -/
def wordValues (n : Nat) : Nat := Nat.pow 2 n

/-- The product of two declared sizes, a sixty-four-bit word. -/
def sizeProduct (a b : Nat) : Nat := a * b % wordValues 64

/-- Whether a signed field and a size are the same sixty-four-bit word. -/
def sameWord (field : Int) (size : Nat) : Bool := (field - size) % (wordValues 64 : Nat) = 0

end ProductQuantization
