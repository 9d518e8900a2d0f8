import ProductQuantization.Number.Single
import ProductQuantization.Number.Size

/-!
# Orders on floating-point numbers

`<` on floats is no total order: not-a-number is incomparable and the two zeros are equal.  Where
the library sorts, it sorts by `rank32` or `rank64`, a key that puts every bit pattern in its place:
negative not-a-number, negative infinity, …, `-0`, `+0`, …, infinity, not-a-number.

`maxNumber` is the larger of two numbers, and the other operand when one is not a number.
`unitSign` is the sign as a number, which a zero also has.
-/

set_option autoImplicit false

namespace ProductQuantization

/-- The place of a `width`-bit pattern in the total order: the negative patterns come first, in
reverse. -/
def rankOfBits (width bits : Nat) : Nat :=
  if bits < wordValues (width - 1) then bits + wordValues (width - 1)
  else wordValues width - 1 - bits

/-- The place of a stored number in the total order. -/
def rank32 (x : Single) : Nat := rankOfBits 32 x.bits.toNat

/-- The place of a double-precision number in the total order. -/
def rank64 (x : Float) : Nat := rankOfBits 64 x.toBits.toNat

/-- The larger number; when one of the two is not a number, the other one. -/
def maxNumber (x y : Float) : Float :=
  if x.isNaN then y else if y.isNaN then x else if x < y then y else x

/-- One with the sign of `x`, zeros included; not-a-number has no sign to give. -/
def unitSign (x : Float) : Float :=
  if x.isNaN then x else if x.toBits.toNat < wordValues 63 then 1.0 else -1.0

/-- The sum in list order.  An empty sum is `-0`, the one value that changes nothing it is added
to. -/
def sumInOrder (xs : List Float) : Float := xs.foldl (· + ·) (-0.0)

end ProductQuantization
