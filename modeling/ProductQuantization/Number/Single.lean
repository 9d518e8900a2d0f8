import ProductQuantization.Number.Precision

/-!
# Stored numbers

A component of a vector, as it lies in a buffer or in a file, is thirty-two bits.  Copying one must
not change it, so a `Single` *is* its bits: two different not-a-number patterns are two different
components.  The number behind the bits is `Single.value`, where all not-a-number patterns are one
value.

Sums, differences and products of stored numbers are stored numbers again, and a result that is not
a number still has its bits: those of the operand that was none already, the first before the
second, made quiet; or those of `Single.undefined` if both operands were numbers.
-/

set_option autoImplicit false

namespace ProductQuantization

/-- A binary32 datum: the thirty-two bits of a number as they are stored. -/
structure Single where
  /-- The sign bit, eight exponent bits and twenty-three fraction bits. -/
  bits : UInt32
deriving DecidableEq, Repr, Inhabited

namespace Single

/-- Positive zero. -/
def zero : Single := ⟨0⟩

/-- The number one. -/
def one : Single := ⟨0x3f800000⟩

/-- The positive quiet not-a-number with an empty payload. -/
def nan : Single := ⟨0x7fc00000⟩

/-- What an operation on numbers gives that has no number for a result: the negative quiet
not-a-number with an empty payload. -/
def undefined : Single := ⟨0xffc00000⟩

/-- Positive infinity. -/
def infinity : Single := ⟨0x7f800000⟩

/-- The number behind the bits. -/
def value (x : Single) : Float32 := Float32.ofBits x.bits

/-- The bits of a number. -/
def ofValue (x : Float32) : Single := ⟨x.toBits⟩

/-- The number behind the bits, in double precision. -/
def toFloat (x : Single) : Float := widen x.value

/-- The nearest binary32 number. -/
def ofFloat (x : Float) : Single := ofValue (narrow x)

/-- The same datum with the other sign. -/
def negate (x : Single) : Single := ⟨x.bits ^^^ 0x80000000⟩

/-- Equality of numbers: the two zeros are equal, and not-a-number equals nothing. -/
def sameValue (x y : Single) : Bool := x.value == y.value

/-! ## Arithmetic -/

/-- Whether the bits stand for no number. -/
def isNaN (x : Single) : Bool := 0x7f800000 < x.bits &&& 0x7fffffff

/-- The same not-a-number, made quiet. -/
def quiet (x : Single) : Single := ⟨x.bits ||| 0x00400000⟩

/-- An operation on numbers as an operation on stored numbers. -/
@[inline] def lift (op : Float32 → Float32 → Float32) (x y : Single) : Single :=
  if x.isNaN then x.quiet
  else if y.isNaN then y.quiet
  else
    let z := op x.value y.value
    if z.isNaN then undefined else ofValue z

instance : Add Single := ⟨lift (· + ·)⟩
instance : Sub Single := ⟨lift (· - ·)⟩
instance : Mul Single := ⟨lift (· * ·)⟩

end Single
end ProductQuantization
