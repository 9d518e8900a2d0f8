import ProductQuantization.Number.Single

/-!
# Stored numbers of double width

A `Double` is to double precision what a `Single` is to single precision: sixty-four bits, with a
number behind them.  Means are summed in this width before they are stored again, and a mean that is
not a number has bits too.  They come from the points it is the mean of, by the rule that holds for
stored numbers, so the sums are taken on the bits.

Between the widths a not-a-number pattern keeps its sign and the upper end of its payload, and it
becomes quiet.
-/

set_option autoImplicit false

namespace ProductQuantization

/-- A binary64 datum: the sixty-four bits of a number as they are stored. -/
structure Double where
  /-- The sign bit, eleven exponent bits and fifty-two fraction bits. -/
  bits : UInt64
deriving DecidableEq, Repr, Inhabited

namespace Double

/-- Positive zero. -/
def zero : Double := ⟨0⟩

/-- What an operation on numbers gives that has no number for a result: the negative quiet
not-a-number with an empty payload. -/
def undefined : Double := ⟨0xfff8000000000000⟩

/-- The number behind the bits. -/
def value (x : Double) : Float := Float.ofBits x.bits

/-- The bits of a number. -/
def ofValue (x : Float) : Double := ⟨x.toBits⟩

/-- The bits of a count. -/
def ofNat (n : Nat) : Double := ofValue (Float.ofNat n)

/-! ## Arithmetic -/

/-- Whether the bits stand for no number. -/
def isNaN (x : Double) : Bool := 0x7ff0000000000000 < x.bits &&& 0x7fffffffffffffff

/-- The same not-a-number, made quiet. -/
def quiet (x : Double) : Double := ⟨x.bits ||| 0x0008000000000000⟩

/-- An operation on numbers as an operation on stored numbers. -/
@[inline] def lift (op : Float → Float → Float) (x y : Double) : Double :=
  if x.isNaN then x.quiet
  else if y.isNaN then y.quiet
  else
    let z := op x.value y.value
    if z.isNaN then undefined else ofValue z

instance : Add Double := ⟨lift (· + ·)⟩
instance : Div Double := ⟨lift (· / ·)⟩

/-! ## The two widths -/

/-- The same number, or a quiet not-a-number with the same sign and payload. -/
def ofSingle (x : Single) : Double :=
  if x.isNaN then
    let sign : UInt64 := (x.bits &&& 0x80000000).toUInt64 <<< 32
    let payload : UInt64 := (x.bits &&& 0x007fffff).toUInt64 <<< 29
    quiet ⟨sign ||| 0x7ff0000000000000 ||| payload⟩
  else ofValue x.toFloat

/-- The nearest binary32 number, or a quiet not-a-number with the same sign and the upper end of the
payload. -/
def toSingle (x : Double) : Single :=
  if x.isNaN then
    let sign : UInt32 := (x.bits >>> 32).toUInt32 &&& 0x80000000
    let payload : UInt32 := (x.bits >>> 29).toUInt32 &&& 0x007fffff
    Single.quiet ⟨sign ||| 0x7f800000 ||| payload⟩
  else Single.ofFloat x.value

end Double
end ProductQuantization
