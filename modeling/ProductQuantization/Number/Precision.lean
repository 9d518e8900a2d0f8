/-!
# Two precisions

The library computes in the two IEEE binary formats: `Float32` for stored components and for the
distances between them, `Float` for everything that is summed.  This file is the bridge between
them.  `widen` is exact, since every binary32 number is a binary64 number, and `narrow` rounds to
nearest, ties to even, overflowing to infinity and underflowing through the subnormal numbers.

Both directions are one function, `regrain`: take the exact value apart and round it to the format
asked for.
-/

set_option autoImplicit false

namespace ProductQuantization

open Float.Model (Format UnpackedFloat)

/-- The same value, rounded to the nearest one that `format` can hold. -/
def regrain (format : Format) : UnpackedFloat → UnpackedFloat
  | .finite sign mantissa exponent _ => UnpackedFloat.round format sign mantissa exponent
  | x => x

/-- The binary64 number equal to `x`. -/
def widen (x : Float32) : Float :=
  .ofModel (.pack (regrain .binary64 x.toModel.unpack))

/-- The binary32 number nearest to `x`, ties going to the even one. -/
def narrow (x : Float) : Float32 :=
  .ofModel (.pack (regrain .binary32 x.toModel.unpack))

end ProductQuantization
