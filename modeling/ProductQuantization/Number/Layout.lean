import ProductQuantization.Number.Shortest

/-!
# Writing numbers

A number is written in one of two ways.  `plain` is the shortest text that reads back, never with
an exponent and without a point where no digit follows it.  `fixed` has a given number of places
after the point and rounds the exact value, a half going to the even neighbour.  Infinity is `inf`,
not-a-number is `NaN`, and a negative zero keeps its sign.
-/

set_option autoImplicit false

namespace ProductQuantization

open Float.Model (Format UnpackedFloat)

/-- The digits before and after the point of a decimal written without an exponent. -/
def Decimal.positional (d : Decimal) : List Digit × List Digit :=
  if 0 ≤ d.exponent then
    let n := d.exponent.toNat + 1
    (d.digits.take n ++ List.replicate (n - d.digits.length) Digit.zero, d.digits.drop n)
  else
    ([Digit.zero], List.replicate ((-d.exponent).toNat - 1) Digit.zero ++ d.digits)

/-- Digits with a point between the two parts, or without a point if the second part is empty. -/
def writePointed (whole fraction : List Digit) : String :=
  if fraction.isEmpty then writeDigits whole
  else writeDigits whole ++ "." ++ writeDigits fraction

/-- The text of the sign. -/
def writeSign : UnpackedFloat.Sign → String
  | .positive => ""
  | .negative => "-"

/-- The shortest text that reads back as `x`, without an exponent. -/
def plain (x : Float) : String :=
  match x.toModel.unpack with
  | .notANumber => "NaN"
  | .infinity s => writeSign s ++ "inf"
  | .zero s => writeSign s ++ "0"
  | .finite s m e _ =>
    let (whole, fraction) := (shortest .up .binary64 m e).positional
    writeSign s ++ writePointed whole fraction

/-- The whole number nearest to `num / den`, a half going to the even neighbour. -/
def roundHalfEven (num den : Nat) : Nat :=
  let q := num / den
  match compare (2 * (num % den)) den with
  | .lt => q
  | .gt => q + 1
  | .eq => q + q % 2

/-- The whole number `n` of units in the last of `places` places, with the point put in. -/
def writeScaled (places n : Nat) : String :=
  let ds := digitsOf n
  let padded := List.replicate (places + 1 - ds.length) Digit.zero ++ ds
  let cut := padded.length - places
  writePointed (padded.take cut) (padded.drop cut)

/-- The text of `x` with `places` digits after the point. -/
def fixed (places : Nat) (x : Float) : String :=
  match x.toModel.unpack with
  | .notANumber => "NaN"
  | .infinity s => writeSign s ++ "inf"
  | .zero s => writeSign s ++ writeScaled places 0
  | .finite s m e _ =>
    let units :=
      roundHalfEven (m * Nat.pow 2 e.toNat * Nat.pow 10 places) (Nat.pow 2 (-e).toNat)
    writeSign s ++ writeScaled places units

end ProductQuantization
