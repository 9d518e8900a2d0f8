import ProductQuantization.Json.Basic
import ProductQuantization.Number.Layout
import ProductQuantization.Number.Single
import ProductQuantization.Number.Size

/-!
# Numbers in JSON

**Reading.**  A whole number is one written without point and exponent, and not `-0`.  Any number
can be read as a float: as many leading digits as fit in sixty-four bits are taken as a whole
number, converted, and multiplied or divided once by a power of ten.  Each of these steps rounds,
so a number with many digits can come out one place away from the nearest float.  A number beyond
the largest float is refused; one too small for the least becomes zero.

**Writing.**  A float is written with the shortest digits that read back, a tie going to the even
digit: with a point and at least one digit after it while the leading exponent is in the range that
`FloatStyle` gives, else with an exponent that always has a sign.  Infinities and not-a-number have
no JSON numeral and become `null`.
-/

set_option autoImplicit false

namespace ProductQuantization
namespace Json

open Float.Model (Format UnpackedFloat)

namespace Number

/-- The whole number written, if it is one. -/
def toInt? (n : Number) : Option Int :=
  if n.fraction ≠ [] ∨ n.exponent ≠ none then none
  else
    let k := natOfDigits n.whole
    if n.negative then (if k = 0 then none else some (-(k : Int))) else some k

/-- Extend `significand` by digits as long as it stays below `2 ^ 64`; what is left over comes
back. -/
def absorb (significand : Nat) : List Digit → Nat × List Digit
  | [] => (significand, [])
  | d :: ds =>
    if significand * 10 + d.val < wordValues 64 then absorb (significand * 10 + d.val) ds
    else (significand, d :: ds)

/-- A power of ten as a float. -/
def powerOfTen (k : Nat) : Float := Float.ofScientific 1 false k

/-- `f · 10 ^ e` in one step, or in steps of `10 ^ 308` where the power itself would overflow.
There is no answer above the largest float. -/
def scaled (f : Float) (e : Int) : Option Float :=
  if e.natAbs ≤ 308 then
    if 0 ≤ e then
      let x := f * powerOfTen e.natAbs
      if x.isInf then none else some x
    else some (f / powerOfTen e.natAbs)
  else if f == 0.0 then some f
  else if h : 0 ≤ e then none
  else scaled (f / powerOfTen 308) (e + 308)
termination_by e.natAbs
decreasing_by omega

/-- The number as a float. -/
def toFloat? (n : Number) : Option Float :=
  let (significand, dropped) := absorb 0 n.whole
  let (significand, unused) := absorb significand n.fraction
  let shift : Int := dropped.length - (n.fraction.length - unused.length)
  (scaled (Float.ofNat significand) (shift + n.exponent.getD 0)).map fun x =>
    if n.negative then -x else x

/-- The number in single precision.  A whole number of at most sixty-four bits is rounded once,
any other number by way of double precision. -/
def toSingle? (n : Number) : Option Single :=
  match n.toInt? with
  | some k =>
    if 0 ≤ k ∧ k < wordValues 64 then some (.ofValue (Float32.ofNat k.natAbs))
    else if -(wordValues 63 : Int) ≤ k ∧ k < 0 then some (.ofValue (-Float32.ofNat k.natAbs))
    else n.toFloat?.map .ofFloat
  | none => n.toFloat?.map .ofFloat

end Number

/-- The leading exponents for which a float is written without an exponent. -/
structure FloatStyle where
  least : Int
  greatest : Int

/-- How single-precision numbers are written. -/
def FloatStyle.single : FloatStyle := ⟨-6, 12⟩

/-- How double-precision numbers are written. -/
def FloatStyle.double : FloatStyle := ⟨-5, 15⟩

/-- The numeral of a positive decimal with a sign put in front. -/
def Number.ofDecimal (style : FloatStyle) (negative : Bool) (d : Decimal) : Number :=
  if style.least ≤ d.exponent ∧ d.exponent ≤ style.greatest then
    let (whole, fraction) := d.positional
    ⟨negative, whole, if fraction.isEmpty then [Digit.zero] else fraction, none⟩
  else ⟨negative, d.digits.take 1, d.digits.drop 1, some d.exponent⟩

/-- A float of the given format as a JSON value. -/
def ofUnpacked (style : FloatStyle) (format : Format) : UnpackedFloat → Json
  | .notANumber => .null
  | .infinity _ => .null
  | .zero s => .number ⟨s == .negative, [Digit.zero], [Digit.zero], none⟩
  | .finite s m e _ => .number (.ofDecimal style (s == .negative) (shortest .toEven format m e))

/-- A single-precision number as a JSON value. -/
def ofSingle (x : Single) : Json := ofUnpacked .single .binary32 x.value.toModel.unpack

/-- A double-precision number as a JSON value. -/
def ofFloat (x : Float) : Json := ofUnpacked .double .binary64 x.toModel.unpack

end Json
end ProductQuantization
