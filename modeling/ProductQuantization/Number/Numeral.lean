import ProductQuantization.Number.Digits
import ProductQuantization.Number.Single

/-!
# Reading numbers

A numeral is an optional sign and then one of the words `inf`, `infinity` and `nan`, in any mixture
of cases, or digits with an optional point, at least one digit on one side of it, and an optional
exponent.  Nothing else, blanks included, is a numeral.  The digits are read exactly and rounded
once, straight to single precision.

The digits of an exponent are read until it is at least `exponentLimit`; those that follow are
passed over.  An exponent that far out makes the number zero or infinity, unless some hundred
thousand digits around the point make up for it.
-/

set_option autoImplicit false

namespace ProductQuantization

/-- An unsigned decimal as it is written: `mantissa · 10 ^ exponent`. -/
structure Scientific where
  mantissa : Nat
  exponent : Int
deriving DecidableEq, Repr

namespace Scientific

/-- The least power of ten beyond all single-precision numbers. -/
def overflowExponent : Int := 39

/-- Whether the number is at least `10 ^ overflowExponent`. -/
def overflows (x : Scientific) : Bool :=
  if overflowExponent ≤ x.exponent then x.mantissa ≠ 0
  else Nat.pow 10 (overflowExponent - x.exponent).toNat ≤ x.mantissa

/-- The nearest single-precision number.  Digits are only rounded if the number is in reach. -/
def toSingle (x : Scientific) : Single :=
  if x.overflows then .infinity
  else if 0 ≤ x.exponent then .ofValue (Float32.ofScientific x.mantissa false x.exponent.toNat)
  else .ofValue (Float32.ofScientific x.mantissa true (-x.exponent).toNat)

end Scientific

namespace Numeral

/-- Take an optional sign off the front; `true` is a minus. -/
def takeSign : List Char → Bool × List Char
  | '-' :: rest => (true, rest)
  | '+' :: rest => (false, rest)
  | text => (false, text)

/-- The size from which on an exponent does not grow any more. -/
def exponentLimit : Nat := 65536

/-- The exponent that digits stand for. -/
def exponentOfDigits (ds : List Digit) : Nat :=
  ds.foldl (fun e d => if e < exponentLimit then 10 * e + d.val else e) 0

/-- The exponent part: nothing at all, or `e` or `E`, an optional sign, and digits to the end. -/
def exponent? : List Char → Option Int
  | [] => some 0
  | c :: rest =>
    if c = 'e' ∨ c = 'E' then
      let (negative, rest) := takeSign rest
      match takeDigits rest with
      | ([], _) => none
      | (ds, []) =>
        let e := exponentOfDigits ds
        some (if negative then -(e : Int) else e)
      | (_, _ :: _) => none
    else none

/-- The digits around an optional point. -/
def takePointed (text : List Char) : List Digit × List Digit × List Char :=
  match takeDigits text with
  | (whole, '.' :: rest) =>
    let (fraction, rest) := takeDigits rest
    (whole, fraction, rest)
  | (whole, rest) => (whole, [], rest)

/-- An unsigned decimal. -/
def scientific? (text : List Char) : Option Scientific := do
  let (whole, fraction, rest) := takePointed text
  if whole.isEmpty && fraction.isEmpty then none
  let exponent ← exponent? rest
  some ⟨natOfDigits (whole ++ fraction), exponent - fraction.length⟩

/-- The words for the numbers that have no digits. -/
def word? (text : List Char) : Option Single :=
  match String.ofList (text.map Char.toLower) with
  | "inf" => some .infinity
  | "infinity" => some .infinity
  | "nan" => some .nan
  | _ => none

end Numeral

/-- The single-precision number that a text stands for, if it is a numeral. -/
def readSingle? (text : List Char) : Option Single :=
  let (negative, rest) := Numeral.takeSign text
  ((Numeral.scientific? rest).map Scientific.toSingle <|> Numeral.word? rest).map fun x =>
    if negative then x.negate else x

end ProductQuantization
