import ProductQuantization.Number.Digits

/-!
# The shortest decimal that reads back

A finite float `m · 2 ^ e` is the number that every real of an interval around it rounds to.  The
interval reaches half-way to the two neighbouring floats, and contains its ends exactly when `m` is
even.  `shortest` looks at the decimal grids in order, one significant digit, two, three, …, and
answers with the first point of a grid that lies in the interval; if both neighbours of the value on
that grid do, the nearer one wins, and a tie goes as `Tie` says.  All of it is exact arithmetic on
natural numbers.
-/

set_option autoImplicit false

namespace ProductQuantization

open Float.Model (Format)

/-- Which of two equally near decimals is taken. -/
inductive Tie where
  /-- The one whose last digit is even. -/
  | toEven
  /-- The larger one. -/
  | up
deriving DecidableEq, Repr

/-- A positive decimal number in scientific form: `d.ddd · 10 ^ exponent`, first digit not zero. -/
structure Decimal where
  digits : List Digit
  exponent : Int
deriving DecidableEq, Repr

/-- The decimal `c · 10 ^ g`, written without trailing zeros. -/
def Decimal.ofGrid (c : Nat) (g : Int) : Decimal where
  digits := ((digitsOf c).reverse.dropWhile (· = Digit.zero)).reverse
  exponent := (digitsOf c).length - 1 + g

namespace Shortest

/-- The exponent of the leading digit of `m · 2 ^ e`.  Ten to the power 400 lifts every float above
one, so that the digits of a whole number can be counted. -/
def leadingExponent (m : Nat) (e : Int) : Int :=
  (digitsOf (m * Nat.pow 2 e.toNat * Nat.pow 10 400 / Nat.pow 2 (-e).toNat)).length - 1 - 400

/-- A value `m · 2 ^ e` measured on the grid of multiples of `10 ^ g`: it is `m · unit / den`. -/
structure Scale where
  unit : Nat
  den : Nat

/-- The measure of the grid `10 ^ g` for mantissas at exponent `e`. -/
def scale (e g : Int) : Scale where
  unit := Nat.pow 2 e.toNat * Nat.pow 10 (-g).toNat
  den := Nat.pow 2 (-e).toNat * Nat.pow 10 g.toNat

/-- Whether grid point `c` reads back as `m`.  Four times everything is compared, so that half and
quarter steps are whole numbers: `below` is `1` where the float underneath is only half as far away,
else `2`. -/
def readsBack (s : Scale) (m below c : Nat) : Bool :=
  let point := 4 * c * s.den
  let low := (4 * m - below) * s.unit
  let high := (4 * m + 2) * s.unit
  if m % 2 = 0 then low ≤ point && point ≤ high else low < point && point < high

/-- The grid point `c` or `c + 1`, whichever is nearer to `m`. -/
def nearer (tie : Tie) (s : Scale) (m c : Nat) : Nat :=
  match compare (2 * m * s.unit) ((2 * c + 1) * s.den) with
  | .lt => c
  | .gt => c + 1
  | .eq =>
    match tie with
    | .toEven => c + c % 2
    | .up => c + 1

/-- The answer on one grid, if it has one. -/
def onGrid? (tie : Tie) (m : Nat) (e : Int) (below : Nat) (g : Int) : Option Decimal :=
  let s := scale e g
  let c := m * s.unit / s.den
  match readsBack s m below c, readsBack s m below (c + 1) with
  | true, true => some (.ofGrid (nearer tie s m c) g)
  | true, false => some (.ofGrid c g)
  | false, true => some (.ofGrid (c + 1) g)
  | false, false => none

/-- Try the grids with `count`, `count + 1`, … digits; the last resort is the finest one. -/
def search (tie : Tie) (m : Nat) (e : Int) (below : Nat) (lead : Int) : Nat → Nat → Decimal
  | 0, count =>
    let g := lead - count
    let s := scale e g
    .ofGrid (nearer tie s m (m * s.unit / s.den)) g
  | fuel + 1, count =>
    match onGrid? tie m e below (lead - count) with
    | some d => d
    | none => search tie m e below lead fuel (count + 1)

end Shortest

/-- The shortest decimal that reads back as `m · 2 ^ e` in `format`, and of those the nearest.
Seventeen digits are enough for either format. -/
def shortest (tie : Tie) (format : Format) (m : Nat) (e : Int) : Decimal :=
  let below :=
    if m = Nat.pow 2 format.mantissaBitsWithoutImplicit ∧ format.minExponent < e then 1 else 2
  Shortest.search tie m e below (Shortest.leadingExponent m e) 17 0

end ProductQuantization
