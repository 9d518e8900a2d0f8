/-!
# Decimal digits

Numbers are written and read through lists of digits, the most significant first.  `digitsOf` never
returns an empty list: zero is the one digit `0`.

`natOfDigits` reads by joining neighbours: digits to pairs, which are places in base `100`, pairs to
fours, and so on, so that a numeral of a hundred thousand digits takes few multiplications of long
numbers.  `natOfDigits_eq_foldl` says that the order of joining does not matter.
-/

set_option autoImplicit false

namespace ProductQuantization

/-- A decimal digit. -/
abbrev Digit := Fin 10

namespace Digit

/-- The digit zero. -/
def zero : Digit := ⟨0, by decide⟩

/-- The character of a digit. -/
def char (d : Digit) : Char := Char.ofNat (d.val + 48)

/-- The digit of an ASCII character, if it is one. -/
def ofChar? (c : Char) : Option Digit :=
  if h : 48 ≤ c.toNat ∧ c.toNat < 58 then some ⟨c.toNat - 48, by omega⟩ else none

end Digit

/-! ## Reading -/

/-- Neighbouring places joined, the least significant first.  The result is in base
`base * base`. -/
def joinPlaces (base : Nat) : List Nat → List Nat
  | low :: high :: rest => (low + base * high) :: joinPlaces base rest
  | places => places

/-- The number that places stand for, the least significant first.  Neighbours are joined so many
times before the places are added up. -/
def natOfPlaces : Nat → Nat → List Nat → Nat
  | 0, base, places => places.foldr (fun x n => x + base * n) 0
  | times + 1, base, places => natOfPlaces times (base * base) (joinPlaces base places)

theorem foldr_joinPlaces (base : Nat) (places : List Nat) :
    (joinPlaces base places).foldr (fun x n => x + base * base * n) 0 =
      places.foldr (fun x n => x + base * n) 0 := by
  fun_induction joinPlaces base places with
  | case1 low high rest ih =>
    rw [List.foldr_cons, ih, List.foldr_cons, List.foldr_cons, Nat.mul_add, Nat.mul_assoc,
      Nat.add_assoc]
  | case2 places h =>
    match places, h with
    | [], _ => rfl
    | [x], _ => rfl
    | a :: b :: rest, h => exact absurd rfl (h a b rest)

theorem natOfPlaces_eq_foldr (times base : Nat) (places : List Nat) :
    natOfPlaces times base places = places.foldr (fun x n => x + base * n) 0 := by
  induction times generalizing base places with
  | zero => rfl
  | succ times ih => rw [natOfPlaces, ih, foldr_joinPlaces]

/-- The number that a list of digits stands for. -/
def natOfDigits (ds : List Digit) : Nat :=
  natOfPlaces ds.length.log2 10 (ds.reverse.map Fin.val)

/-- Reading appends one digit after the other. -/
theorem natOfDigits_eq_foldl (ds : List Digit) :
    natOfDigits ds = ds.foldl (fun n d => 10 * n + d.val) 0 := by
  rw [natOfDigits, natOfPlaces_eq_foldr, List.foldr_map, List.foldr_reverse]
  simp [Nat.add_comm]

/-! ## Writing -/

/-- Put the digits of `n` in front of `rest`. -/
def digitsOnto (n : Nat) (rest : List Digit) : List Digit :=
  if h : n < 10 then ⟨n, h⟩ :: rest
  else digitsOnto (n / 10) (⟨n % 10, Nat.mod_lt n (by decide)⟩ :: rest)
termination_by n
decreasing_by omega

/-- The digits of `n`. -/
def digitsOf (n : Nat) : List Digit := digitsOnto n []

/-- Digits as text. -/
def writeDigits (ds : List Digit) : String := String.ofList (ds.map Digit.char)

/-- The digits at the front of a text, and what follows them. -/
def takeDigits : List Char → List Digit × List Char
  | [] => ([], [])
  | c :: rest =>
    match Digit.ofChar? c with
    | some d =>
      let (ds, rest') := takeDigits rest
      (d :: ds, rest')
    | none => ([], c :: rest)

end ProductQuantization
