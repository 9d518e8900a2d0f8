/-!
# Hexadecimal digits

Hexadecimal digits are lower-case.  `hexOf` writes a number without leading zeros.
-/

set_option autoImplicit false

namespace ProductQuantization
namespace Text

/-- The digit of a number below sixteen. -/
def hexDigit (d : Fin 16) : Char := Char.ofNat (if d.val < 10 then d.val + 48 else d.val + 87)

/-- Put the digits of `n` in front of `rest`. -/
def hexOnto (n : Nat) (rest : List Char) : List Char :=
  if h : n < 16 then hexDigit ⟨n, h⟩ :: rest
  else hexOnto (n / 16) (hexDigit ⟨n % 16, Nat.mod_lt n (by decide)⟩ :: rest)
termination_by n
decreasing_by omega

/-- The digits of `n`. -/
def hexOf (n : Nat) : List Char := hexOnto n []

end Text
end ProductQuantization
