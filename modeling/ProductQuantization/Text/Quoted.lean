import ProductQuantization.Text.Hex
import ProductQuantization.Text.Hidden

/-!
# Quoted text

Text that is quoted in a message stands between double quotes.  Inside, the quote and the backslash
are escaped, a tab, a carriage return, a line feed and a null have short names, and any other
character that does not show is given by its code point in lower-case hexadecimal digits, without
leading zeros.
-/

set_option autoImplicit false

namespace ProductQuantization
namespace Text

/-- A code point as an escape. -/
def escapeCode (n : Nat) : List Char := ['\\', 'u', '{'] ++ hexOf n ++ ['}']

/-- A character inside quotes. -/
def escape (c : Char) : List Char :=
  match c with
  | '"' => ['\\', '"']
  | '\\' => ['\\', '\\']
  | '\t' => ['\\', 't']
  | '\r' => ['\\', 'r']
  | '\n' => ['\\', 'n']
  | '\x00' => ['\\', '0']
  | c => if isHidden c then escapeCode c.toNat else [c]

/-- The text in quotes. -/
def quoted (cs : List Char) : String := String.ofList ('"' :: cs.flatMap escape ++ ['"'])

end Text
end ProductQuantization
