import ProductQuantization.Json.Basic
import ProductQuantization.Text.Hex

/-!
# Writing JSON

The compact form: no blanks at all, members in the order they have.  In a text the quote, the
backslash and the control characters are escaped, the latter by their short names where they have
one.  A text that cannot be represented is written as an empty one.
-/

set_option autoImplicit false

namespace ProductQuantization
namespace Json

/-- A character inside a quoted text. -/
def writeChar (c : Char) : String :=
  match c with
  | '"' => "\\\""
  | '\\' => "\\\\"
  | '\x08' => "\\b"
  | '\x0c' => "\\f"
  | '\n' => "\\n"
  | '\r' => "\\r"
  | '\t' => "\\t"
  | c =>
    if c.toNat < 0x20 then
      let digits := ProductQuantization.Text.hexOf c.toNat
      "\\u" ++ String.ofList (List.replicate (4 - digits.length) '0' ++ digits)
    else c.toString

/-- A quoted text. -/
def writeText (s : Text) : String :=
  "\"" ++ String.join ((s.getD "").toList.map writeChar) ++ "\""

/-- A numeral. -/
def Number.write (n : Number) : String :=
  (if n.negative then "-" else "") ++ writeDigits n.whole ++
    (if n.fraction.isEmpty then "" else "." ++ writeDigits n.fraction) ++
    match n.exponent with
    | none => ""
    | some e => (if e < 0 then "e-" else "e+") ++ writeDigits (digitsOf e.natAbs)

mutual

/-- The compact text of a value. -/
def write : Json → String
  | .null => "null"
  | .bool b => if b then "true" else "false"
  | .number n => n.write
  | .text s => writeText s
  | .array items => "[" ++ String.intercalate "," (writeItems items) ++ "]"
  | .object members => "\x7b" ++ String.intercalate "," (writeMembers members) ++ "\x7d"

/-- The texts of the items of an array. -/
def writeItems : List Json → List String
  | [] => []
  | v :: rest => write v :: writeItems rest

/-- The texts of the members of an object. -/
def writeMembers : List (Text × Json) → List String
  | [] => []
  | (k, v) :: rest => (writeText k ++ ":" ++ write v) :: writeMembers rest

end

end Json
end ProductQuantization
