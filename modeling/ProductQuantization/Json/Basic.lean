import ProductQuantization.Number.Digits

/-!
# JSON values

A JSON value, kept as it is written where that matters: a number is its digits, so that nothing is
rounded before it is known which kind of number is wanted, an object is the list of its members in
order with repetitions, and a text remembers whether it can be represented at all.  JSON can spell
half of a surrogate pair, which is no character; such a text is `none`.
-/

set_option autoImplicit false

namespace ProductQuantization
namespace Json

/-- A number as it is written. -/
structure Number where
  /-- Whether there is a minus sign. -/
  negative : Bool
  /-- The digits before the point. -/
  whole : List Digit
  /-- The digits after the point; none if there is no point. -/
  fraction : List Digit
  /-- The exponent, if there is one. -/
  exponent : Option Int
deriving DecidableEq, Repr

/-- The characters of a text, unless it holds half of a surrogate pair. -/
abbrev Text := Option String

end Json

/-- A JSON value. -/
inductive Json where
  | null
  | bool (b : Bool)
  | number (n : Json.Number)
  | text (s : Json.Text)
  | array (items : List Json)
  | object (members : List (Json.Text × Json))

namespace Json

/-- A text without surrogate halves. -/
def ofString (s : String) : Json := .text (some s)

/-- A whole number. -/
def ofNat (n : Nat) : Json := .number ⟨false, digitsOf n, [], none⟩

/-- A whole number with its sign. -/
def ofInt (n : Int) : Json := .number ⟨n < 0, digitsOf n.natAbs, [], none⟩

/-- An object with the given members. -/
def record (members : List (String × Json)) : Json :=
  .object (members.map fun (k, v) => (some k, v))

/-- Null where there is no value. -/
def ofOption {α : Type} (f : α → Json) : Option α → Json
  | none => .null
  | some x => f x

end Json
end ProductQuantization
