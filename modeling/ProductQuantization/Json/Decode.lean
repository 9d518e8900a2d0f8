import ProductQuantization.Json.Number

/-!
# From JSON to data

A decoder is a function `Json → Option α`.  The ones here are strict about kinds: a whole number
must be written as one and fit its range, a float may be written as a whole number, and `null` is
not a value of anything but an optional one.

A record may come as an object or as an array of its fields in order.  In an object, members with
unknown names are passed over, and a known name may occur once only; in an array there may be fewer
items than fields, but not more.  `Json.fields?` reduces both forms to one optional value for each
field, and leaves it to the caller what a missing field means.
-/

set_option autoImplicit false

namespace ProductQuantization
namespace Json

/-- A whole number below `bound`. -/
def below? (bound : Nat) : Json → Option Nat
  | .number n => do
    let k ← n.toInt?
    if 0 ≤ k ∧ k < bound then some k.toNat else none
  | _ => none

/-- A size or a count: a whole number of at most sixty-four bits. -/
def size? : Json → Option Nat := below? (wordValues 64)

/-- A double-precision number. -/
def float? : Json → Option Float
  | .number n => n.toFloat?
  | _ => none

/-- A single-precision number. -/
def single? : Json → Option Single
  | .number n => n.toSingle?
  | _ => none

/-- A text that can be represented. -/
def string? : Json → Option String
  | .text s => s
  | _ => none

/-- An array, each item of it decoded. -/
def list? {α : Type} (decode : Json → Option α) : Json → Option (List α)
  | .array items => items.mapM decode
  | _ => none

/-- A value or null. -/
def optional? {α : Type} (decode : Json → Option α) : Json → Option (Option α)
  | .null => some none
  | v => (decode v).map some

/-- The values of the members with a given name. -/
def valuesOf (name : String) (members : List (Text × Json)) : List Json :=
  (members.filter fun (k, _) => k == some name).map (·.2)

/-- The fields of a record in the order of `names`, each present or missing. -/
def fields? (names : List String) : Json → Option (List (Option Json))
  | .object members =>
    if members.any fun (k, _) => k.isNone then none
    else names.mapM fun name =>
      match valuesOf name members with
      | [] => some none
      | [v] => some (some v)
      | _ => none
  | .array items =>
    if names.length < items.length then none
    else some (items.map some ++ List.replicate (names.length - items.length) none)
  | _ => none

/-- A field that must be there. -/
def required {α : Type} (decode : Json → Option α) (field : Option Json) : Option α :=
  field >>= decode

/-- A field that stands for `standard` when it is missing. -/
def withDefault {α : Type} (standard : α) (decode : Json → Option α) :
    Option Json → Option α
  | none => some standard
  | some v => decode v

end Json
end ProductQuantization
