/-!
# Splitting

`splitAt sep xs` cuts a list at every `sep` and leaves the separators out.  There is always one
piece more than there are separators, so the empty list has one piece, which is empty.
-/

set_option autoImplicit false

namespace ProductQuantization
namespace Text

/-- Put an item in front of the first piece. -/
def consFirst {α : Type} (x : α) : List (List α) → List (List α)
  | [] => [[x]]
  | piece :: rest => (x :: piece) :: rest

/-- The pieces between the separators. -/
def splitAt {α : Type} [DecidableEq α] (sep : α) : List α → List (List α)
  | [] => [[]]
  | x :: xs => if x = sep then [] :: splitAt sep xs else consFirst x (splitAt sep xs)

/-- The characters that bytes encode in UTF-8, if they do. -/
def ofBytes? (bytes : List UInt8) : Option (List Char) :=
  (String.fromUTF8? ⟨bytes.toArray⟩).map String.toList

end Text
end ProductQuantization
