/-!
# Blanks

The characters that count as blank are those of the Unicode property *White_Space*.  A line feed, a
tab and a no-break space are blank; a zero-width space is not.
-/

set_option autoImplicit false

namespace ProductQuantization
namespace Text

/-- The ranges of the code points with the property *White_Space*, ends included. -/
def blankRanges : List (Nat × Nat) :=
  [(0x09, 0x0D), (0x20, 0x20), (0x85, 0x85), (0xA0, 0xA0), (0x1680, 0x1680), (0x2000, 0x200A),
    (0x2028, 0x2029), (0x202F, 0x202F), (0x205F, 0x205F), (0x3000, 0x3000)]

/-- Whether a character is blank. -/
def isBlank (c : Char) : Bool :=
  blankRanges.any fun (first, last) => first ≤ c.toNat && c.toNat ≤ last

/-- Drop the blanks at the front. -/
def trimFront (cs : List Char) : List Char := cs.dropWhile isBlank

/-- Drop the blanks at both ends. -/
def trim (cs : List Char) : List Char := (trimFront (trimFront cs).reverse).reverse

end Text
end ProductQuantization
