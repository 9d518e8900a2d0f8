import ProductQuantization.Number.Single

/-!
# Little-endian words

A thirty-two-bit word in a file is four bytes, the lowest first.  `Word.ofBytes?` reads one off the
front of a list of bytes, and `Word.takeSingles` reads as many stored numbers as there are.
-/

set_option autoImplicit false

namespace ProductQuantization
namespace Word

/-- The four bytes of a word. -/
def toBytes (w : UInt32) : List UInt8 :=
  [w.toUInt8, (w >>> 8).toUInt8, (w >>> 16).toUInt8, (w >>> 24).toUInt8]

/-- The word that four bytes make. -/
def ofBytes (b0 b1 b2 b3 : UInt8) : UInt32 :=
  b0.toUInt32 ||| b1.toUInt32 <<< 8 ||| b2.toUInt32 <<< 16 ||| b3.toUInt32 <<< 24

/-- The word at the front of the bytes, and the bytes after it. -/
def ofBytes? : List UInt8 → Option (UInt32 × List UInt8)
  | b0 :: b1 :: b2 :: b3 :: rest => some (ofBytes b0 b1 b2 b3, rest)
  | _ => none

/-- The bytes of stored numbers, one after the other. -/
def bytesOfSingles (xs : List Single) : List UInt8 := xs.flatMap fun x => toBytes x.bits

/-- The stored numbers that the bytes make; up to three bytes at the end are left out. -/
def takeSingles : List UInt8 → List Single
  | b0 :: b1 :: b2 :: b3 :: rest => ⟨ofBytes b0 b1 b2 b3⟩ :: takeSingles rest
  | _ => []

end Word
end ProductQuantization
