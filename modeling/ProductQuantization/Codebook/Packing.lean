import ProductQuantization.Codebook.Table

/-!
# Packed codes

Codes of eight bits are packed into a byte each.  Codes of four bits go two to a byte, the even
subspace into the low half; where the number of subspaces is odd, the last byte of each vector has
a zero in its high half.  Every vector begins with a new byte.

`pack` and `unpack` undo each other, except that `unpack` does not look at the unused half bytes.

The shape that bytes are unpacked into is a declared one.  Its products are sixty-four-bit words, so
there are shapes too large for the bytes whose declared length is theirs all the same.  For codes of
four bits a buffer of the declared size is had before any of them is looked at.
-/

set_option autoImplicit false

namespace ProductQuantization
namespace CodeTable

/-- Only codes of four and eight bits are packed. -/
def checkPackable (bits : Nat) : Result Unit :=
  Result.guard (bits = 4 || bits = 8) (.invalidParams (.unpackableBits bits))

/-- The bytes of one vector. -/
def packedRowLength (subspaces bits : Nat) : Nat := (sizeProduct subspaces bits + 7) / 8

/-- Two codes to a byte. -/
def packPairs : List UInt16 → List UInt8
  | [] => []
  | [low] => [low.toUInt8]
  | low :: high :: rest => (low.toUInt8 ||| high.toUInt8 <<< 4) :: packPairs rest

/-- Pack the codes, all of which must be below `2 ^ bits`. -/
def pack (t : CodeTable) (bits : Nat) : Result (List UInt8) := do
  checkPackable bits
  match t.codes.toList.zipIdx.find? fun (code, _) => wordValues bits ≤ code.toNat with
  | some (code, i) => .error (.invalidCode (i % max t.subspaces 1) code.toNat)
  | none =>
    if bits = 8 then .ok (t.codes.toList.map UInt16.toUInt8)
    else if t.subspaces = 0 then .ok []
    else
      let rows ← Result.ofIndex ((List.range t.vectors).mapM t.row?)
      .ok (rows.flatMap packPairs)

/-- The first `count` codes of the bytes of a vector, two to a byte, if there are bytes enough. -/
def unpackPairs : Nat → List UInt8 → Option (List UInt16)
  | 0, _ => some []
  | _, [] => none
  | 1, b :: _ => some [(b &&& 0x0f).toUInt16]
  | count + 2, b :: rest => do
    let codes ← unpackPairs count rest
    some ((b &&& 0x0f).toUInt16 :: (b >>> 4).toUInt16 :: codes)

/-- The codes of `vectors` vectors of `width` bytes each, two to a byte, as long as there are bytes
left. -/
def unpackRows (subspaces width : Nat) : Nat → List UInt8 → Option (List UInt16)
  | 0, _ => some []
  | _, [] => some []
  | vectors + 1, b :: bytes => do
    let row ← unpackPairs subspaces ((b :: bytes).take width)
    let rest ← unpackRows subspaces width vectors ((b :: bytes).drop width)
    some (row ++ rest)

/-- The table that has been packed into the given bytes. -/
def unpack (bytes : List UInt8) (vectors subspaces bits : Nat) : Result CodeTable := do
  checkPackable bits
  let width := packedRowLength subspaces bits
  let expected := sizeProduct vectors width
  Result.guard (bytes.length = expected) (.dimensionMismatch expected bytes.length)
  let codes ← if bits = 8 then .ok (bytes.map UInt8.toUInt16)
    else do
      Result.guard (fits (sizeProduct vectors subspaces)) .outOfBounds
      Result.ofIndex (unpackRows subspaces (max width 1) vectors bytes)
  ofCodes vectors subspaces codes.toArray

end CodeTable
end ProductQuantization
