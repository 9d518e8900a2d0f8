import ProductQuantization.Artifact.Word
import ProductQuantization.Codebook.Basic
import ProductQuantization.Number.Size

/-!
# Codec files

A codec file is a header of four signed thirty-two-bit words — the capacity the index was planned
for, the dimension, the number of subspaces and the number of bits in a code — and then the
centroids of the codebook in the order in which they lie in its buffer.  Everything is
little-endian.

A file is read only if its header describes a codebook that can exist and its length is exactly the
one that the header implies.
-/

set_option autoImplicit false

namespace ProductQuantization

/-- The four numbers in front of the centroids. -/
structure CodecHeader where
  maxElements : Int32
  dim : Int32
  subspaces : Int32
  bits : Int32
deriving DecidableEq

/-- What a header says about the codebook that follows it. -/
structure CodecShape where
  dim : Nat
  subspaces : Nat
  /-- Centroids in each subspace. -/
  size : Nat
deriving DecidableEq, Repr

/-- The length of the centroids in bytes. -/
def CodecShape.tableByteSize (s : CodecShape) : Nat := s.size * s.dim * 4

namespace CodecHeader

/-- The length of a header in bytes. -/
def byteSize : Nat := 16

/-! ## Building -/

/-- A number that fits a field of the header. -/
def field (name : String) (value : Nat) : Result Int32 :=
  if value < wordValues 31 then .ok (Int32.ofNat value)
  else .error (.invalidParams (.tooLarge name value))

/-- A header with the given numbers, all of which must fit. -/
def ofSizes (maxElements dim subspaces bits : Nat) : Result CodecHeader := do
  let maxElements ← field "max_elements" maxElements
  let dim ← field "dim" dim
  let subspaces ← field "num_subspaces" subspaces
  let bits ← field "nbits" bits
  .ok ⟨maxElements, dim, subspaces, bits⟩

/-- The header for a codebook, whose number of centroids must be a power of two. -/
def forCodebook (maxElements : Nat) (c : Codebook) : Result CodecHeader :=
  match c.bits? with
  | some bits => ofSizes maxElements c.dim c.subspaces bits
  | none => .error (.invalidParams (.notPowerOfTwo c.size))

/-! ## Bytes -/

/-- The bytes of a signed word. -/
def wordBytes (x : Int32) : List UInt8 := Word.toBytes x.toUInt32

/-- The sixteen bytes of a header. -/
def toBytes (h : CodecHeader) : List UInt8 :=
  wordBytes h.maxElements ++ wordBytes h.dim ++ wordBytes h.subspaces ++ wordBytes h.bits

/-- The header at the front of the bytes, and the bytes after it. -/
def take? (bytes : List UInt8) : Option (CodecHeader × List UInt8) := do
  let (a, rest) ← Word.ofBytes? bytes
  let (b, rest) ← Word.ofBytes? rest
  let (c, rest) ← Word.ofBytes? rest
  let (d, rest) ← Word.ofBytes? rest
  some (⟨a.toInt32, b.toInt32, c.toInt32, d.toInt32⟩, rest)

/-- The header at the front of the bytes. -/
def ofBytes (bytes : List UInt8) : Result (CodecHeader × List UInt8) :=
  match take? bytes with
  | some found => .ok found
  | none => .error (.invalidArtifact (.shortHeader byteSize bytes.length))

/-! ## Meaning -/

/-- The codebook that a header describes, if it can exist. -/
def shape (h : CodecHeader) : Result CodecShape := do
  let dim := h.dim.toInt
  let subspaces := h.subspaces.toInt
  let bits := h.bits.toInt
  Result.guard (0 ≤ h.maxElements.toInt)
    (.invalidArtifact (.negativeCapacity h.maxElements.toInt))
  Result.guard (0 < dim && 0 < subspaces && dim % subspaces = 0)
    (.invalidArtifact (.unevenSplit dim subspaces))
  Result.guard (0 < bits && bits ≤ maxBits) (.invalidArtifact (.bitsOutOfRange bits))
  .ok ⟨dim.toNat, subspaces.toNat, wordValues bits.toNat⟩

/-- The header and the codebook must agree on the dimension, the subspaces and the number of
centroids. -/
def checkDescribes (h : CodecHeader) (c : Codebook) : Result Unit :=
  let bits := h.bits.toInt
  Result.guard
    (sameWord h.dim.toInt c.dim && sameWord h.subspaces.toInt c.subspaces && 0 < bits &&
      bits ≤ maxBits && wordValues bits.toNat = c.size)
    (.invalidParams (.foreignHeader h.dim.toInt h.subspaces.toInt bits c.dim c.subspaces c.size))

end CodecHeader

namespace Codec

/-- The bytes of a codec file. -/
def toBytes (h : CodecHeader) (c : Codebook) : Result (List UInt8) := do
  h.checkDescribes c
  .ok (h.toBytes ++ Word.bytesOfSingles c.centroids.toList)

/-- The header and the codebook of a codec file. -/
def ofBytes (bytes : List UInt8) : Result (CodecHeader × Codebook) := do
  let (h, table) ← CodecHeader.ofBytes bytes
  let shape ← h.shape
  let implied := CodecHeader.byteSize + shape.tableByteSize
  Result.guard (bytes.length = implied) (.invalidArtifact (.wrongLength bytes.length implied))
  let blank ← Codebook.zeros shape.dim shape.subspaces shape.size
  .ok (h, { blank with centroids := (Word.takeSingles table).toArray })

end Codec
end ProductQuantization
