import ProductQuantization.Artifact.Word
import ProductQuantization.Error
import ProductQuantization.Matrix.Basic
import ProductQuantization.Number.Size

/-!
# Rotation files

A rotation file is the entries of a square matrix, row-major and little-endian, and nothing else.
Its dimension has to be known from elsewhere, and its length must be exactly right for it.
-/

set_option autoImplicit false

namespace ProductQuantization
namespace RotationFile

/-- Only square matrices are written. -/
def checkSquare (m : Matrix) : Result Unit :=
  Result.guard (m.rows = m.cols) (.invalidParams (.notSquare m.rows m.cols))

/-- The bytes of a rotation file. -/
def toBytes (m : Matrix) : Result (List UInt8) := do
  checkSquare m
  .ok (Word.bytesOfSingles m.data.toList)

/-- The length of the file for a given dimension. -/
def byteSize (dim : Nat) : Nat := sizeProduct (sizeProduct dim dim) 4

/-- The rotation of dimension `dim` in a file. -/
def ofBytes (bytes : List UInt8) (dim : Nat) : Result Matrix := do
  let expected := byteSize dim
  Result.guard (bytes.length = expected)
    (.rotationSizeMismatch dim expected bytes.length)
  Result.ofMatrix (Matrix.ofData dim dim (Word.takeSingles bytes).toArray)

end RotationFile
end ProductQuantization
