import ProductQuantization.Codebook.Basic
import ProductQuantization.Codebook.Table

/-!
# Encoding vectors

The code of a vector in a subspace is the number of the nearest centroid there, in sixteen bits.
-/

set_option autoImplicit false

namespace ProductQuantization
namespace Codebook

/-- The centroids of subspace `m` as vectors, which must have components. -/
def centroids? (c : Codebook) (m : Nat) : Option (List Point) :=
  if c.subspaceDim = 0 ∨ (c.subspace? m).isNone then none
  else (List.range c.size).mapM (c.centroid? m)

/-- The centroids of every subspace. -/
def blocks? (c : Codebook) : Option (List (List Point)) :=
  (List.range c.subspaces).mapM c.centroids?

/-- The codes of a vector, given the centroids of every subspace. -/
def codesAmong? (c : Codebook) (blocks : List (List Point)) (vector : Point) :
    Option (List UInt16) :=
  blocks.zipIdx.mapM fun (centroids, m) => do
    let x ← c.extract? vector m
    some (Cluster.nearest x centroids).index.toUInt16

/-- Encode a vector of the right dimension. -/
def encodeVector (c : Codebook) (vector : Point) : Result (List UInt16) := do
  Result.guard (vector.length = c.dim) (.dimensionMismatch c.dim vector.length)
  let blocks ← Result.ofIndex c.blocks?
  .ofIndex (c.codesAmong? blocks vector)

/-- The first `count` codes of a vector. -/
def firstCodes? (c : Codebook) (count : Nat) (vector : Point) : Option (List UInt16) :=
  (List.range count).mapM fun m => do
    let x ← c.extract? vector m
    let centroids ← c.centroids? m
    some (Cluster.nearest x centroids).index.toUInt16

/-- A buffer of `count` zeros that is filled with the codes of the vectors, one vector after the
other, until it is full or there are no more vectors. -/
def filled? (c : Codebook) : Nat → List Point → Option (List UInt16)
  | count, [] => some (List.replicate count 0)
  | count, vector :: vectors => do
    let codes ← c.firstCodes? (min c.subspaces count) vector
    let rest ← c.filled? (count - c.subspaces) vectors
    some (codes ++ rest)

/-- Encode every row of a matrix of the right width.  Where there are more subspaces than columns the
data says nothing about how many codes there are, and their number is a declared one: a
sixty-four-bit word, for which a buffer is had before anything is encoded.  A matrix without columns
has rows without components, whose codes stay zero. -/
def encode (c : Codebook) (data : Matrix) : Result CodeTable := do
  Result.guard (data.cols = c.dim) (.dimensionMismatch c.dim data.cols)
  Result.guard (c.subspaces ≠ 0) .outOfBounds
  if data.isEmpty || data.cols < c.subspaces then
    let count := sizeProduct data.rows c.subspaces
    Result.guard (CodeTable.fits count) .outOfBounds
    let codes ← Result.ofIndex (c.filled? count data.toRows)
    .ok ⟨data.rows, c.subspaces, codes.toArray⟩
  else
    let blocks ← Result.ofIndex c.blocks?
    let rows ← Result.ofIndex (data.toRows.mapM (c.codesAmong? blocks))
    .ok ⟨data.rows, c.subspaces, rows.flatten.toArray⟩

end Codebook
end ProductQuantization
