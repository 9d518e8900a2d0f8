import ProductQuantization.Codebook.Encode

/-!
# Decoding codes

A row of codes stands for the vector made of the centroids it names, one after the other.  A single
row is decoded by putting them side by side, a table by copying them into the rows of a matrix of
zeros, each to the place of its subspace.  That matrix needs a buffer: a table can have so many
vectors that there is none, even if each of them can be decoded.

The mean squared error of a table is what decoding it loses, averaged over the vectors.
-/

set_option autoImplicit false

namespace ProductQuantization
namespace Codebook

/-- There must be a code for each subspace, and each must name a centroid. -/
def checkCodes (c : Codebook) (codes : List UInt16) : Result Unit := do
  Result.guard (codes.length = c.subspaces)
    (.invalidParams (.codeCount c.subspaces codes.length))
  match codes.zipIdx.find? fun (code, _) => c.size ≤ code.toNat with
  | some (code, m) => .error (.invalidCode m code.toNat)
  | none => .ok ()

/-- The centroids that a row of codes names. -/
def named? (c : Codebook) (codes : List UInt16) : Option (List Point) :=
  codes.zipIdx.mapM fun (code, m) => c.centroid? m code.toNat

/-- Decode one row of codes. -/
def decodeVector (c : Codebook) (codes : List UInt16) : Result Point := do
  c.checkCodes codes
  let parts ← Result.ofIndex (c.named? codes)
  .ok parts.flatten

/-- The codes of every vector of a table, checked. -/
def checkedRow (c : Codebook) (t : CodeTable) (i : Nat) : Result (List UInt16) := do
  let codes ← Result.ofIndex (t.row? i)
  c.checkCodes codes
  .ok codes

/-- A row of the result: the centroids that a row of codes names, copied into a row of zeros, each to
where its subspace begins. -/
def decodedRow (c : Codebook) (codes : List UInt16) : Result Point := do
  let parts ← Result.ofIndex (c.named? codes)
  let row ← Result.ofIndex
    (copyBlocks? c.subspaceDim 0 parts (Array.replicate c.dim .zero))
  .ok row.toList

/-- Decode every vector of a table.  All codes are checked before there is a buffer for the result,
and before any of them is decoded.  Without subspaces there are no codes, and all vectors are
zero. -/
def decode (c : Codebook) (t : CodeTable) : Result Matrix := do
  Result.guard (t.subspaces = c.subspaces) (.dimensionMismatch c.subspaces t.subspaces)
  if t.subspaces = 0 then
    Result.guard (Matrix.fits (t.vectors * c.dim)) .outOfBounds
    .ok (.zeros t.vectors c.dim)
  else
    let rows ← (List.range t.vectors).mapM (c.checkedRow t)
    Result.guard (Matrix.fits (t.vectors * c.dim)) .outOfBounds
    if c.dim = 0 then .ok (.zeros t.vectors 0)
    else
      let decoded ← rows.mapM c.decodedRow
      .ok (.stack c.dim decoded)

/-- The mean over the rows of `data` of the squared distance to what its codes stand for. -/
def meanSquaredError (c : Codebook) (data : Matrix) (t : CodeTable) : Result Float := do
  Result.guard (t.vectors = data.rows) (.dimensionMismatch data.rows t.vectors)
  if data.rows = 0 then .ok 0.0
  else
    let decoded ← c.decode t
    let total ← Result.ofMatrix (data.squaredDistance decoded)
    .ok (total / Float.ofNat data.rows)

end Codebook
end ProductQuantization
