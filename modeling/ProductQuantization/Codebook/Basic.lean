import ProductQuantization.Cluster.Basic
import ProductQuantization.Error

/-!
# Codebooks

A codebook splits a vector of dimension `dim` into `subspaces` blocks of width `subspaceDim` and has
`size` centroids for each block.  All centroids lie in one buffer, block by block and in a block
centroid by centroid, so that centroid `k` of block `m` begins at `(m * size + k) * subspaceDim`.

The fields are plain numbers, because a codebook can come from outside.  `Codebook.WellFormed` says
that they fit together, and `Codebook.zeros` and `Codebook.ofClusterings` build nothing else.  What
an ill-formed codebook is asked for may not be there; the functions ending in `?` then have no
answer.
-/

set_option autoImplicit false

namespace ProductQuantization

/-- The centroids of a product quantizer. -/
structure Codebook where
  subspaces : Nat
  /-- Centroids in each subspace. -/
  size : Nat
  dim : Nat
  subspaceDim : Nat
  centroids : Array Single
deriving DecidableEq

namespace Codebook

/-- The fields fit together. -/
structure WellFormed (c : Codebook) : Prop where
  dim_pos : 0 < c.dim
  subspaces_pos : 0 < c.subspaces
  dim_eq : c.dim = c.subspaces * c.subspaceDim
  centroids_size : c.centroids.size = c.subspaces * c.size * c.subspaceDim

/-! ## Parts of a buffer -/

/-- `width` numbers of a buffer from `start` on. -/
def slice? (buffer : Array Single) (start width : Nat) : Option Point :=
  if start + width ≤ buffer.size then some (buffer.extract start (start + width)).toList else none

/-- A buffer with other numbers from `start` on.  They must lie in it. -/
def copyAt? (buffer : Array Single) (start : Nat) (values : Point) : Option (Array Single) :=
  if start + values.length ≤ buffer.size then
    some (buffer.extract 0 start ++ values.toArray ++
      buffer.extract (start + values.length) buffer.size)
  else none

/-- A buffer with blocks of one width copied into it, block `m` to `m * width`.  The first of the
blocks in the list is block `first`. -/
def copyBlocks? (width : Nat) (first : Nat) (blocks : List Point) (buffer : Array Single) :
    Option (Array Single) :=
  match blocks with
  | [] => some buffer
  | block :: rest =>
    if block.length = width then do
      let buffer ← copyAt? buffer (first * width) block
      copyBlocks? width (first + 1) rest buffer
    else none

/-! ## Building -/

/-- How many numbers the centroids of a codebook of this shape are. -/
def centroidCount (c : Codebook) : Nat := c.subspaces * c.size * c.subspaceDim

/-- The shape of a codebook, its centroids still missing.  The dimension must be positive and split
evenly into a positive number of subspaces. -/
def ofShape (dim subspaces size : Nat) : Result Codebook := do
  Result.guard (subspaces ≠ 0 && dim ≠ 0) (.invalidParams .emptyCodebook)
  Result.guard (dim % subspaces = 0) (.subspaceMismatch subspaces dim)
  .ok ⟨subspaces, size, dim, dim / subspaces, #[]⟩

/-- A codebook whose centroids are all zero. -/
def zeros (dim subspaces size : Nat) : Result Codebook := do
  let blank ← ofShape dim subspaces size
  Result.guard (Matrix.fits blank.centroidCount) .outOfBounds
  .ok { blank with centroids := Array.replicate blank.centroidCount .zero }

/-- The centroids of one clustering for each subspace, copied in subspace order into a codebook of
zeros.  The clusterings must all have as many centroids as the first, and of the width of a
subspace.  If they do, their centroids together fill the codebook; only if they do not can it be
larger than any buffer. -/
def ofClusterings (dim : Nat) (clusterings : List Clustering) : Result Codebook :=
  match clusterings with
  | [] => .error (.invalidParams .noClusterings)
  | first :: _ => do
    let blank ← ofShape dim clusterings.length first.size
    let misfit := clusterings.find? fun c =>
      c.centroids.rows ≠ blank.size || c.centroids.cols ≠ blank.subspaceDim
    match misfit with
    | some c =>
      Result.guard (Matrix.fits blank.centroidCount) .outOfBounds
      .error (.dimensionMismatch (blank.size * blank.subspaceDim)
        (c.centroids.rows * c.centroids.cols))
    | none =>
      let centroids ← Result.ofIndex <| copyBlocks? (blank.size * blank.subspaceDim) 0
        (clusterings.map fun c => c.centroids.data.toList)
        (Array.replicate blank.centroidCount .zero)
      .ok { blank with centroids }

/-! ## Looking -/

/-- Where centroid `k` of subspace `m` begins. -/
def offset (c : Codebook) (m k : Nat) : Nat := (m * c.size + k) * c.subspaceDim

/-- Centroid `k` of subspace `m`. -/
def centroid? (c : Codebook) (m k : Nat) : Option Point :=
  slice? c.centroids (c.offset m k) c.subspaceDim

/-- All centroids of subspace `m`, one after the other. -/
def subspace? (c : Codebook) (m : Nat) : Option Point :=
  slice? c.centroids (m * c.size * c.subspaceDim) (c.size * c.subspaceDim)

/-- The first component of subspace `m`. -/
def subspaceStart (c : Codebook) (m : Nat) : Nat := m * c.subspaceDim

/-- The components of a vector that belong to subspace `m`. -/
def extract? (c : Codebook) (vector : Point) (m : Nat) : Option Point :=
  slice? vector.toArray (c.subspaceStart m) c.subspaceDim

/-- The number of bits in a code, if the number of centroids is a power of two. -/
def bits? (c : Codebook) : Option Nat :=
  if c.size ≠ 0 ∧ wordValues c.size.log2 = c.size then some c.size.log2 else none

/-- The length of the centroids in bytes. -/
def tableByteSize (c : Codebook) : Nat := c.centroids.size * 4

/-! ## Changing -/

/-- Overwrite centroid `k` of subspace `m` by one of the same width. -/
def setCentroid? (c : Codebook) (m k : Nat) (values : Point) : Option Codebook :=
  if values.length = c.subspaceDim then do
    let centroids ← copyAt? c.centroids (c.offset m k) values
    some { c with centroids }
  else none

end Codebook
end ProductQuantization
