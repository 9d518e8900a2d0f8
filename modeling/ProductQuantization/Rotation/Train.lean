import ProductQuantization.Cluster.Refine
import ProductQuantization.Codebook.Train
import ProductQuantization.Rotation.Procrustes

/-!
# Training a rotation

Quantization loses less if the data is rotated first so that the subspaces share the variance
evenly.  Training alternates between the two things that can be improved.  With the rotation held
fixed, each subspace of the rotated data is given one warm pass of k-means; with what the codes
stand for held fixed, the rotation that takes the data closest to it is solved for.

The first round has no warm pass: it starts from a cold clustering of the data as it is.  So the
clusterings in the end belong to the rotation before the last one, and there is one distortion for
the cold start and one for each further round.

`rounds n` is the state after `n` rounds, each round starting from the state that the one before it
left.
-/

set_option autoImplicit false

namespace ProductQuantization

/-- A rotation and the codebook that was trained on rotated vectors. -/
structure RotatedQuantizer where
  rotation : Matrix
  codebook : Codebook
  /-- The codes of the training vectors. -/
  table : CodeTable
  /-- The total distortion after the cold start and after each warm pass. -/
  distortions : List Float

/-- Rotate every row of `data`. -/
def applyRotation (data rotation : Matrix) : Result Matrix := do
  Result.guard (rotation.rows = rotation.cols && rotation.rows = data.cols)
    (.dimensionMismatch (sizeProduct data.cols data.cols) (rotation.rows * rotation.cols))
  Result.ofMatrix (data.mul rotation)

namespace RotatedQuantizer

/-- The dimension of the vectors. -/
def dim (q : RotatedQuantizer) : Nat := q.rotation.rows

/-- Rotate vectors. -/
def rotate (q : RotatedQuantizer) (data : Matrix) : Result Matrix :=
  applyRotation data q.rotation

/-- Rotate vectors back: the inverse of an orthogonal matrix is its transpose. -/
def rotateBack (q : RotatedQuantizer) (data : Matrix) : Result Matrix :=
  applyRotation data q.rotation.transpose

/-- Rotate and encode. -/
def encode (q : RotatedQuantizer) (data : Matrix) : Result CodeTable := do
  let rotated ← q.rotate data
  q.codebook.encode rotated

/-- Decode and rotate back. -/
def decode (q : RotatedQuantizer) (t : CodeTable) : Result Matrix := do
  let decoded ← q.codebook.decode t
  q.rotateBack decoded

end RotatedQuantizer

namespace RotationTraining

/-- What the rounds work on. -/
structure State where
  rotation : Matrix
  /-- One clustering for each subspace. -/
  clusterings : List Clustering
  distortions : List Float

/-- What the clusterings stand for at point `i`: the centroids that the point is assigned to, copied
into a row of zeros, each to the place of its subspace. -/
def reconstructedRow (clusterings : List Clustering) (dim i : Nat) : Result Point := do
  let parts ← clusterings.mapM fun c => do
    let a ← Result.ofIndex c.assignments[i]?
    Result.ofIndex (c.centroids.row? a)
  let row ← Result.ofIndex <|
    Codebook.copyBlocks? (dim / max clusterings.length 1) 0 parts (Array.replicate dim .zero)
  .ok row.toList

/-- What the clusterings stand for, as a matrix of its own. -/
def reconstruct (clusterings : List Clustering) (vectors dim : Nat) : Result Matrix := do
  Result.guard (Matrix.fits (vectors * dim)) .outOfBounds
  if dim = 0 then .ok (.zeros vectors 0)
  else
    let rows ← (List.range vectors).mapM (reconstructedRow clusterings dim)
    .ok (.stack dim rows)

/-- One warm pass over each subspace of the rotated data. -/
def refineAll (rotated : Matrix) (width : Nat) (clusterings : List Clustering) :
    Result (List Clustering) :=
  clusterings.zipIdx.mapM fun (c, m) => do
    let block ← Result.ofMatrix (rotated.columnBlock (m * width) width)
    let (_, refined) ← Cluster.refine block c
    .ok refined

/-- Add the distortion of the clusterings on the rotated data. -/
def record (rotated : Matrix) (st : State) : Result State := do
  let reconstructed ← reconstruct st.clusterings rotated.rows rotated.cols
  let distortion ← Result.ofMatrix (rotated.squaredDistance reconstructed)
  .ok { st with distortions := st.distortions ++ [distortion] }

/-- Refresh the clusterings on the rotated data. -/
def refresh (data : Matrix) (width : Nat) (st : State) : Result State := do
  let rotated ← Result.ofMatrix (data.mul st.rotation)
  let clusterings ← refineAll rotated width st.clusterings
  record rotated { st with clusterings }

/-- Solve for the rotation. -/
def realign (data : Matrix) (st : State) : Result State := do
  let reconstructed ← reconstruct st.clusterings data.rows data.cols
  let rotation ← procrustes data reconstructed
  .ok { st with rotation }

/-- The state after so many rounds. -/
def rounds (data : Matrix) (width : Nat) (start : State) : Nat → Result State
  | 0 => .ok start
  | n + 1 => do
    let st ← rounds data width start n
    let st ← if n = 0 then .ok st else refresh data width st
    realign data st

/-- The state after a cold start: no rotation yet, and clusterings of the data as it is. -/
def start (data : Matrix) (clusterings : List Clustering) : Result State :=
  record data ⟨.identity data.cols, clusterings, []⟩

/-- The trained quantizer that a state amounts to. -/
def finish (dim : Nat) (st : State) : Result RotatedQuantizer := do
  let (codebook, table) ← Codebook.assemble dim st.clusterings
  .ok ⟨st.rotation, codebook, table, st.distortions⟩

variable {σ : Type} [RandomSource σ]

/-- The options must suit the dimension, and a buffer is needed for the rotation. -/
def checkTrainable (dim : Nat) (options : RotationOptions) : Result Unit := do
  options.check dim
  Result.guard (Matrix.fits (dim * dim)) .outOfBounds

/-- Train a rotation together with a codebook on the rows of `data`.  Everything is checked before
anything is drawn. -/
def train (data : Matrix) (options : RotationOptions) (s : σ) : Result RotatedQuantizer × σ :=
  match checkTrainable data.cols options with
  | .error e => (.error e, s)
  | .ok () =>
    match Codebook.trainSubspaces data options.subspaces options.clusters options.kmeans s with
    | (.error e, s) => (.error e, s)
    | (.ok clusterings, s) =>
      let trained := do
        let st ← start data clusterings
        let st ← rounds data (data.cols / options.subspaces) st options.rounds
        finish data.cols st
      (trained, s)

end RotationTraining
end ProductQuantization
