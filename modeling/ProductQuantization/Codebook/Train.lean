import ProductQuantization.Cluster.Lloyd
import ProductQuantization.Codebook.Decode
import ProductQuantization.Random.ChaCha

/-!
# Training a codebook

Every subspace of the data is clustered on its own.  One seed for each is drawn from the random
source before anything else, in subspace order, so that the course of one subspace's clustering has
no influence on another's.
-/

set_option autoImplicit false

namespace ProductQuantization
namespace Codebook

/-- Cluster block `m` of the columns with a source of its own. -/
def trainSubspace (data : Matrix) (width size : Nat) (kmeans : KMeansOptions)
    (m : Nat) (seed : UInt64) : Result Clustering := do
  let block ← Result.ofMatrix (data.columnBlock (m * width) width)
  (Cluster.cluster block size kmeans (ChaCha.ofSeed seed)).1

variable {σ : Type} [RandomSource σ]

/-- Cluster every subspace from a cold start. -/
def trainSubspaces (data : Matrix) (subspaces size : Nat) (kmeans : KMeansOptions) (s : σ) :
    Result (List Clustering) × σ :=
  if data.rows < size then (.error (.degenerateInput data.rows size), s)
  else
    let width := data.cols / subspaces
    let (seeds, s) := Random.words subspaces s
    (seeds.zipIdx.mapM fun (seed, m) => trainSubspace data width size kmeans m seed, s)

/-- The codebook and the code table of one clustering for each subspace. -/
def assemble (dim : Nat) (clusterings : List Clustering) : Result (Codebook × CodeTable) := do
  let codebook ← ofClusterings dim clusterings
  let table ← CodeTable.ofClusterings clusterings
  .ok (codebook, table)

/-- Train a codebook on the rows of `data`, and give their codes with it.  The options are checked
before anything is drawn. -/
def train (data : Matrix) (options : QuantizerOptions) (s : σ) :
    Result (Codebook × CodeTable) × σ :=
  match options.check data.cols with
  | .error e => (.error e, s)
  | .ok () =>
    match trainSubspaces data options.subspaces options.codebookSize options.kmeans s with
    | (.error e, s) => (.error e, s)
    | (.ok clusterings, s) => (assemble data.cols clusterings, s)

end Codebook
end ProductQuantization
