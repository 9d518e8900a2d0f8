import ProductQuantization.Error

/-!
# Training options

What a training run is told to do, and when that makes sense.  Each `check` reports the first
thing that is wrong.
-/

set_option autoImplicit false

namespace ProductQuantization

/-- Options of one k-means run. -/
structure KMeansOptions where
  /-- Independent seeded runs; the best one is kept. -/
  restarts : Nat
  /-- The most iterations of one run. -/
  maxIterations : Nat
  /-- A run stops when its centroids move no further than this, relative to the variance of the
  points. -/
  tolerance : Float
deriving DecidableEq

namespace KMeansOptions

/-- Three runs of at most three hundred iterations each. -/
def standard : KMeansOptions := ⟨3, 300, 1e-4⟩

/-- There must be a run, and the tolerance must be a number that is not negative. -/
def check (o : KMeansOptions) : Result Unit := do
  Result.guard (o.restarts ≠ 0) (.invalidParams .zeroRestarts)
  Result.guard (o.tolerance.isFinite && !(o.tolerance < 0.0))
    (.invalidParams (.badTolerance o.tolerance))

end KMeansOptions

/-- The dimension must be positive and split evenly into a positive number of subspaces. -/
def checkSplit (dim subspaces : Nat) : Result Unit := do
  Result.guard (dim ≠ 0) (.invalidParams .zeroDimension)
  Result.guard (subspaces ≠ 0) (.invalidParams .zeroSubspaces)
  Result.guard (dim % subspaces = 0) (.subspaceMismatch subspaces dim)

/-- Options for training a codebook. -/
structure QuantizerOptions where
  subspaces : Nat
  /-- Bits in a code; there are as many centroids in a subspace as there are codes. -/
  bits : Nat
  kmeans : KMeansOptions
deriving DecidableEq

namespace QuantizerOptions

/-- Eight subspaces of 256 centroids. -/
def standard : QuantizerOptions := ⟨8, 8, .standard⟩

/-- Centroids in each subspace. -/
def codebookSize (o : QuantizerOptions) : Nat := wordValues o.bits

/-- The width of each subspace; there is none without subspaces. -/
def subspaceDim? (o : QuantizerOptions) (dim : Nat) : Option Nat :=
  if o.subspaces = 0 then none else some (dim / o.subspaces)

/-- The dimension must split evenly, and the codes must have from one to `maxBits` bits. -/
def check (o : QuantizerOptions) (dim : Nat) : Result Unit := do
  checkSplit dim o.subspaces
  Result.guard (o.bits ≠ 0 && o.bits ≤ maxBits) (.invalidParams (.bitsOutOfRange o.bits))
  o.kmeans.check

end QuantizerOptions

/-- Options for training a rotation together with a codebook. -/
structure RotationOptions where
  subspaces : Nat
  /-- Centroids in each subspace, not necessarily a power of two. -/
  clusters : Nat
  /-- How often the rotation is solved for. -/
  rounds : Nat
  kmeans : KMeansOptions
deriving DecidableEq

namespace RotationOptions

/-- The number of rounds when nothing else is said. -/
def standardRounds : Nat := 10

/-- The dimension must split evenly, and the centroids must be countable with `maxBits` bits. -/
def check (o : RotationOptions) (dim : Nat) : Result Unit := do
  checkSplit dim o.subspaces
  Result.guard (o.clusters ≠ 0 && o.clusters ≤ maxCodes)
    (.invalidParams (.clustersOutOfRange o.clusters))
  o.kmeans.check

end RotationOptions
end ProductQuantization
