import ProductQuantization.Matrix.Error
import ProductQuantization.Number.Layout
import ProductQuantization.Number.Size

/-!
# What can go wrong in quantization

`QuantError` lists the causes.  Three groups have causes of their own: parameters that make no
sense (`ParamFault`), computations that give no answer (`NumericalFault`), and files that are not
what they should be (`ArtifactFault`).  Each cause has its wording in `message`, and `kind` sorts
the causes for callers who only want to know whose mistake it was.

`QuantError.outOfBounds` is the odd one: it arises when a value's parts disagree about its shape, so
that an index leaves the buffer it points into.  Values built by this library's own functions do not
do that; values put together by hand can.
-/

set_option autoImplicit false

namespace ProductQuantization

/-- The greatest number of bits in a code. -/
def maxBits : Nat := 16

/-- The greatest number of codes. -/
def maxCodes : Nat := wordValues maxBits

/-- A parameter that makes no sense. -/
inductive ParamFault where
  | zeroRestarts
  | badTolerance (tolerance : Float)
  | zeroDimension
  | zeroSubspaces
  | bitsOutOfRange (bits : Nat)
  | clustersOutOfRange (clusters : Nat)
  | zeroClusters
  | emptyCodebook
  | noClusterings
  /-- A point is assigned to a cluster that does not exist. -/
  | strayAssignment (row cluster clusters : Nat)
  | unpackableBits (bits : Nat)
  | codeCount (expected got : Nat)
  | notPowerOfTwo (size : Nat)
  /-- A number does not fit its field of a header. -/
  | tooLarge (field : String) (value : Nat)
  /-- A header and a codebook do not belong together. -/
  | foreignHeader (headerDim headerSubspaces headerBits : Int) (dim subspaces size : Nat)
  | notSquare (rows cols : Nat)
  | entryCount (n got : Nat)
  | shape (error : MatrixError)
deriving DecidableEq

/-- The fault in words. -/
def ParamFault.message : ParamFault → String
  | .zeroRestarts => "k-means restarts must be > 0"
  | .badTolerance tolerance =>
    "k-means tolerance must be a non-negative number, got " ++ plain tolerance
  | .zeroDimension => "dimension must be > 0"
  | .zeroSubspaces => "num_subspaces must be > 0"
  | .bitsOutOfRange bits => s!"nbits must be in 1..={maxBits}, got {bits}"
  | .clustersOutOfRange clusters =>
    s!"num_clusters must be in 1..={maxCodes}, got {clusters}"
  | .zeroClusters => "cluster count must be > 0"
  | .emptyCodebook => "dimension and num_subspaces must be > 0"
  | .noClusterings => "no subspace clusterings"
  | .strayAssignment row cluster clusters =>
    s!"row {row} is assigned to cluster {cluster}, but only {clusters} centroids exist"
  | .unpackableBits bits => s!"code packing supports nbits 4 or 8, got {bits}"
  | .codeCount expected got => s!"Expected {expected} codes, got {got}"
  | .notPowerOfTwo size => s!"codebook size {size} is not a power of two"
  | .tooLarge field value => s!"{field} = {value} does not fit in i32"
  | .foreignHeader headerDim headerSubspaces headerBits dim subspaces size =>
    s!"header (d={headerDim}, M={headerSubspaces}, nbits={headerBits})" ++
      s!" does not describe codebook (d={dim}, M={subspaces}, k={size})"
  | .notSquare rows cols => s!"rotation must be square, got {rows}x{cols}"
  | .entryCount n got => s!"expected {sizeProduct n n} entries for a {n}x{n} matrix, got {got}"
  | .shape error => error.message

/-- A computation that gives no answer. -/
inductive NumericalFault where
  /-- The matrix to factorize has an entry that is infinite or not a number. -/
  | notFinite
  /-- The columns of an `n` by `n` matrix were still not orthogonal when the sweeps ran out. -/
  | notConverged (n sweeps : Nat)
deriving DecidableEq, Repr

/-- The fault in words. -/
def NumericalFault.message : NumericalFault → String
  | .notFinite => "matrix to factorize contains non-finite values"
  | .notConverged n sweeps =>
    s!"Jacobi SVD of a {n}x{n} matrix did not converge within {sweeps} sweeps"

/-- A file that is not what it should be. -/
inductive ArtifactFault where
  | shortHeader (needed got : Nat)
  | negativeCapacity (maxElements : Int)
  | unevenSplit (dim subspaces : Int)
  | bitsOutOfRange (bits : Int)
  | wrongLength (got implied : Nat)
deriving DecidableEq, Repr

/-- The fault in words. -/
def ArtifactFault.message : ArtifactFault → String
  | .shortHeader needed got => s!"codec header needs {needed} bytes, got {got}"
  | .negativeCapacity maxElements => s!"negative max_elements {maxElements}"
  | .unevenSplit dim subspaces => s!"dim {dim} is not split into {subspaces} subspaces"
  | .bitsOutOfRange bits => s!"nbits {bits} out of range"
  | .wrongLength got implied => s!"codec holds {got} bytes, header implies {implied}"

/-- Whose mistake an error is. -/
inductive ErrorKind where
  | configuration
  | degenerateInput
  | numerical
  | format
  | io
  /-- A value whose parts disagree. -/
  | defect
deriving DecidableEq, Repr

/-- Why quantization fails. -/
inductive QuantError where
  | invalidParams (fault : ParamFault)
  | dimensionMismatch (expected got : Nat)
  | subspaceMismatch (subspaces dim : Nat)
  | rotationSizeMismatch (dim expectedBytes gotBytes : Nat)
  | degenerateInput (points clusters : Nat)
  | numerical (fault : NumericalFault)
  | invalidCode (subspace code : Nat)
  | invalidArtifact (fault : ArtifactFault)
  | io
  | outOfBounds
deriving DecidableEq

namespace QuantError

/-- The error in words. -/
def message : QuantError → String
  | .invalidParams fault => "Invalid parameters: " ++ fault.message
  | .dimensionMismatch expected got => s!"Dimension mismatch: expected {expected}, got {got}"
  | .subspaceMismatch subspaces dim =>
    s!"Subspace count {subspaces} does not divide dimension {dim} evenly"
  | .rotationSizeMismatch dim expectedBytes gotBytes =>
    s!"Rotation file holds {gotBytes} bytes, expected {expectedBytes} for a {dim}x{dim} matrix"
  | .degenerateInput points clusters =>
    s!"Cannot form {clusters} clusters from {points} points"
  | .numerical fault => "Numerical failure: " ++ fault.message
  | .invalidCode subspace code => s!"Invalid code {code} for subspace {subspace}"
  | .invalidArtifact fault => "Invalid codec artifact: " ++ fault.message
  | .io => "IO error"
  | .outOfBounds => "index out of bounds"

/-- Whose mistake the error is. -/
def kind : QuantError → ErrorKind
  | .invalidParams _ => .configuration
  | .dimensionMismatch _ _ => .configuration
  | .subspaceMismatch _ _ => .configuration
  | .rotationSizeMismatch _ _ _ => .configuration
  | .degenerateInput _ _ => .degenerateInput
  | .numerical _ => .numerical
  | .invalidCode _ _ => .format
  | .invalidArtifact _ => .format
  | .io => .io
  | .outOfBounds => .defect

/-- A shape error among parameters.  Rows of different widths are a mismatch of dimensions. -/
def ofMatrix : MatrixError → QuantError
  | .raggedRow _ expected got => .dimensionMismatch expected got
  | error => .invalidParams (.shape error)

end QuantError

/-- The outcome of a computation that can fail. -/
abbrev Result := Except QuantError

namespace Result

/-- The answer of a matrix operation. -/
def ofMatrix {α : Type} : Except MatrixError α → Result α
  | .ok x => .ok x
  | .error e => .error (.ofMatrix e)

/-- The value found at an index. -/
def ofIndex {α : Type} : Option α → Result α
  | some x => .ok x
  | none => .error .outOfBounds

/-- Nothing, if the condition holds. -/
def guard (condition : Bool) (error : QuantError) : Result Unit :=
  if condition then .ok () else .error error

end Result
end ProductQuantization
