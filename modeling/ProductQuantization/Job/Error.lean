import ProductQuantization.Dataset.Error
import ProductQuantization.Error

/-!
# What can go wrong in a job

A job fails over its configuration (`ConfigFault`), over its dataset, in quantization, or over its
files.  `JobError.isConfiguration` tells the mistakes of whoever wrote the configuration from those
of the data and the surroundings.
-/

set_option autoImplicit false

namespace ProductQuantization

/-- A configuration that makes no sense, or does not fit the data. -/
inductive ConfigFault where
  | zeroDimension
  | zeroCapacity
  /-- The switch for the rotation is neither 0 nor 1. -/
  | badSwitch (value : Nat)
  | zeroSample
  | missingRotationFile
  | missingSubspaces
  | missingClusters
  | missingOutput
  | noSubspaceCounts
  | noCodeWidths
  /-- The vectors of the dataset have another dimension. -/
  | foreignData (path : String) (got expected : Nat)
deriving DecidableEq, Repr

/-- The fault in words. -/
def ConfigFault.message : ConfigFault → String
  | .zeroDimension => "d must be > 0"
  | .zeroCapacity => "max_elements must be > 0"
  | .badSwitch value => s!"opq must be 0 or 1, got {value}"
  | .zeroSample => "sample_size must be > 0"
  | .missingRotationFile => "OPQ is enabled but opq_matrix_file is missing"
  | .missingSubspaces => "OPQ is enabled but M is missing"
  | .missingClusters => "OPQ is enabled but k is missing"
  | .missingOutput => "output_dir is required to construct codecs"
  | .noSubspaceCounts => "pq_m_list must not be empty"
  | .noCodeWidths => "nbits_list must not be empty"
  | .foreignData path got expected =>
    "dataset " ++ path ++ s!" has dimension {got}, config says d = {expected}"

/-- Why a job fails. -/
inductive JobError where
  | config (fault : ConfigFault)
  | dataset (error : DatasetError)
  | quantization (error : QuantError)
  | io
  /-- The configuration is no JSON, or not of the right form. -/
  | json
deriving DecidableEq

namespace JobError

/-- The error in words. -/
def message : JobError → String
  | .config fault => "Configuration error: " ++ fault.message
  | .dataset error => "Dataset error: " ++ error.message
  | .quantization error => "Quantization error: " ++ error.message
  | .io => "IO error"
  | .json => "JSON error"

/-- Whether the configuration is to blame. -/
def isConfiguration : JobError → Bool
  | .config _ => true
  | .json => true
  | .quantization error => error.kind = .configuration
  | .dataset _ => false
  | .io => false

end JobError

/-- The outcome of a computation in a job. -/
abbrev JobResult := Except JobError

/-- A quantization result inside a job. -/
def JobResult.ofResult {α : Type} (r : Result α) : JobResult α := r.mapError .quantization

end ProductQuantization
