import ProductQuantization.Artifact.Publish
import ProductQuantization.Dataset.Read
import ProductQuantization.Dataset.Sample
import ProductQuantization.Job.Config
import ProductQuantization.Rotation.Train

/-!
# The stages of a job

A job has two stages.  The first trains a rotation on a sample of the dataset and keeps it in a
file; it does nothing at all if the switch for the rotation is off.  The second trains one codec for
each pair of the configuration on the dataset, rotated if the switch is on, and puts each of them
into a file of its own.

The stages can be run one by one, the rotation then going through its file, or together on a dataset
that is read once.

Everything random in a stage begins with the seed of the configuration, and so does every codec, so
that no codec depends on which others are built.
-/

set_option autoImplicit false

namespace ProductQuantization

/-- What has been built for a pair. -/
structure CodecReport where
  subspaces : Nat
  bits : Nat
  /-- Where the codec is. -/
  path : String
  /-- What encoding the dataset with it loses. -/
  error : Float
deriving DecidableEq

namespace Job

variable {m : Type → Type} [Monad m]

/-- A computation that fails over the dataset. -/
def overDataset {α : Type} (x : ExceptT DatasetError m α) : ExceptT JobError m α :=
  x.adapt .dataset

/-- A computation that fails in quantization. -/
def overQuantization {α : Type} (x : ExceptT QuantError m α) : ExceptT JobError m α :=
  x.adapt .quantization

variable [FileSystem m]

/-- Read a configuration and check what every job needs. -/
def load (path : String) : ExceptT JobError m JobConfig := do
  let bytes ← Storage.contents .io path
  match Text.ofBytes? bytes with
  | none => throw .io
  | some text =>
    let c ← JobConfig.parse (String.ofList text)
    c.validate
    pure c

/-- Read the dataset, which must have the dimension that the configuration says. -/
def loadDataset (c : JobConfig) : ExceptT JobError m Matrix := do
  let data ← overDataset (Dataset.read c.dataPath (some c.capacity))
  if data.cols = c.dim then pure data
  else throw (.config (.foreignData c.dataPath data.cols c.dim))

/-- The rotation for the data: a sample is drawn, and training goes on with the same source. -/
def computeRotation (c : JobConfig) (options : RotationOptions) (data : Matrix) : Result Matrix :=
  let size := min (c.sampleSize.getD data.rows) data.rows
  let (sample, s) := sampleRows data size (ChaCha.ofSeed c.seed)
  (RotationTraining.train sample options s).1.map (·.rotation)

/-- Train a rotation and keep it in its file, if the switch is on. -/
def trainRotation (c : JobConfig) (data : Matrix) : ExceptT JobError m (Option Matrix) := do
  if c.rotates then
    let options ← c.rotationOptions
    let path ← c.rotationPath
    let rotation ← JobResult.ofResult (computeRotation c options data)
    overQuantization (RotationFile.write path rotation)
    pure (some rotation)
  else pure none

/-- The header, the codebook and the error of the codec for a pair. -/
def computeCodec (c : JobConfig) (data : Matrix) (subspaces bits : Nat) :
    Result (CodecHeader × Codebook × Float) := do
  let options := c.quantizerOptions subspaces bits
  let (codebook, table) ← (Codebook.train data options (ChaCha.ofSeed c.seed)).1
  let error ← codebook.meanSquaredError data table
  let header ← CodecHeader.ofSizes c.capacity c.dim subspaces bits
  .ok (header, codebook, error)

/-- Train the codec for a pair and put it into its file. -/
def buildCodec (c : JobConfig) (data : Matrix) (directory : String) (subspaces bits : Nat) :
    ExceptT JobError m CodecReport := do
  let (header, codebook, error) ← JobResult.ofResult (computeCodec c data subspaces bits)
  let path := Path.join directory (c.codecFileName subspaces bits)
  overQuantization (Codec.write path header codebook)
  pure ⟨subspaces, bits, path, error⟩

/-- Build the codec of every pair on the data, rotated if there is a rotation. -/
def construct (c : JobConfig) (data : Matrix) (rotation : Option Matrix) :
    ExceptT JobError m (List CodecReport) := do
  c.validateConstruct
  let directory ← c.outputPath
  Storage.require .io (FileSystem.makeDirectories directory)
  let data ← match rotation with
    | some r => JobResult.ofResult (applyRotation data r)
    | none => pure data
  c.codecPairs.mapM fun (subspaces, bits) => buildCodec c data directory subspaces bits

/-- The first stage on its own. -/
def runRotation (c : JobConfig) : ExceptT JobError m (Option Matrix) := do
  if c.rotates then
    let data ← loadDataset c
    trainRotation c data
  else pure none

/-- The rotation that the first stage has left behind, if the switch is on. -/
def storedRotation (c : JobConfig) : ExceptT JobError m (Option Matrix) := do
  if c.rotates then
    let path ← c.rotationPath
    let rotation ← overQuantization (RotationFile.read path c.dim)
    pure (some rotation)
  else pure none

/-- The second stage on its own. -/
def runConstruct (c : JobConfig) : ExceptT JobError m (List CodecReport) := do
  c.validateConstruct
  let data ← loadDataset c
  let rotation ← storedRotation c
  construct c data rotation

/-- Both stages together. -/
def runAll (c : JobConfig) : ExceptT JobError m (List CodecReport) := do
  c.validateConstruct
  let data ← loadDataset c
  let rotation ← trainRotation c data
  construct c data rotation

end Job
end ProductQuantization
