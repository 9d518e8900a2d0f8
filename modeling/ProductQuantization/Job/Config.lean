import ProductQuantization.Job.Error
import ProductQuantization.Json.Parser
import ProductQuantization.Json.Record
import ProductQuantization.Options

/-!
# Job configurations

A job is described by a JSON record.  It names a dataset and its dimension; for the rotation, the
file it is kept in and how it is trained; and for the codecs, the directory they go to and the
numbers of subspaces and of bits to combine.  Every pair of the two gives one codec.

`validate` checks what every job needs, and the settings of the rotation if the switch for it is on.
`validateConstruct` checks what is needed for building codecs, down to each single pair, so that a
bad pair is found out before any training.
-/

set_option autoImplicit false

namespace ProductQuantization

/-- What a job is told to do. -/
structure JobConfig where
  /-- The path of the dataset. -/
  dataPath : String
  /-- The dimension of its vectors. -/
  dim : Nat
  /-- The most vectors to read; it is noted in every codec. -/
  capacity : Nat
  /-- Numbers of subspaces to build codecs with. -/
  subspaceCounts : List Nat
  /-- Numbers of bits in a code to build codecs with. -/
  codeWidths : List Nat
  /-- The switch for the rotation: 0 is off and 1 is on. -/
  switch : Nat
  /-- Where the rotation is kept. -/
  rotationFile : Option String
  /-- How many vectors to train the rotation on; all of them if nothing is said. -/
  sampleSize : Option Nat
  /-- The number of subspaces in training the rotation. -/
  rotationSubspaces : Option Nat
  /-- The number of centroids in training the rotation. -/
  rotationClusters : Option Nat
  /-- How often the rotation is solved for. -/
  rotationRounds : Nat
  /-- The directory that the codecs go to. -/
  outputDir : Option String
  /-- The seed of everything random. -/
  seed : UInt64
  kmeans : KMeansOptions
deriving DecidableEq

namespace JobConfig

/-! ## Reading -/

/-- The fields of a configuration. -/
def fieldNames : List String :=
  ["data_path", "d", "max_elements", "pq_m_list", "nbits_list", "opq", "opq_matrix_file",
    "sample_size", "M", "k", "max_iter", "output_dir", "seed", "kmeans"]

/-- The capacity when nothing else is said. -/
def standardCapacity : Nat := 100000

/-- The value of the switch as it is written: a whole number of at most eight bits. -/
def switch? : Json → Option Nat := Json.below? (wordValues 8)

/-- A configuration; all but the dataset and its dimension may be missing. -/
def ofJson? (j : Json) : Option JobConfig := do
  match ← j.fields? fieldNames with
  | [dataPath, dim, capacity, subspaceCounts, codeWidths, switch, rotationFile, sampleSize,
      rotationSubspaces, rotationClusters, rotationRounds, outputDir, seed, kmeans] =>
    let size := Json.size?
    some {
      dataPath := ← Json.required Json.string? dataPath
      dim := ← Json.required size dim
      capacity := ← Json.withDefault standardCapacity size capacity
      subspaceCounts := ← Json.withDefault [] (Json.list? size) subspaceCounts
      codeWidths := ← Json.withDefault [] (Json.list? Json.bits?) codeWidths
      switch := ← Json.withDefault 0 switch? switch
      rotationFile := ← Json.withDefault none (Json.optional? Json.string?) rotationFile
      sampleSize := ← Json.withDefault none (Json.optional? size) sampleSize
      rotationSubspaces := ← Json.withDefault none (Json.optional? size) rotationSubspaces
      rotationClusters := ← Json.withDefault none (Json.optional? size) rotationClusters
      rotationRounds := ← Json.withDefault RotationOptions.standardRounds size rotationRounds
      outputDir := ← Json.withDefault none (Json.optional? Json.string?) outputDir
      seed := (← Json.withDefault 0 size seed).toUInt64
      kmeans := ← Json.kmeansField? kmeans }
  | _ => none

/-- The configuration in a text. -/
def parse (text : String) : JobResult JobConfig :=
  match Json.parse? text >>= ofJson? with
  | some c => .ok c
  | none => .error .json

/-! ## Asking -/

variable (c : JobConfig)

/-- Whether vectors are rotated. -/
def rotates : Bool := c.switch = 1

/-- A path that is given and not empty. -/
def givenPath? (path : Option String) : Option String := path.filter (· ≠ "")

/-- Where the rotation is kept. -/
def rotationPath : JobResult String :=
  match givenPath? c.rotationFile with
  | some path => .ok path
  | none => .error (.config .missingRotationFile)

/-- The directory that the codecs go to. -/
def outputPath : JobResult String :=
  match givenPath? c.outputDir with
  | some path => .ok path
  | none => .error (.config .missingOutput)

/-- How the rotation is trained. -/
def rotationOptions : JobResult RotationOptions :=
  match c.rotationSubspaces, c.rotationClusters with
  | none, _ => .error (.config .missingSubspaces)
  | some _, none => .error (.config .missingClusters)
  | some subspaces, some clusters => .ok ⟨subspaces, clusters, c.rotationRounds, c.kmeans⟩

/-- How a codec is trained. -/
def quantizerOptions (subspaces bits : Nat) : QuantizerOptions := ⟨subspaces, bits, c.kmeans⟩

/-- Every number of subspaces with every number of bits. -/
def codecPairs : List (Nat × Nat) :=
  c.subspaceCounts.flatMap fun subspaces => c.codeWidths.map fun bits => (subspaces, bits)

/-- The name of the file of a codec. -/
def codecFileName (subspaces bits : Nat) : String :=
  s!"encoded_data_{c.switch}_{c.capacity}_{subspaces}_{bits}"

/-! ## Checking -/

/-- Nothing, if the condition holds. -/
def guard (condition : Bool) (fault : ConfigFault) : JobResult Unit :=
  if condition then .ok () else .error (.config fault)

/-- What the rotation needs. -/
def validateRotation : JobResult Unit := do
  let _ ← c.rotationPath
  let options ← c.rotationOptions
  .ofResult (options.check c.dim)

/-- What every job needs. -/
def validate : JobResult Unit := do
  guard (c.dim ≠ 0) .zeroDimension
  guard (c.capacity ≠ 0) .zeroCapacity
  guard (c.switch ≤ 1) (.badSwitch c.switch)
  guard (c.sampleSize ≠ some 0) .zeroSample
  .ofResult c.kmeans.check
  if c.rotates then c.validateRotation else .ok ()

/-- What building codecs needs besides. -/
def validateConstruct : JobResult Unit := do
  let _ ← c.outputPath
  guard (!c.subspaceCounts.isEmpty) .noSubspaceCounts
  guard (!c.codeWidths.isEmpty) .noCodeWidths
  c.codecPairs.forM fun (subspaces, bits) =>
    .ofResult ((c.quantizerOptions subspaces bits).check c.dim)

end JobConfig
end ProductQuantization
