import ProductQuantization.Artifact.Codec
import ProductQuantization.Artifact.RotationFile
import ProductQuantization.Storage.FileSystem

/-!
# Publishing artifacts

An artifact appears under its path all at once.  It is written to a temporary file beside it, whose
path has `.tmp` at the end, and that file is then given the path of the artifact.  If anything goes
wrong the temporary file is removed, and what was under the path before is still there.

The contents are worked out only when the temporary file exists, so an artifact that cannot be
written at all is found out in the middle.
-/

set_option autoImplicit false

namespace ProductQuantization

variable {m : Type → Type} [Monad m] [FileSystem m]

namespace Storage

/-- The path under which a file is written before it gets its own. -/
def temporaryPath (path : String) : String := path ++ ".tmp"

/-- Write a file in place. -/
def write (path : String) (bytes : Result (List UInt8)) : ExceptT QuantError m Unit := do
  require .io (FileSystem.createFile path)
  let bytes ← bytes
  require .io (FileSystem.fillFile path bytes)
  require .io (FileSystem.syncFile path)

/-- Write a file by way of a temporary one. -/
def publish (path : String) (bytes : Result (List UInt8)) : ExceptT QuantError m Unit :=
  let temporary := temporaryPath path
  tryCatch
    (do
      write temporary bytes
      require .io (FileSystem.renameFile temporary path))
    fun e => do
      let _ ← (FileSystem.removeFile temporary : m Bool)
      throw e

end Storage

/-- Write a codec file. -/
def Codec.write (path : String) (h : CodecHeader) (c : Codebook) : ExceptT QuantError m Unit :=
  Storage.publish path (Codec.toBytes h c)

/-- Read a codec file. -/
def Codec.read (path : String) : ExceptT QuantError m (CodecHeader × Codebook) := do
  let bytes ← Storage.contents .io path
  Codec.ofBytes bytes

/-- Write a rotation file. -/
def RotationFile.write (path : String) (rotation : Matrix) : ExceptT QuantError m Unit :=
  Storage.publish path (RotationFile.toBytes rotation)

/-- Read a rotation file. -/
def RotationFile.read (path : String) (dim : Nat) : ExceptT QuantError m Matrix := do
  let bytes ← Storage.contents .io path
  RotationFile.ofBytes bytes dim

end ProductQuantization
