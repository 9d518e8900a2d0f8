import ProductQuantization.Dataset.Format
import ProductQuantization.Dataset.Fvecs
import ProductQuantization.Dataset.Tsv
import ProductQuantization.Storage.FileSystem

/-!
# Reading datasets

A dataset is a file in one of the two formats, and it must hold at least one vector.  The path is
looked at before the file is.

Of a text file no more is read than is needed.  For no vectors at all it need only be there.
-/

set_option autoImplicit false

namespace ProductQuantization
namespace Dataset

variable {m : Type → Type} [Monad m] [FileSystem m]

/-- The vectors of a text file. -/
def readText (path : String) (cap : Option Nat) : ExceptT DatasetError m Matrix := do
  if cap = some 0 then
    Storage.require .io (FileSystem.isThere path)
    pure (.zeros 0 0)
  else
    let bytes ← Storage.contents .io path
    Tsv.parse bytes cap

/-- The vectors of a binary file. -/
def readBinary (path : String) (cap : Option Nat) : ExceptT DatasetError m Matrix := do
  let bytes ← Storage.contents .io path
  Fvecs.parse bytes cap

/-- The vectors of a file, at most `cap` of them if there is a cap. -/
def read (path : String) (cap : Option Nat) : ExceptT DatasetError m Matrix := do
  let data ← match ← DatasetFormat.ofPath path with
    | .tsv => readText path cap
    | .fvecs => readBinary path cap
  if data.rows = 0 then throw (.emptyDataset path) else pure data

end Dataset
end ProductQuantization
