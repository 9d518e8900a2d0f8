import ProductQuantization.Dataset.Error
import ProductQuantization.Storage.Path

/-!
# Dataset formats

There are two formats, and the extension of a file says which one it is in.
-/

set_option autoImplicit false

namespace ProductQuantization

/-- How vectors are written in a file. -/
inductive DatasetFormat where
  /-- A vector in each line, its components separated by tabs. -/
  | tsv
  /-- Binary records, each of them a dimension and that many components. -/
  | fvecs
deriving DecidableEq, Repr

/-- The format of the file with the given path. -/
def DatasetFormat.ofPath (path : String) : Except DatasetError DatasetFormat :=
  match Path.extension? path with
  | some "tsv" => .ok .tsv
  | some "fvecs" => .ok .fvecs
  | _ => .error (.unsupportedFormat path)

end ProductQuantization
