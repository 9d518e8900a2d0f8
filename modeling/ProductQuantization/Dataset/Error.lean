import ProductQuantization.Text.Quoted

/-!
# What can go wrong in reading a dataset

Lines are counted from one, blank ones included.  Rows and records are counted from zero, and blank
lines are no rows.
-/

set_option autoImplicit false

namespace ProductQuantization

/-- Why a dataset cannot be read. -/
inductive DatasetError where
  | io
  /-- A field that is no numeral. -/
  | parse (line : Nat) (value : List Char)
  | raggedRow (row expected got : Nat)
  /-- A record whose dimension is not positive. -/
  | invalidRecord (record : Nat) (dim : Int)
  | truncated (record needed available : Nat)
  | unsupportedFormat (path : String)
  | emptyDataset (path : String)
deriving DecidableEq, Repr

/-- The error in words. -/
def DatasetError.message : DatasetError → String
  | .io => "IO error"
  | .parse line value => s!"Line {line}: cannot parse " ++ Text.quoted value ++ " as a float"
  | .raggedRow row expected got => s!"Row {row} has {got} components, expected {expected}"
  | .invalidRecord record dim => s!"Record {record}: invalid dimension {dim}"
  | .truncated record needed available =>
    s!"Record {record} is truncated: needs {needed} bytes, {available} left"
  | .unsupportedFormat path =>
    "Unsupported file format: " ++ path ++ " (expected .tsv or .fvecs)"
  | .emptyDataset path => "Dataset " ++ path ++ " contains no vectors"

end ProductQuantization
