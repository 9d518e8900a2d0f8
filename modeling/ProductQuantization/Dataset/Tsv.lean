import ProductQuantization.Dataset.Error
import ProductQuantization.Matrix.Basic
import ProductQuantization.Number.Numeral
import ProductQuantization.Text.Blank
import ProductQuantization.Text.Split

/-!
# Tab-separated vectors

A file has a vector in each line, in UTF-8, its components separated by tabs.  Blanks around a line
and around a component are ignored, and so are blank lines.  All vectors have as many components as
the first.

Lines are taken one after the other, and no more of them than are needed for the number of vectors
asked for: what comes after the last of these is not even looked at.
-/

set_option autoImplicit false

namespace ProductQuantization
namespace Tsv

/-- The components of a line.  The first field that is no numeral is reported. -/
def readFields (line : Nat) : List (List Char) → Except DatasetError Point
  | [] => .ok []
  | field :: rest => do
    let field := Text.trim field
    match readSingle? field with
    | none => .error (.parse line field)
    | some x =>
      let xs ← readFields line rest
      .ok (x :: xs)

/-- The vector in a line, if it is not blank. -/
def readLine (line : Nat) (bytes : List UInt8) : Except DatasetError (Option Point) :=
  match Text.ofBytes? bytes with
  | none => .error .io
  | some cs =>
    match Text.trim cs with
    | [] => .ok none
    | cs => (readFields line (Text.splitAt '\t' cs)).map some

/-- A row must be as wide as the first one. -/
def checkWidth (row : Nat) (width : Option Nat) (x : Point) : Except DatasetError Unit :=
  match width with
  | some w => if x.length = w then .ok () else .error (.raggedRow row w x.length)
  | none => .ok ()

/-- The vectors in the lines that are left.  `line` is the number of the next line, `row` the number
of the next vector, `width` that of the components of the first one. -/
def readLines (cap : Option Nat) :
    Nat → Nat → Option Nat → List (List UInt8) → Except DatasetError (List Point)
  | _, _, _, [] => .ok []
  | line, row, width, bytes :: rest =>
    if cap = some row then .ok []
    else do
      match ← readLine line bytes with
      | none => readLines cap (line + 1) row width rest
      | some x =>
        checkWidth row width x
        let xs ← readLines cap (line + 1) (row + 1) (some (width.getD x.length)) rest
        .ok (x :: xs)

/-- The lines of a file. -/
def lines (bytes : List UInt8) : List (List UInt8) := Text.splitAt 0x0A bytes

/-- The vectors of a file, at most `cap` of them if there is a cap. -/
def parse (bytes : List UInt8) (cap : Option Nat) : Except DatasetError Matrix := do
  let rows ← readLines cap 1 0 none (lines bytes)
  .ok (.stack ((rows.head?.map List.length).getD 0) rows)

end Tsv
end ProductQuantization
