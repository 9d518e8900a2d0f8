/-!
# What can be wrong with a shape

The ways in which building or combining matrices fails, and how each is put into words.
-/

set_option autoImplicit false

namespace ProductQuantization

/-- Why a matrix cannot be built or combined. -/
inductive MatrixError where
  /-- A buffer of `length` numbers does not fill `rows` by `cols` exactly. -/
  | lengthMismatch (rows cols length : Nat)
  /-- Row `row` is not as wide as the first one. -/
  | raggedRow (row expected got : Nat)
  /-- The shapes of two operands do not go together. -/
  | incompatibleShapes (leftRows leftCols rightRows rightCols : Nat)
  /-- The columns from `start` up to `stop` are not all there. -/
  | columnRange (start stop cols : Nat)
deriving DecidableEq, Repr

/-- The error in words. -/
def MatrixError.message : MatrixError → String
  | .lengthMismatch rows cols length =>
    s!"Buffer of length {length} cannot hold a {rows}x{cols} matrix"
  | .raggedRow row expected got => s!"Row {row} has {got} components, expected {expected}"
  | .incompatibleShapes leftRows leftCols rightRows rightCols =>
    s!"Cannot multiply {leftRows}x{leftCols} by {rightRows}x{rightCols}"
  | .columnRange start stop cols =>
    s!"Column block {start}..{stop} is out of range for {cols} columns"

end ProductQuantization
