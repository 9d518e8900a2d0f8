import ProductQuantization.Matrix.Basic
import ProductQuantization.Rotation.Svd

/-!
# The orthogonal Procrustes problem

Given two sets of matched points as the rows of `X` and `Y`, `procrustes` finds the orthogonal `R`
for which `X · R` is closest to `Y`: with `Xᵀ · Y = U · diag s · Vᵀ` it is `U · Vᵀ`.

The product `Xᵀ · Y` is formed in double precision, in partial sums over blocks of rows that are
added up in order.  Components of `X` that are zero contribute nothing and are passed over.
-/

set_option autoImplicit false

namespace ProductQuantization
namespace Procrustes

/-- Rows in one partial sum. -/
def blockRows : Nat := 512

/-- The rows of a square matrix in double precision. -/
abbrev Grid := List (List Float)

/-- All zeros. -/
def zeroGrid (d : Nat) : Grid := List.replicate d (List.replicate d 0.0)

/-- Add the products of one row of `X` with one row of `Y`. -/
def addOuter (acc : Grid) (xs ys : Point) : Grid :=
  acc.zipWith (fun row x =>
    if x.value == 0.0 then row
    else
      let x := x.toFloat
      row.zipWith (fun s y => s + x * y.toFloat) ys) xs

/-- Add two grids. -/
def addGrid (a b : Grid) : Grid := a.zipWith (fun r s => r.zipWith (· + ·) s) b

/-- A list cut into pieces of at most `width`. -/
def blocks {α : Type} (width : Nat) (hw : 0 < width) (xs : List α) : List (List α) :=
  if _h : xs = [] then [] else xs.take width :: blocks width hw (xs.drop width)
termination_by xs.length
decreasing_by
  have := List.length_pos_iff.2 _h
  simp only [List.length_drop]
  omega

/-- `Xᵀ · Y` in double precision. -/
def crossCovariance (x y : Matrix) : Grid :=
  let partials := (blocks blockRows (by decide) (x.toRows.zip y.toRows)).map fun block =>
    block.foldl (fun acc (xs, ys) => addOuter acc xs ys) (zeroGrid x.cols)
  partials.foldl addGrid (zeroGrid x.cols)

/-- `U · Vᵀ`, rounded to single precision. -/
def productOfFactors (f : Svd) : Matrix :=
  let us := Svd.rowsOf f.n f.left
  let vs := Svd.rowsOf f.n f.right
  .stack f.n <| us.map fun u => vs.map fun v =>
    Single.ofFloat ((u.zip v).foldl (fun s (a, b) => s + a * b) 0.0)

end Procrustes

/-- The orthogonal matrix that takes the rows of `x` closest to those of `y`.  A buffer is needed for
the grid, whose entries take twice the bytes of those of a matrix. -/
def procrustes (x y : Matrix) : Result Matrix := do
  Result.guard (x.cols = y.cols) (.dimensionMismatch x.cols y.cols)
  Result.guard (x.rows = y.rows) (.dimensionMismatch x.rows y.rows)
  Result.guard (Matrix.fits (2 * (x.cols * x.cols))) .outOfBounds
  let factors ← svd (Procrustes.crossCovariance x y).flatten.toArray x.cols
  .ok (Procrustes.productOfFactors factors)

/-- The largest entry of `Rᵀ · R - I` in size, in single precision.  Entries that are not a number
are passed over. -/
def orthogonalityError (r : Matrix) : Float32 :=
  let cols := (List.finRange r.cols).map fun j => (r.colAt j).map Single.toFloat
  narrow <| cols.zipIdx.foldl (fun worst (a, i) =>
    cols.zipIdx.foldl (fun worst (b, j) =>
      let dot := (a.zip b).foldl (fun s (x, y) => s + x * y) 0.0
      maxNumber worst (dot - (if i = j then 1.0 else 0.0)).abs) worst) 0.0

end ProductQuantization
