import ProductQuantization.Error
import ProductQuantization.Number.Order

/-!
# Singular values by one-sided Jacobi rotations

`svd` factors a square matrix as `U · diag s · Vᵀ`.  It works on columns: plane rotations are
applied to pairs of columns until every pair is orthogonal, and the same rotations, applied to the
identity, make `V`.  The lengths of the columns are then the singular values, and the columns
themselves, made unit vectors, are `U`.

A pair counts as orthogonal when its inner product is zero or small, absolutely or relative to the
lengths of the two columns, or when one of the columns is as good as zero.  Columns that rank
deficiency has shrunk to rounding error never pass a relative test, which is why there are absolute
ones, relative to the size of the whole matrix.

Where a singular value is negligible the column says nothing about `U`.  Such columns are replaced:
the others are made orthogonal to each other once more (`orthonormalize`), and then each gap is
filled by a unit vector orthogonal to all that is there (`complete`).
-/

set_option autoImplicit false

namespace ProductQuantization
namespace Svd

/-- A column of a matrix in double precision. -/
abbrev Column := List Float

/-- Sweeps over all pairs before the iteration is given up. -/
def maxSweeps : Nat := 60

/-- An inner product this small, relative to the two lengths, counts as zero. -/
def relativeTolerance : Float := 1e-12

/-- The distance from one to the next float. -/
def epsilon : Float := 2.220446049250313e-16

/-! ## Columns -/

/-- The inner product, summed in order. -/
def dot (a b : Column) : Float := sumInOrder (a.zipWith (· * ·) b)

/-- The Euclidean length. -/
def norm (a : Column) : Float := Float.sqrt (sumInOrder (a.map fun x => x * x))

/-- Column `j` of the identity. -/
def unitColumn (n j : Nat) : Column := (List.range n).map fun i => if i = j then 1.0 else 0.0

/-- Divide by a length. -/
def divideBy (a : Column) (length : Float) : Column := a.map (· / length)

/-- `a` less its component along `b`. -/
def reject (a b : Column) : Column :=
  let d := dot a b
  a.zipWith (fun x y => x - d * y) b

/-- `a` made orthogonal to each of the given columns, in order, twice over: once is not enough in
floating point. -/
def rejectAll (a : Column) (basis : List Column) : Column :=
  basis.foldl reject (basis.foldl reject a)

/-! ## One rotation -/

/-- The squared lengths of two columns and their inner product. -/
structure Products where
  alpha : Float
  beta : Float
  gamma : Float

/-- The products of two columns. -/
def products (a b : Column) : Products :=
  (a.zip b).foldl (fun p (x, y) => ⟨p.alpha + x * x, p.beta + y * y, p.gamma + x * y⟩) ⟨0, 0, 0⟩

/-- The absolute floors below which lengths and inner products are negligible. -/
structure Floors where
  norm : Float
  gamma : Float

/-- The floors for an `n` by `n` matrix whose entries' squares sum to `frobenius`. -/
def floors (n : Nat) (frobenius : Float) : Floors :=
  ⟨epsilon * epsilon * frobenius, Float.ofNat n * epsilon * frobenius⟩

/-- Whether a pair of columns counts as orthogonal. -/
def settled (f : Floors) (p : Products) : Bool :=
  p.gamma == 0.0 || p.alpha ≤ f.norm || p.beta ≤ f.norm || p.gamma.abs ≤ f.gamma ||
    p.gamma.abs ≤ relativeTolerance * Float.sqrt (p.alpha * p.beta)

/-- The tangent of the angle that makes a pair of columns orthogonal. -/
def tangent (p : Products) : Float :=
  let zeta := (p.beta - p.alpha) / (2.0 * p.gamma)
  if zeta.abs > 1e150 then 0.5 / zeta
  else unitSign zeta / (zeta.abs + Float.sqrt (1.0 + zeta * zeta))

/-- The columns of the matrix being orthogonalized, and the rotations so far. -/
structure Frame (n : Nat) where
  work : Vector Column n
  turns : Vector Column n

/-- Apply the plane rotation with the given cosine and sine to columns `p` and `q`. -/
def rotate {n : Nat} (p q : Fin n) (c s : Float) (cols : Vector Column n) : Vector Column n :=
  let a := cols[p]
  let b := cols[q]
  (cols.set p (a.zipWith (fun x y => c * x - s * y) b)).set q
    (a.zipWith (fun x y => s * x + c * y) b)

/-- Make columns `p` and `q` orthogonal, unless they are; the answer tells how many rotations that
took. -/
def turn {n : Nat} (f : Floors) (st : Frame n × Nat) (pq : Fin n × Fin n) : Frame n × Nat :=
  let (frame, count) := st
  let (p, q) := pq
  let prods := products frame.work[p] frame.work[q]
  if settled f prods then st
  else
    let t := tangent prods
    let c := 1.0 / Float.sqrt (1.0 + t * t)
    let s := c * t
    (⟨rotate p q c s frame.work, rotate p q c s frame.turns⟩, count + 1)

/-! ## Sweeps -/

/-- All pairs of columns, the first before the second. -/
def pairs (n : Nat) : List (Fin n × Fin n) :=
  (List.finRange n).flatMap fun p => ((List.finRange n).filter (p < ·)).map fun q => (p, q)

/-- One sweep over all pairs, with the number of rotations it took. -/
def sweep {n : Nat} (f : Floors) (frame : Frame n) : Frame n × Nat :=
  (pairs n).foldl (turn f) (frame, 0)

/-- Sweep until a sweep finds nothing to do; there is no answer if that does not happen in time. -/
def sweeps {n : Nat} (f : Floors) : Nat → Frame n → Option (Frame n)
  | 0, frame => if n < 2 then some frame else none
  | fuel + 1, frame =>
    let (frame, count) := sweep f frame
    if count = 0 then some frame else sweeps f fuel frame

/-! ## Filling up the basis -/

/-- Make the columns that are there orthogonal to those before them.  One that loses most of its
length that way is dropped. -/
def orthonormalize (done : List (Option Column)) : List (Option Column) → List (Option Column)
  | [] => done
  | none :: rest => orthonormalize (done ++ [none]) rest
  | some c :: rest =>
    let candidate := rejectAll c (done.filterMap id)
    let length := norm candidate
    orthonormalize
      (done ++ [if length < 0.5 then none else some (divideBy candidate length)]) rest

/-- The longer of two candidates with their lengths; the earlier one unless the later is strictly
longer. -/
def longer (best : Option (Float × Column)) (candidate : Column) : Option (Float × Column) :=
  let length := norm candidate
  match best with
  | none => some (length, candidate)
  | some (l, c) => if l < length then some (length, candidate) else some (l, c)

/-- A unit vector orthogonal to the basis: what remains of the standard unit vector of which the
most remains. -/
def complement (n : Nat) (basis : List Column) : Column :=
  let best := ((List.range n).map fun e => rejectAll (unitColumn n e) basis).foldl longer none
  match best with
  | some (length, candidate) => divideBy candidate length
  | none => []

/-- Fill the gaps from left to right. -/
def complete (n : Nat) (done : List Column) : List (Option Column) → List Column
  | [] => done
  | some c :: rest => complete n (done ++ [c]) rest
  | none :: rest => complete n (done ++ [complement n (done ++ rest.filterMap id)]) rest

end Svd

/-- The factors of a square matrix, the singular values in decreasing order. -/
structure Svd where
  n : Nat
  /-- The columns of `U`. -/
  left : List Svd.Column
  /-- The singular values. -/
  values : List Float
  /-- The columns of `V`. -/
  right : List Svd.Column

namespace Svd

/-- The rows of the matrix with the given columns. -/
def rowsOf (n : Nat) (columns : List Column) : List Column :=
  (List.range n).map fun i => columns.map fun c => c.getD i 0.0

/-- Order the columns of a frame by length, and make `U` out of them. -/
def ofFrame {n : Nat} (frame : Frame n) : Svd :=
  let norms := frame.work.map norm
  let order := (List.finRange n).mergeSort fun i j => rank64 norms[j] ≤ rank64 norms[i]
  let values := order.map fun j => norms[j]
  let largest := values.head?.getD 0.0
  let rankTolerance := largest * Float.ofNat n * epsilon
  let raw := order.map fun j =>
    if norms[j] > rankTolerance ∧ norms[j] > 0.0 then some (divideBy frame.work[j] norms[j])
    else none
  { n
    left := complete n [] (orthonormalize [] raw)
    values
    right := order.map fun j => frame.turns[j] }

end Svd

/-- The singular value decomposition of the row-major `n` by `n` matrix `a`. -/
def svd (a : Array Float) (n : Nat) : Result Svd := do
  Result.guard (a.size = n * n) (.invalidParams (.entryCount n a.size))
  Result.guard (a.all (·.isFinite)) (.numerical .notFinite)
  let columns := Vector.ofFn fun j : Fin n =>
    (List.range n).map fun i => a.getD (i * n + j.val) 0.0
  let units := Vector.ofFn fun j : Fin n => Svd.unitColumn n j.val
  let frobenius := sumInOrder (a.toList.map fun x => x * x)
  match Svd.sweeps (Svd.floors n frobenius) Svd.maxSweeps ⟨columns, units⟩ with
  | some frame => .ok (Svd.ofFrame frame)
  | none => .error (.numerical (.notConverged n Svd.maxSweeps))

end ProductQuantization
