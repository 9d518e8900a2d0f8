import ProductQuantization.Cluster.Basic
import ProductQuantization.Error

/-!
# k-means from a warm start

`refine` is exactly one pass over existing centroids: each becomes the mean of its points, or stays
where it is if it has none, and then every point belongs to its nearest centroid.  It is not
repeated until anything stands still; training a rotation relies on the single pass.

The pass is made only if the points, the centroids and the assignments go together.

`refineInPlace` makes the same pass on a clustering that is overwritten part by part.
-/

set_option autoImplicit false

namespace ProductQuantization

/-- What a warm pass did. -/
structure RefineReport where
  /-- Points that belong to another centroid than before. -/
  reassigned : Nat
  /-- Centroids that had no points and stayed where they were. -/
  emptyClusters : Nat
deriving DecidableEq, Repr

namespace Cluster

/-- The first point that belongs to no centroid, with the centroid it claims. -/
def stray? (c : Clustering) : Option (Nat × Nat) :=
  c.assignments.toList.zipIdx.find? fun (a, _) => c.size ≤ a

/-- The points must be as wide as the centroids, there must be an assignment for each of them, and
each must be to an existing centroid. -/
def checkRefinable (points : Matrix) (c : Clustering) : Result Unit := do
  Result.guard (points.cols = c.centroids.cols)
    (.dimensionMismatch c.centroids.cols points.cols)
  Result.guard (points.rows = c.assignments.size)
    (.dimensionMismatch c.assignments.size points.rows)
  match stray? c with
  | some (a, row) => .error (.invalidParams (.strayAssignment row a c.size))
  | none => .ok ()

/-- How many places of two assignments differ. -/
def countChanges (a b : Array Nat) : Nat :=
  (a.toList.zip b.toList).countP fun (x, y) => x ≠ y

/-- One pass: means, then assignment. -/
def refine (points : Matrix) (c : Clustering) : Result (RefineReport × Clustering) := do
  checkRefinable points c
  let ts := tallies c.centroids.rows c.centroids.cols points c.assignments
  let next := settle points (means ts c.centroids)
  .ok (⟨countChanges next.assignments c.assignments, ts.toList.countP (·.count = 0)⟩, next)

/-- Overwrite a clustering by the one after it.  The centroids come first, the assignments and the
inertia last; in between the old assignments are still there to be counted against. -/
def overwrite (points : Matrix) : StateM Clustering RefineReport := do
  let c ← get
  let ts := tallies c.centroids.rows c.centroids.cols points c.assignments
  modify fun c => { c with centroids := means ts c.centroids }
  let found := assign points (← get).centroids
  let assignments := (found.map Nearest.index).toArray
  let reassigned := countChanges assignments (← get).assignments
  modify fun c => { c with assignments := assignments, inertia := inertia found }
  return ⟨reassigned, ts.toList.countP (·.count = 0)⟩

/-- One pass over a clustering in place. -/
def refineInPlace (points : Matrix) : ExceptT QuantError (StateM Clustering) RefineReport := do
  let c ← get
  MonadExcept.ofExcept (checkRefinable points c)
  overwrite points

end Cluster
end ProductQuantization
