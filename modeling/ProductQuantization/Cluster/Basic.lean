import ProductQuantization.Matrix.Basic
import ProductQuantization.Number.Double

/-!
# Clusterings

A clustering of `n` points has `k` centroids, the centroid each point belongs to, and the inertia:
the sum over the points of the squared distance to their centroid.

A point belongs to the nearest centroid, and of equally near ones to the first.  `nearest` looks for
it from left to right, starting from centroid `0` at an infinite distance and moving on only to a
strictly smaller distance.  A distance that is infinite or not a number is therefore never chosen,
and a point without any other belongs to centroid `0`.

The new centroid of a cluster is the mean of its points, summed in point order in double precision
and rounded once; a cluster without points keeps its centroid.
-/

set_option autoImplicit false

namespace ProductQuantization

/-- Centroids, and which of them each point belongs to. -/
structure Clustering where
  centroids : Matrix
  /-- The centroid of every point, in point order. -/
  assignments : Array Nat
  /-- The sum of the squared distances of the points to their centroids. -/
  inertia : Float

/-- A centroid and how far it is. -/
structure Nearest where
  index : Nat
  distance : Float32

/-- Before any centroid has been looked at. -/
def Nearest.start : Nearest := ⟨0, Single.infinity.value⟩

namespace Cluster

/-! ## Assignment -/

/-- Look at the centroids that are left, the first of which has number `i`. -/
def nearestFrom (p : Point) : List Point → Nat → Nearest → Nearest
  | [], _, best => best
  | c :: cs, i, best =>
    let d := (squaredDistance p c).value
    nearestFrom p cs (i + 1) (if d < best.distance then ⟨i, d⟩ else best)

/-- The nearest centroid, ties going to the first. -/
def nearest (p : Point) (centroids : List Point) : Nearest :=
  nearestFrom p centroids 0 Nearest.start

/-- The nearest centroid of every point. -/
def assign (points centroids : Matrix) : List Nearest :=
  let cs := centroids.toRows
  points.toRows.map fun p => nearest p cs

/-- The inertia of an assignment, summed in point order. -/
def inertia (found : List Nearest) : Float :=
  sumInOrder (found.map fun f => widen f.distance)

/-- The clustering that given centroids determine. -/
def settle (points centroids : Matrix) : Clustering :=
  let found := assign points centroids
  ⟨centroids, (found.map Nearest.index).toArray, inertia found⟩

/-! ## Means -/

/-- The number of points of a cluster and the sums of their components. -/
structure Tally where
  count : Nat
  sums : List Double

/-- No points of the given width. -/
def Tally.empty (width : Nat) : Tally := ⟨0, List.replicate width .zero⟩

/-- One more point.  Of several components that are not numbers the bits of the latest one stay. -/
def Tally.add (p : Point) (t : Tally) : Tally :=
  ⟨t.count + 1, t.sums.zipWith (fun s x => Double.ofSingle x + s) p⟩

/-- The components of the mean. -/
def Tally.mean (t : Tally) : Point :=
  t.sums.map fun s => (s / Double.ofNat t.count).toSingle

/-- The tallies of all `k` clusters, in one pass over the points. -/
def tallies (k width : Nat) (points : Matrix) (assignments : Array Nat) : Array Tally :=
  (points.toRows.zip assignments.toList).foldl (fun ts (p, c) => ts.modify c (Tally.add p))
    (Array.ofFn fun _ : Fin k => Tally.empty width)

/-- The means of the clusters that have points; the others keep their centroids. -/
def means (ts : Array Tally) (centroids : Matrix) : Matrix :=
  .stack centroids.cols <| (List.finRange centroids.rows).map fun c =>
    match ts[c.val]? with
    | some t => if t.count = 0 then centroids.rowAt c else t.mean
    | none => centroids.rowAt c

end Cluster

namespace Clustering

/-- How many centroids there are. -/
def size (c : Clustering) : Nat := c.centroids.rows

/-- How many points belong to each centroid; no answer if some point belongs to none of them. -/
def counts? (c : Clustering) : Option (Array Nat) :=
  if c.assignments.all (· < c.size) then
    some (c.assignments.foldl (fun ns a => ns.modify a (· + 1)) (Array.replicate c.size 0))
  else none

/-- Equality of numbers throughout. -/
def sameValues (a b : Clustering) : Bool :=
  a.centroids.sameValues b.centroids && a.assignments == b.assignments && a.inertia == b.inertia

end Clustering
end ProductQuantization
