import ProductQuantization.Cluster.Seeding
import ProductQuantization.Options

/-!
# k-means from a cold start

A run starts from seeded centroids and alternates two steps: move every centroid to the mean of its
points, then let every point belong to its nearest centroid.  It stops when the centroids have
moved by no more than a tolerance, or after a given number of iterations.

A cluster that has lost all its points is put onto the point farthest from its own centroid, a
second one onto the second farthest, and so on (`reseat`).  Distances are taken before any centroid
is put anywhere; equally far points go in their own order.

`cluster` makes several runs, one after the other on the same random source, and keeps the one with
the least inertia; of equal ones the earliest.
-/

set_option autoImplicit false

namespace ProductQuantization
namespace Cluster

/-! ## Lost clusters -/

/-- The points in order of decreasing distance from their own centroids. -/
def farthestFirst (points : Matrix) (assignments : Array Nat) (centroids : Matrix) :
    List (Fin points.rows) :=
  let cs := centroids.toRows.toArray
  let ranked := (points.indexedRows.zip assignments.toList).map fun ((i, p), c) =>
    (i, rank32 (squaredDistance p (cs.getD c [])))
  (ranked.mergeSort fun a b => b.2 ≤ a.2).map (·.1)

/-- The clusters without points, in order. -/
def lost (ts : Array Tally) : List Nat :=
  (ts.toList.zipIdx.filter fun (t, _) => t.count = 0).map (·.2)

/-- Put the lost clusters onto the farthest points. -/
def reseat (points : Matrix) (assignments : Array Nat) (ts : Array Tally) (centroids : Matrix) :
    Matrix :=
  let seats := (lost ts).zip (farthestFirst points assignments centroids)
  .stack centroids.cols <| (List.finRange centroids.rows).map fun c =>
    match seats.lookup c.val with
    | some i => points.rowAt i
    | none => centroids.rowAt c

/-! ## A run -/

/-- Where the centroids go next. -/
def advance (points : Matrix) (c : Clustering) : Matrix :=
  let ts := tallies c.centroids.rows c.centroids.cols points c.assignments
  let moved := means ts c.centroids
  if ts.any (·.count = 0) then reseat points c.assignments ts moved else moved

/-- How far the centroids have moved. -/
def shift (before after : Matrix) : Float :=
  squaredDistance64 before.data.toList after.data.toList

/-- Iterate until the centroids stand still, at most the given number of times. -/
def iterate (points : Matrix) (tolerance : Float) : Nat → Clustering → Clustering
  | 0, c => c
  | n + 1, c =>
    let next := settle points (advance points c)
    if shift c.centroids next.centroids ≤ tolerance then next
    else iterate points tolerance n next

/-- The mean over the columns of the variance of each column. -/
def meanColumnVariance (points : Matrix) : Float :=
  if points.isEmpty then 0.0
  else
    let rows := points.toRows
    let sums := rows.foldl (fun acc p => acc.zipWith (fun s x => s + x.toFloat) p)
      (List.replicate points.cols 0.0)
    let centre := sums.map (· / Float.ofNat points.rows)
    let spread := rows.foldl (fun acc p =>
      (centre.zip p).foldl (fun acc (m, x) =>
        let d := x.toFloat - m
        acc + d * d) acc) 0.0
    spread / Float.ofNat (points.rows * points.cols)

variable {σ : Type} [RandomSource σ]

/-- One seeded run. -/
def run (points : Matrix) (hn : 0 < points.rows) (k : Nat) (options : KMeansOptions) (s : σ) :
    Clustering × σ :=
  let (chosen, s) := Seeding.seeds points hn k s
  let tolerance := options.tolerance * meanColumnVariance points
  (iterate points tolerance options.maxIterations (settle points (points.selectRows chosen)), s)

/-- The better of two clusterings: the earlier one, unless the later has less inertia. -/
def better (best : Option Clustering) (c : Clustering) : Clustering :=
  match best with
  | none => c
  | some b => if c.inertia < b.inertia then c else b

/-- Make so many more runs and keep the best. -/
def bestOf (points : Matrix) (hn : 0 < points.rows) (k : Nat) (options : KMeansOptions) :
    Nat → Option Clustering → σ → Option Clustering × σ
  | 0, best, s => (best, s)
  | n + 1, best, s =>
    let (c, s) := run points hn k options s
    bestOf points hn k options n (some (better best c)) s

/-- Cluster the points into `k` groups from a cold start. -/
def cluster (points : Matrix) (k : Nat) (options : KMeansOptions) (s : σ) :
    Result Clustering × σ :=
  if hk : k = 0 then (.error (.invalidParams .zeroClusters), s)
  else if hn : points.rows < k then (.error (.degenerateInput points.rows k), s)
  else
    match options.check with
    | .error e => (.error e, s)
    | .ok () =>
      match bestOf points (by omega) k options options.restarts none s with
      | (some c, s) => (.ok c, s)
      | (none, s) => (.error (.invalidParams .zeroRestarts), s)

end Cluster
end ProductQuantization
