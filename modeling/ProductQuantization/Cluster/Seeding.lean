import ProductQuantization.Cluster.Basic
import ProductQuantization.Random.Source

/-!
# Choosing the first centroids

The first centroids of a run are points.  The first of them is drawn uniformly; each further one is
drawn with a probability proportional to its squared distance from the nearest one chosen so far,
so that the centroids start out spread over the data.

A draw goes through the points and adds up their distances until the sum reaches a random fraction
of the total.  Points at distance zero, which repeat a chosen one, are never taken while any other
point is left: if rounding puts the threshold past the last sum, the last point at a positive
distance is taken.  Only when all distances are zero is a point drawn uniformly.
-/

set_option autoImplicit false

namespace ProductQuantization
namespace Seeding

/-- The points with their squared distances from the nearest chosen one. -/
abbrev Distances (n : Nat) := List (Fin n × Float32)

/-- The distances from a single chosen point. -/
def distancesFrom (points : Matrix) (seed : Fin points.rows) : Distances points.rows :=
  let q := points.rowAt seed
  points.indexedRows.map fun (i, p) => (i, (squaredDistance p q).value)

/-- The distances after one more point has been chosen. -/
def shrink (points : Matrix) (ds : Distances points.rows) (seed : Fin points.rows) :
    Distances points.rows :=
  let q := points.rowAt seed
  ds.map fun (i, d) =>
    let d' := (squaredDistance (points.rowAt i) q).value
    (i, if d' < d then d' else d)

/-- The sum of the distances. -/
def total {n : Nat} (ds : Distances n) : Float := sumInOrder (ds.map fun (_, d) => widen d)

/-- The first point at a positive distance at which the running sum reaches the threshold. -/
def reach? {n : Nat} (threshold : Float) : Float → Distances n → Option (Fin n)
  | _, [] => none
  | sum, (i, d) :: rest =>
    let sum := sum + widen d
    if 0 < d ∧ threshold ≤ sum then some i else reach? threshold sum rest

/-- The last point at a positive distance. -/
def lastApart? {n : Nat} (ds : Distances n) : Option (Fin n) :=
  ((ds.filter fun (_, d) => 0 < d).getLast?).map (·.1)

variable {σ : Type} [RandomSource σ]

/-- Draw one more point. -/
def drawSeed {n : Nat} (hn : 0 < n) (ds : Distances n) (s : σ) : Fin n × σ :=
  let sum := total ds
  if sum == 0.0 then Random.below n hn s
  else
    let (u, s) := Random.unit s
    let chosen := reach? (u * sum) 0.0 ds <|> lastApart? ds
    (chosen.getD ⟨n - 1, Nat.sub_lt hn Nat.one_pos⟩, s)

/-- Draw `count` more points; `chosen` holds those drawn so far, last first. -/
def drawSeeds (points : Matrix) (hn : 0 < points.rows) :
    Nat → List (Fin points.rows) → Distances points.rows → σ → List (Fin points.rows) × σ
  | 0, chosen, _, s => (chosen.reverse, s)
  | count + 1, chosen, ds, s =>
    let (seed, s) := drawSeed hn ds s
    drawSeeds points hn count (seed :: chosen) (shrink points ds seed) s

/-- The indices of `k` points to start from. -/
def seeds (points : Matrix) (hn : 0 < points.rows) (k : Nat) (s : σ) :
    List (Fin points.rows) × σ :=
  let (first, s) := Random.below points.rows hn s
  drawSeeds points hn (k - 1) [first] (distancesFrom points first) s

end Seeding
end ProductQuantization
