import ProductQuantization.Number.Order
import ProductQuantization.Number.Single

/-!
# Distances and inner products

Floating-point sums depend on the order of their terms, so the order is part of what these
functions compute.  In single precision there are four running sums.  The terms are taken eight at
a time, and term `j` of a block of eight goes together with term `j + 4` into sum `j`; what is left
after the last whole block goes into the first sum; and the four sums are added from left to right.
`laneSum` is that rule, `squaredDistance` and `dotProduct` are its two uses.

The results are stored numbers, because their bits matter also when they are none: the sign of such
a distance decides its place in the total order, and such a product becomes an entry of a matrix.

In double precision there is one running sum in order, `squaredDistance64`.

Two vectors that are compared have the same width.  Should one be longer, the whole blocks of eight
are paired off, and then what each has beyond its own last whole block: `pairUp`.
-/

set_option autoImplicit false

namespace ProductQuantization

/-- A vector: the components of one row of a dataset, or of one subspace of such a row. -/
abbrev Point := List Single

/-- The four running sums of the single-precision kernels. -/
structure Lanes where
  s0 : Single
  s1 : Single
  s2 : Single
  s3 : Single

namespace Lanes

/-- All four sums at `+0`. -/
def zero : Lanes := ⟨.zero, .zero, .zero, .zero⟩

/-- The four sums added from left to right. -/
def total (l : Lanes) : Single := l.s0 + l.s1 + l.s2 + l.s3

/-- Add the terms to the sums: whole blocks of eight over all four, the rest to the first. -/
def add (l : Lanes) : List Single → Lanes
  | t0 :: t1 :: t2 :: t3 :: t4 :: t5 :: t6 :: t7 :: rest =>
    add ⟨l.s0 + (t0 + t4), l.s1 + (t1 + t5), l.s2 + (t2 + t6), l.s3 + (t3 + t7)⟩ rest
  | rest => { l with s0 := rest.foldl (· + ·) l.s0 }

end Lanes

/-- The sum of the terms over four running sums. -/
def laneSum (terms : List Single) : Single := (Lanes.zero.add terms).total

/-- How many components of a vector lie in whole blocks of eight. -/
def blockedLength (x : Point) : Nat := x.length / 8 * 8

/-- The components that are taken together: the whole blocks in order, then the two remainders. -/
def pairUp (x y : Point) : List (Single × Single) :=
  if x.length = y.length then x.zip y
  else
    (x.take (blockedLength x)).zip (y.take (blockedLength y)) ++
      (x.drop (blockedLength x)).zip (y.drop (blockedLength y))

/-- The squared difference of two components. -/
def squaredDifference (x y : Single) : Single :=
  let d := x - y
  d * d

/-- The squared Euclidean distance in single precision.  Nearest-centroid searches only compare
distances, so no square root is taken. -/
def squaredDistance (x y : Point) : Single :=
  laneSum ((pairUp x y).map fun (a, b) => squaredDifference a b)

/-- The inner product in single precision. -/
def dotProduct (x y : Point) : Single :=
  laneSum ((pairUp x y).map fun (a, b) => a * b)

/-- The squared Euclidean distance, summed in double precision from left to right.  This is the one
for totals over many small errors. -/
def squaredDistance64 (x y : Point) : Float :=
  sumInOrder ((x.zip y).map fun (a, b) =>
    let d := a.toFloat - b.toFloat
    d * d)

end ProductQuantization
