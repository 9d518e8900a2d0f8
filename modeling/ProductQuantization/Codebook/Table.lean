import ProductQuantization.Cluster.Basic
import ProductQuantization.Error
import ProductQuantization.Number.Size

/-!
# Code tables

A code table holds one code for each vector and subspace, row-major, in sixteen bits each.

A table can come from outside without its shape having been compared with its codes; `WellFormed`
says that they agree.  `ofCodes` makes that comparison with the sixty-four-bit product of the two
sizes, so it is exact for every shape whose number of codes fits in sixty-four bits.
-/

set_option autoImplicit false

namespace ProductQuantization

/-- Codes for `vectors` vectors in `subspaces` subspaces. -/
structure CodeTable where
  vectors : Nat
  subspaces : Nat
  codes : Array UInt16
deriving DecidableEq

namespace CodeTable

/-- There is exactly one code for each vector and subspace. -/
def WellFormed (t : CodeTable) : Prop := t.codes.size = t.vectors * t.subspaces

instance (t : CodeTable) : Decidable t.WellFormed :=
  inferInstanceAs (Decidable (t.codes.size = t.vectors * t.subspaces))

/-- Whether a buffer of so many codes can be had at all. -/
def fits (count : Nat) : Bool := count * 2 < wordValues 63

/-- No vectors and no subspaces. -/
def empty : CodeTable := ⟨0, 0, #[]⟩

/-- Codes with a shape put on them. -/
def ofCodes (vectors subspaces : Nat) (codes : Array UInt16) : Result CodeTable :=
  if codes.size = sizeProduct vectors subspaces then .ok ⟨vectors, subspaces, codes⟩
  else .error (.dimensionMismatch (sizeProduct vectors subspaces) codes.size)

/-- The first assignment of a clustering that is no code. -/
def oversized? (c : Clustering) : Option Nat := c.assignments.toList.find? (maxCodes ≤ ·)

/-- Each clustering must assign as many points as the first, all of them to codes.  The subspaces
are looked at in order, each clustering's length before its assignments. -/
def checkClusterings (vectors : Nat) : Nat → List Clustering → Result Unit
  | _, [] => .ok ()
  | m, c :: rest => do
    Result.guard (c.assignments.size = vectors) (.dimensionMismatch vectors c.assignments.size)
    match oversized? c with
    | some a => .error (.invalidCode m a)
    | none => checkClusterings vectors (m + 1) rest

/-- The assignments of one clustering for each subspace. -/
def ofClusterings (clusterings : List Clustering) : Result CodeTable := do
  let vectors := (clusterings.head?.map (·.assignments.size)).getD 0
  checkClusterings vectors 0 clusterings
  let codes := (List.range vectors).flatMap fun i =>
    clusterings.map fun c => (c.assignments.getD i 0).toUInt16
  .ok ⟨vectors, clusterings.length, codes.toArray⟩

/-- Whether there are no vectors. -/
def isEmpty (t : CodeTable) : Bool := t.vectors = 0

/-- The code at the place that vector `i` and subspace `m` stand for. -/
def get? (t : CodeTable) (i m : Nat) : Option UInt16 := t.codes[i * t.subspaces + m]?

/-- The codes of vector `i`. -/
def row? (t : CodeTable) (i : Nat) : Option (List UInt16) :=
  if i * t.subspaces + t.subspaces ≤ t.codes.size then
    some (t.codes.extract (i * t.subspaces) (i * t.subspaces + t.subspaces)).toList
  else none

end CodeTable
end ProductQuantization
