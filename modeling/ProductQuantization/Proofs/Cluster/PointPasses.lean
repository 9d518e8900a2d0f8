import Mathlib.Algebra.Ring.Nat
import ProductQuantization.Proofs.Cluster.WarmPass
import ProductQuantization.Proofs.Matrix.RowListing
import ProductQuantization.Random.Listed

/-!
# Every point is visited once

Clustering goes through the points again and again: to assign them, to sum them up by clusters, to
find their spread, and before that to cut their columns into subspaces.  Each time it goes through
the rows of a matrix, so what is said here of these passes rests on the matrix presenting all its
rows: one index after the other, each point comes up once (`visitsPoints`).  A clustering therefore
has as many assignments as there were points (`rows_presented`).

None of this is said of points without components.  They are all equal and there is nothing to go
through, so no pass comes across them (`columnless_rows`).
-/

set_option autoImplicit false

namespace ProductQuantization
namespace Cluster

/-! ## Counting -/

theorem sum_modify {α : Type} {f : α → α} {g : α → Nat} (hf : ∀ a, g (f a) = g a + 1) (as : List α)
    {c : Nat} (hc : c < as.length) :
    ((as.modify c f).map g).sum = (as.map g).sum + 1 := by
  induction as generalizing c with
  | nil => cases hc
  | cons a as ih =>
    cases c with
    | zero => simp [hf, Nat.add_right_comm]
    | succ c => simp [ih (Nat.lt_of_succ_lt_succ hc), Nat.add_assoc]

/-- Every point that is added to the tally of an existing cluster is counted there. -/
theorem sum_count_foldl (xs : List (Point × Nat)) (ts : Array Tally) (h : ∀ x ∈ xs, x.2 < ts.size) :
    ((xs.foldl (fun ts (p, c) => ts.modify c (Tally.add p)) ts).toList.map Tally.count).sum
      = (ts.toList.map Tally.count).sum + xs.length := by
  induction xs generalizing ts with
  | nil => rfl
  | cons x xs ih =>
    rw [List.forall_mem_cons] at h
    have hadd : ∀ t : Tally, (Tally.add x.1 t).count = t.count + 1 := fun _ => rfl
    rw [List.foldl_cons, ih _ (by simpa using h.2), Array.toList_modify,
      sum_modify hadd _ (by simpa using h.1), List.length_cons, Nat.add_assoc, Nat.add_comm 1]

/-! ## Passes -/

section Passes

variable (points : Matrix)

/-- The sums of the columns, point by point. -/
def columnSums : List Float :=
  (List.finRange points.rows).foldl
    (fun acc i => acc.zipWith (fun s x => s + x.toFloat) (points.rowAt i))
    (List.replicate points.cols 0.0)

/-- The squared deviations from a centre, point by point. -/
def spreadAround (centre : List Float) : Float :=
  (List.finRange points.rows).foldl
    (fun acc i => (centre.zip (points.rowAt i)).foldl (fun acc (m, x) =>
      let d := x.toFloat - m
      acc + d * d) acc) 0.0

/-- The passes over the points are passes over their indices, one after the other. -/
structure VisitsPoints : Prop where
  fold : ∀ {α : Type} (f : α → Point → α) (start : α), points.listedRows.foldl f start
    = (List.finRange points.rows).foldl (fun acc i => f acc (points.rowAt i)) start
  assign : ∀ centroids, assign points centroids
    = (List.finRange points.rows).map fun i => nearest (points.rowAt i) centroids.toRows
  tallies : ∀ (k width : Nat) (a : Fin points.rows → Nat),
    tallies k width points (Array.ofFn a)
      = (List.finRange points.rows).foldl
          (fun ts i => ts.modify (a i) (Tally.add (points.rowAt i)))
          (Array.ofFn fun _ : Fin k => Tally.empty width)
  /-- All points together are counted once. -/
  counts : ∀ (k width : Nat) (a : Fin points.rows → Nat), (∀ i, a i < k) →
    ((Cluster.tallies k width points (Array.ofFn a)).toList.map Tally.count).sum = points.rows
  variance : points.rows ≠ 0 → meanColumnVariance points
    = spreadAround points ((columnSums points).map (· / Float.ofNat points.rows))
        / Float.ofNat (points.rows * points.cols)
  columnBlock : ∀ start width, start + width ≤ points.cols → points.columnBlock start width
    = Matrix.ofData points.rows width ((List.finRange points.rows).flatMap fun i =>
        Matrix.window start width (points.rowAt i)).toArray

variable {points}

/-- Points and assignments side by side. -/
theorem zip_assignments (h : points.cols ≠ 0 ∨ points.rows = 0) (a : Fin points.rows → Nat) :
    points.toRows.zip (Array.ofFn a).toList
      = (List.finRange points.rows).map fun i => (points.rowAt i, a i) := by
  rw [Matrix.toRows_eq_map h, Array.toList_ofFn, List.ofFn_eq_map, List.zip_map']

theorem meanColumnVariance_eq_div (hc : points.cols ≠ 0) (hr : points.rows ≠ 0) :
    meanColumnVariance points
      = spreadAround points ((columnSums points).map (· / Float.ofNat points.rows))
          / Float.ofNat (points.rows * points.cols) := by
  have hnonempty : points.isEmpty = false := by simp [Matrix.isEmpty, hr, hc]
  simp only [meanColumnVariance, hnonempty, Bool.false_eq_true, if_false,
    Matrix.toRows_eq_map (.inl hc), List.foldl_map]
  rfl

theorem columnBlock_eq {start width : Nat} (h : start + width ≤ points.cols) :
    points.columnBlock start width
      = Matrix.ofData points.rows width ((List.finRange points.rows).flatMap fun i =>
          Matrix.window start width (points.rowAt i)).toArray := by
  obtain ⟨⟨rows, cols, data, hsize⟩, hblock⟩ := Matrix.exists_columnBlock h
  obtain ⟨hr, hc, hrow⟩ := Matrix.isBlock_of_columnBlock hblock
  obtain rfl : rows = points.rows := hr
  obtain rfl : cols = width := hc
  have hdata : data.toList = (List.finRange points.rows).flatMap fun i =>
      Matrix.window start cols (points.rowAt i) := by
    refine (Matrix.flatten_rowAt ⟨_, cols, data, hsize⟩).symm.trans ?_
    rw [List.flatMap_def, List.ofFn_eq_map]
    exact congrArg List.flatten (List.map_congr_left fun i _ => hrow i i.isLt i.isLt)
  rw [hblock, ← hdata, Matrix.ofData, dif_pos hsize]

/-- **Every point is visited once**, unless there are points without components. -/
theorem visitsPoints (h : points.cols ≠ 0 ∨ points.rows = 0) : VisitsPoints points where
  fold f start := by rw [Matrix.listedRows_eq, Matrix.toRows_eq_map h, List.foldl_map]
  assign centroids := by
    simp only [Cluster.assign, Matrix.toRows_eq_map h, List.map_map]
    rfl
  tallies k width a := by rw [Cluster.tallies, zip_assignments h, List.foldl_map]
  counts k width a ha := by
    rw [Cluster.tallies, zip_assignments h, sum_count_foldl]
    · simp [Tally.empty]
    · simpa using ha
  variance hr := meanColumnVariance_eq_div (h.resolve_right hr) hr
  columnBlock start width hle := columnBlock_eq hle

end Passes

/-! ## All rows -/

/-- **A matrix presents all its rows**, whatever sequence of operations it comes from, if it has a
column or has no rows: the walk through the buffer comes across each of them once, in order, and so
does every pass of a clustering, which ends with an assignment for each.  A matrix without columns
has an empty buffer, and the walk comes across nothing. -/
theorem rows_presented {rows cols : Nat} {m : Matrix} (h : Matrix.Obtainable rows cols m) :
    m.Presents rows cols ∧
      (cols ≠ 0 ∨ rows = 0 → VisitsPoints m ∧
        ∀ {σ : Type} [RandomSource σ] (k : Nat) (options : KMeansOptions) (s : σ),
          (k ≠ 0 → k ≤ rows → options.check = .ok () → ∃ c, (cluster m k options s).1 = .ok c) ∧
          ∀ c, (cluster m k options s).1 = .ok c → c.assignments.size = rows) := by
  have hpresents := h.hasShape.presents
  obtain ⟨rfl, rfl⟩ := h.hasShape
  refine ⟨hpresents, fun hfull => ⟨visitsPoints hfull, fun k options s => ⟨?_, ?_⟩⟩⟩
  · exact fun hk hn ho => exists_cluster s hk hn ho
  · exact fun c hc => (settled_cluster hc).1.size_assignments_of_full hfull

def twoRows : List Point := [[.zero, .one, .zero], [.one, .zero, .one]]

/-- The second column of two rows that have been turned: three points on a line. -/
theorem rows_presented_block : ∃ m c, Matrix.Obtainable 3 1 m ∧
    m.listedRows.length = 3 ∧ m.listedRows[2]? = m.row? 2 ∧
    (cluster m 2 ⟨3, 0, 0.0⟩ (ListedSource.ofList [])).1 = .ok c ∧ c.assignments.size = 3 := by
  have hrows : Matrix.ofRows twoRows = .ok (.stack 3 twoRows) := rfl
  have htwo : Matrix.Obtainable 2 3 (.stack 3 twoRows) := .ofRows hrows
  obtain ⟨block, hblock⟩ : ∃ block, (Matrix.stack 3 twoRows).transpose.columnBlock 1 1 = .ok block :=
    Matrix.exists_columnBlock (by decide)
  have hthree : Matrix.Obtainable 3 1 block :=
    htwo.transpose.columnBlock ((if_pos (by decide)).trans (congrArg some hblock))
  obtain ⟨hpresents, hfull⟩ := rows_presented hthree
  obtain ⟨hlen, hat⟩ := hpresents.listed (.inl (by decide))
  obtain ⟨-, hcluster⟩ := hfull (.inl (by decide))
  obtain ⟨hsome, hsize⟩ := hcluster 2 ⟨3, 0, 0.0⟩ (ListedSource.ofList [])
  obtain ⟨c, hc⟩ := hsome (by decide) (by decide) (by decide +kernel)
  exact ⟨block, c, hthree, hlen, hat 2 (by decide), hc, hsize c hc⟩

/-- Three rows without columns are found one by one, and none of them is listed. -/
theorem columnless_rows : ∃ m, Matrix.Obtainable 3 0 m ∧ m.rows = 3 ∧
    m.row? 0 = some [] ∧ m.listedRows.length ≠ m.rows ∧ m.listedRows[0]? ≠ m.row? 0 := by
  have hrow : (Matrix.zeros 3 0).row? 0 = some [] := rfl
  have hlisted : (Matrix.zeros 3 0).listedRows = [] := Matrix.listedRows_eq _
  refine ⟨.zeros 3 0, .zeros (if_pos (by decide)), rfl, hrow, ?_, ?_⟩
  · rw [hlisted]
    exact Nat.zero_ne_add_one 2
  · rw [hlisted, hrow]
    exact Option.some_ne_none _ ∘ Eq.symm

end Cluster
end ProductQuantization
