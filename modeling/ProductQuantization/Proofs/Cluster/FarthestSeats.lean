import Mathlib.Data.List.FinRange
import ProductQuantization.Cluster.Lloyd
import ProductQuantization.Proofs.Cluster.WarmPass

/-!
# Lost clusters and the farthest points

A cluster without members is put onto a point that is far from its own centroid, so that it has a
member again after the next assignment.  `Reseated` says which cluster gets which point: the lost
clusters in the order of their numbers take the points in the order of `Before`, the farthest first
and equally far ones in their own order.  Distances are compared in the total order of the bits, so
that every distance has its place, also one that is not a number.

The lost clusters and the ranked points are two lists side by side, and the shorter one ends both.
There are not more clusters than points, so none of the lost clusters goes without.
-/

set_option autoImplicit false

namespace ProductQuantization
namespace Cluster

/-! ## Sorting by a key -/

/-- **The library sorts stably**: by decreasing key, and equal keys in the order they had. -/
theorem pairwise_mergeSort_finRange {n : Nat} (key : Fin n → Nat) :
    ((List.finRange n).mergeSort fun i j => key j ≤ key i).Pairwise
      fun i j => key j < key i ∨ key j = key i ∧ i < j := by
  have hsorted := List.pairwise_mergeSort
    (@List.zipIdxLE_trans _ (fun i j : Fin n => decide (key j ≤ key i))
      (by simp only [decide_eq_true_eq]; omega))
    (List.zipIdxLE_total (by simp only [Bool.or_eq_true, decide_eq_true_eq]; omega))
    (List.finRange n).zipIdx
  have hnodup : ((List.finRange n).mergeSort fun i j => decide (key j ≤ key i)).Nodup :=
    (List.nodup_finRange n).mergeSort
  rw [← List.mergeSort_zipIdx] at hnodup ⊢
  rw [List.Nodup, List.pairwise_map] at hnodup
  rw [List.pairwise_map]
  -- the number beside an index in the sorted list is the index itself
  have hplace : ∀ p : Fin n × Nat, p ∈ (List.finRange n).zipIdx → p.1.val = p.2 := by
    rintro ⟨i, k⟩ hp
    obtain ⟨hk, hik⟩ := List.getElem?_eq_some_iff.1 (List.mem_zipIdx_iff_getElem?.1 hp)
    rw [← hik, List.getElem_finRange]
    rfl
  refine (hsorted.and hnodup).imp_of_mem fun {p q} hp hq h => ?_
  have hpk := hplace p (List.mem_mergeSort.1 hp)
  have hqk := hplace q (List.mem_mergeSort.1 hq)
  obtain ⟨hle, hne⟩ := h
  have hval : p.1.val ≠ q.1.val := fun h => hne (Fin.ext h)
  simp only [List.zipIdxLE, decide_eq_true_eq] at hle
  split at hle
  · split at hle
    · exact .inr ⟨by omega, Fin.lt_def.2 (by have := of_decide_eq_true hle; omega)⟩
    · exact .inl (by omega)
  · cases hle

/-! ## The order of the points -/

section Points

variable {points : Matrix} {c : Clustering}

/-- The cluster that a point belongs to. -/
def Refinable.own (h : Refinable points c) (i : Fin points.rows) : Fin c.centroids.rows :=
  have hi : i.val < c.assignments.size := h.rows_eq ▸ i.isLt
  ⟨c.assignments[i.val], h.assignments_lt _ (Array.getElem_mem hi)⟩

/-- The squared distance of a point from the centroid of its own cluster. -/
def Refinable.distance (h : Refinable points c) (i : Fin points.rows) : Single :=
  squaredDistance (points.rowAt i) (c.centroids.rowAt (h.own i))

/-- A point comes before another if it is farther from its own centroid, or as far and earlier. -/
def Refinable.Before (h : Refinable points c) (i j : Fin points.rows) : Prop :=
  rank32 (h.distance j) < rank32 (h.distance i) ∨
    rank32 (h.distance j) = rank32 (h.distance i) ∧ i < j

instance (h : Refinable points c) (i j : Fin points.rows) : Decidable (h.Before i j) :=
  inferInstanceAs (Decidable (_ ∨ _))

/-- The points, the farthest first. -/
def Refinable.ranking (h : Refinable points c) : List (Fin points.rows) :=
  (List.finRange points.rows).mergeSort fun i j => rank32 (h.distance j) ≤ rank32 (h.distance i)

theorem Refinable.ranking_perm (h : Refinable points c) :
    h.ranking.Perm (List.finRange points.rows) := List.mergeSort_perm _ _

theorem Refinable.pairwise_ranking (h : Refinable points c) : h.ranking.Pairwise h.Before :=
  pairwise_mergeSort_finRange fun i => rank32 (h.distance i)

/-- No two orders of the points are like that. -/
theorem Refinable.ranking_unique (h : Refinable points c) {is js : List (Fin points.rows)}
    (hi : is.Perm (List.finRange points.rows)) (hsorted : is.Pairwise h.Before)
    (hj : js.Perm (List.finRange points.rows)) (hsorted' : js.Pairwise h.Before) : is = js := by
  refine (hi.trans hj.symm).eq_of_pairwise (fun i j _ _ hij hji => ?_) hsorted hsorted'
  rcases hij with hij | ⟨hkey, hij⟩ <;> rcases hji with hji | ⟨hkey', hji⟩ <;> omega

theorem Refinable.length_ranking (h : Refinable points c) : h.ranking.length = points.rows := by
  rw [h.ranking_perm.length_eq, List.length_finRange]

/-- The order in which points are taken is their ranking. -/
theorem Refinable.farthestFirst_eq (h : Refinable points c) (hw : points.cols ≠ 0) :
    farthestFirst points c.assignments c.centroids = h.ranking := by
  have hzip : points.indexedRows.zip c.assignments.toList
      = (List.finRange points.rows).map fun i => ((i, points.rowAt i), (h.own i).val) := by
    have hlen : points.indexedRows.length = points.rows := by
      rw [Matrix.indexedRows, if_neg hw, List.length_ofFn]
    rw [zip_eq_map_finRange hlen (Array.length_toList.trans h.rows_eq.symm)]
    refine List.map_congr_left fun i _ => ?_
    simp only [Matrix.indexedRows, hw, if_false, List.get_eq_getElem, List.getElem_ofFn]
    rfl
  have hcentroid : ∀ i, c.centroids.toRows.toArray.getD (h.own i).val []
      = c.centroids.rowAt (h.own i) := fun i => by
    rw [Array.getD_eq_getD_getElem?, List.getElem?_toArray,
      Matrix.getElem?_toRows (h.cols_eq ▸ hw), Option.getD_some]
  rw [farthestFirst, hzip, List.map_map]
  simp only [Function.comp_def, hcentroid]
  rw [← List.map_mergeSort (r := fun i j => decide (rank32 (h.distance j) ≤ rank32 (h.distance i)))
    fun _ _ _ _ => rfl, List.map_map]
  exact List.map_id _

end Points

/-! ## The clusters without members -/

/-- The clusters without members, in order. -/
def empties (points : Matrix) (c : Clustering) : List (Fin c.centroids.rows) :=
  (List.finRange c.centroids.rows).filter fun k => members points c.assignments k = []

/-- A tally for each cluster that has as many points as the cluster has members. -/
structure Counts (points : Matrix) (c : Clustering) (ts : Array Tally) : Prop where
  size_eq : ts.size = c.centroids.rows
  count_eq : ∀ (k : Nat) (hk : k < ts.size),
    ts[k].count = (members points c.assignments k).length

section Reseating

variable {points : Matrix} {c : Clustering} {ts : Array Tally}

/-- The tallies that are taken of a clustering count its members. -/
theorem counts_tallies (h : Refinable points c) (hw : points.cols ≠ 0) :
    Counts points c (tallies c.centroids.rows c.centroids.cols points c.assignments) := by
  rw [← h.cols_eq, tallies_eq hw h.rows_eq]
  exact ⟨Array.size_ofFn, fun k hk => by rw [Array.getElem_ofFn]; rfl⟩

theorem length_empties_le (points : Matrix) (c : Clustering) :
    (empties points c).length ≤ c.centroids.rows :=
  (List.length_filter_le _ _).trans (Nat.le_of_eq List.length_finRange)

/-- The clusters whose tallies are empty are those without members. -/
theorem Counts.lost_eq (hts : Counts points c ts) :
    lost ts = (empties points c).map Fin.val := by
  have hzip : ts.toList.zipIdx = (List.finRange c.centroids.rows).map fun k =>
      (ts.toList.get (k.cast (Array.length_toList.trans hts.size_eq).symm), k.val) := by
    refine List.ext_getElem ?_ fun i h1 h2 => ?_
    · rw [List.length_zipIdx, List.length_map, List.length_finRange, Array.length_toList,
        hts.size_eq]
    · simp
  have hcount : ∀ k : Fin c.centroids.rows,
      (ts.toList.get (k.cast (Array.length_toList.trans hts.size_eq).symm)).count = 0
        ↔ members points c.assignments k = [] := fun k => by
    have hk : k.val < ts.size := Nat.lt_of_lt_of_eq k.isLt hts.size_eq.symm
    rw [← List.length_eq_zero_iff, ← hts.count_eq k.val hk]
    rfl
  rw [lost, hzip, List.filter_map, List.map_map, empties]
  simp only [Function.comp_def, hcount]

/-- What an association list that pairs different keys with values has for the key at place `j`. -/
theorem lookup_zip {α : Type} {ks : List Nat} {xs : List α} (hks : ks.Nodup) {j k : Nat}
    (hk : ks[j]? = some k) : (ks.zip xs).lookup k = xs[j]? := by
  induction ks generalizing xs j with
  | nil => cases hk
  | cons k' ks ih =>
    obtain ⟨hnot, hks⟩ := List.nodup_cons.1 hks
    cases xs with
    | nil => rfl
    | cons x xs =>
      rw [List.zip_cons_cons, List.lookup_cons]
      cases j with
      | zero =>
        cases hk
        simp
      | succ j =>
        have hne : (k == k') = false := by
          rw [beq_eq_false_iff_ne]
          rintro rfl
          exact hnot (List.mem_of_getElem? hk)
        rw [hne]
        exact ih hks hk

/-- A key that is not there has no value. -/
theorem lookup_zip_eq_none {α : Type} {ks : List Nat} {xs : List α} {k : Nat} (hk : k ∉ ks) :
    (ks.zip xs).lookup k = none := by
  rw [List.lookup_eq_none_iff]
  rintro ⟨k', x⟩ hp
  rw [bne_iff_ne]
  rintro rfl
  exact hk (List.of_mem_zip hp).1

/-- The rows after reseating, whatever has been counted. -/
theorem rowAt_reseat {centroids : Matrix} (hcols : points.cols = centroids.cols)
    (assignments : Array Nat) (ts : Array Tally) {k : Nat} (hk : k < centroids.rows)
    (hn : k < (reseat points assignments ts centroids).rows) :
    (reseat points assignments ts centroids).rowAt ⟨k, hn⟩ =
      match ((lost ts).zip (farthestFirst points assignments centroids)).lookup k with
      | some i => points.rowAt i
      | none => centroids.rowAt ⟨k, hk⟩ := by
  have hrow := Matrix.rowAt_stack hn
  rw [List.get_eq_getElem, List.getElem_map, List.getElem_finRange] at hrow
  refine hrow.trans ?_
  dsimp only [Fin.cast_mk]
  cases ((lost ts).zip (farthestFirst points assignments centroids)).lookup k with
  | some i => exact Matrix.fitTo_eq_self ((Matrix.length_rowAt _ _).trans hcols)
  | none => exact Matrix.fitTo_eq_self (Matrix.length_rowAt _ _)

/-! ## Who gets which point -/

/-- The centroids after the lost clusters have been put onto points. -/
structure Reseated (points : Matrix) (c : Clustering) (h : Refinable points c)
    (next : Matrix) : Prop where
  rows_eq : next.rows = c.centroids.rows
  cols_eq : next.cols = c.centroids.cols
  /-- The centroid of a cluster with members stays where it is. -/
  kept : ∀ (k : Nat) (hk : k < c.centroids.rows) (hn : k < next.rows),
    members points c.assignments k ≠ [] → next.rowAt ⟨k, hn⟩ = c.centroids.rowAt ⟨k, hk⟩
  /-- The lost clusters in order take the points in their order, one each. -/
  seated : ∃ order : List (Fin points.rows),
    order.Perm (List.finRange points.rows) ∧ order.Pairwise h.Before ∧
      ∀ (j : Nat) (k : Fin c.centroids.rows) (hn : k.val < next.rows),
        (empties points c)[j]? = some k →
          ∃ i, order[j]? = some i ∧ next.rowAt ⟨k, hn⟩ = points.rowAt i

theorem nodup_map_empties (points : Matrix) (c : Clustering) :
    ((empties points c).map Fin.val).Nodup :=
  ((List.nodup_finRange _).filter _).map Fin.val_injective

/-- A matrix without columns has nothing in its rows. -/
theorem rowAt_eq_nil {m : Matrix} (hw : m.cols = 0) (i : Fin m.rows) : m.rowAt i = [] :=
  List.eq_nil_of_length_eq_zero ((Matrix.length_rowAt m i).trans hw)

/-- **Every lost cluster gets the farthest point that is left**, and nothing else moves. -/
theorem reseated_reseat (h : Refinable points c) (hn : c.centroids.rows ≤ points.rows)
    (hts : Counts points c ts) :
    Reseated points c h (reseat points c.assignments ts c.centroids) where
  rows_eq := rows_reseat _ _ _ _
  cols_eq := cols_reseat _ _ _ _
  kept := by
    intro k hk hn' hmembers
    have hlookup : ((lost ts).zip (farthestFirst points c.assignments c.centroids)).lookup k
        = none := by
      refine lookup_zip_eq_none fun hmem => ?_
      rw [hts.lost_eq] at hmem
      obtain ⟨k', hk', rfl⟩ := List.mem_map.1 hmem
      exact hmembers (of_decide_eq_true (List.mem_filter.1 hk').2)
    rw [rowAt_reseat h.cols_eq _ _ hk, hlookup]
  seated := by
    refine ⟨h.ranking, h.ranking_perm, h.pairwise_ranking, fun j k hn' hj => ?_⟩
    -- there is a point for every lost cluster
    have hplace : j < h.ranking.length := by
      have hlt := (List.getElem?_eq_some_iff.1 hj).1
      have hle := length_empties_le points c
      rw [h.length_ranking]
      omega
    refine ⟨h.ranking[j], List.getElem?_eq_getElem hplace, ?_⟩
    by_cases hw : points.cols = 0
    · rw [rowAt_eq_nil hw, rowAt_eq_nil ((cols_reseat _ _ _ _).trans (h.cols_eq.symm.trans hw))]
    · have hkey : ((empties points c).map Fin.val)[j]? = some k.val := by
        rw [List.getElem?_map, hj, Option.map_some]
      rw [rowAt_reseat h.cols_eq _ _ k.isLt, hts.lost_eq, h.farthestFirst_eq hw,
        lookup_zip (nodup_map_empties points c) hkey, List.getElem?_eq_getElem hplace]

end Reseating

/-- The points 0, 3 and -3, all of which belong to cluster 0 with centroid 0. -/
theorem refinable_tie : Refinable (.stack 1 [[.zero], [⟨0x40400000⟩], [⟨0xc0400000⟩]])
    ⟨.stack 1 [[.zero], [.one], [.one]], #[0, 0, 0], 0.0⟩ := ⟨rfl, rfl, by decide⟩

/-- The points 3 and -3 are equally far from 0, so the earlier one is taken for cluster 1 and the
other one for cluster 2. -/
theorem reseated_reseat_tie :
    refinable_tie.ranking.map Fin.val = [1, 2, 0] ∧
      (empties (.stack 1 [[.zero], [⟨0x40400000⟩], [⟨0xc0400000⟩]])
        ⟨.stack 1 [[.zero], [.one], [.one]], #[0, 0, 0], 0.0⟩).map Fin.val = [1, 2] ∧
      Reseated _ _ refinable_tie
        (reseat (.stack 1 [[.zero], [⟨0x40400000⟩], [⟨0xc0400000⟩]]) #[0, 0, 0]
          (tallies 3 1 (.stack 1 [[.zero], [⟨0x40400000⟩], [⟨0xc0400000⟩]]) #[0, 0, 0])
          (.stack 1 [[.zero], [.one], [.one]])) := by
  have hranking : refinable_tie.ranking = [⟨1, by decide⟩, ⟨2, by decide⟩, ⟨0, by decide⟩] :=
    refinable_tie.ranking_unique refinable_tie.ranking_perm refinable_tie.pairwise_ranking
      (by decide) (by decide +kernel)
  refine ⟨?_, by decide, reseated_reseat refinable_tie (by decide)
    (counts_tallies refinable_tie (by decide))⟩
  rw [hranking]
  rfl

end Cluster
end ProductQuantization
