import ProductQuantization.Cluster.Lloyd
import ProductQuantization.Cluster.Refine
import ProductQuantization.Proofs.Matrix.Rows
import ProductQuantization.Proofs.Options

/-!
# Assignments belong to the final centroids

A clustering is *settled* on some points if its assignments and its inertia are the ones that its
centroids determine.  A run of k-means moves centroids and assigns points in turn, and it may stop
for several reasons, at each of which one could have been changed without the other.  It never is:
whatever the number of iterations, the tolerance and the clusters that were lost on the way,
`settled_run` says that a run ends settled, and `settled_cluster` that the best of several runs does.

On the way the shape of the centroids is kept, so that a clustering into `k` groups has `k`
centroids as wide as the points (`Clustering.Grouping`).
-/

set_option autoImplicit false

namespace ProductQuantization

/-! ## Nearest centroids -/

namespace Cluster

/-- The search moves to a centroid it has looked at, or stays where it was. -/
theorem nearestFrom_index (p : Point) (cs : List Point) (i : Nat) (best : Nearest) :
    (nearestFrom p cs i best).index = best.index ∨
      i ≤ (nearestFrom p cs i best).index ∧ (nearestFrom p cs i best).index < i + cs.length := by
  induction cs generalizing i best with
  | nil => exact .inl rfl
  | cons c cs ih =>
    rw [nearestFrom, List.length_cons]
    rcases ih (i + 1) (if (squaredDistance p c).value < best.distance then
        ⟨i, (squaredDistance p c).value⟩ else best) with h | h
    · rw [h]
      split
      · exact .inr ⟨Nat.le_refl i, by show i < _; omega⟩
      · exact .inl rfl
    · exact .inr ⟨by omega, by omega⟩

theorem nearest_index_lt (p : Point) {cs : List Point} (h : cs ≠ []) :
    (nearest p cs).index < cs.length := by
  have hpos : 0 < cs.length := List.length_pos_iff.2 h
  rcases nearestFrom_index p cs 0 Nearest.start with h0 | h0
  · rw [nearest, h0]
    exact hpos
  · rw [nearest]
    omega

/-! ## Settled clusterings -/

@[simp] theorem centroids_settle (points centroids : Matrix) :
    (settle points centroids).centroids = centroids := rfl

end Cluster

namespace Clustering

/-- The assignments and the inertia are the ones that the centroids determine. -/
def Settled (points : Matrix) (c : Clustering) : Prop := c = Cluster.settle points c.centroids

/-- There are `k` centroids, and each of them is as wide as the points. -/
structure Grouping (points : Matrix) (k : Nat) (c : Clustering) : Prop where
  rows_eq : c.centroids.rows = k
  cols_eq : c.centroids.cols = points.cols

theorem settled_settle (points centroids : Matrix) :
    (Cluster.settle points centroids).Settled points := rfl

/-- The assignments of a settled clustering, point by point. -/
theorem Settled.assignments_eq {points : Matrix} {c : Clustering} (h : c.Settled points) :
    c.assignments.toList
      = points.toRows.map fun p => (Cluster.nearest p c.centroids.toRows).index := by
  have ha : c.assignments = (Cluster.settle points c.centroids).assignments :=
    congrArg assignments h
  rw [ha, Cluster.settle, Cluster.assign, List.map_map]
  rfl

/-- There are as many assignments as points, unless there are points without components. -/
theorem Settled.size_assignments_of_full {points : Matrix} {c : Clustering} (h : c.Settled points)
    (hfull : points.cols ≠ 0 ∨ points.rows = 0) : c.assignments.size = points.rows := by
  rw [← Array.length_toList, h.assignments_eq, List.length_map, Matrix.toRows_eq_map hfull,
    List.length_map, List.length_finRange]

theorem Settled.size_assignments {points : Matrix} {c : Clustering} (h : c.Settled points)
    (hc : points.cols ≠ 0) : c.assignments.size = points.rows :=
  h.size_assignments_of_full (.inl hc)

/-- The assignment of one point. -/
theorem Settled.getD_assignments {points : Matrix} {c : Clustering} (h : c.Settled points) {i : Nat}
    (hi : i < points.toRows.length) :
    c.assignments.getD i 0 = (Cluster.nearest points.toRows[i] c.centroids.toRows).index := by
  rw [Array.getD_eq_getD_getElem?, ← Array.getElem?_toList, h.assignments_eq, List.getElem?_map,
    List.getElem?_eq_getElem hi]
  rfl

/-- The assignment of a point in a settled clustering. -/
theorem Settled.getElem?_assignments {points : Matrix} {c : Clustering} (h : c.Settled points)
    (hw : points.cols ≠ 0) (i : Fin points.rows) : c.assignments[i.val]?
      = some (Cluster.nearest (points.rowAt i) c.centroids.toRows).index := by
  rw [← Array.getElem?_toList, h.assignments_eq, Matrix.toRows_eq hw]
  simp

theorem Settled.inertia_eq {points : Matrix} {c : Clustering} (h : c.Settled points)
    (hw : points.cols ≠ 0) :
    c.inertia = sumInOrder (List.ofFn fun i =>
      widen (Cluster.nearest (points.rowAt i) c.centroids.toRows).distance) := by
  have hinertia : c.inertia = (Cluster.settle points c.centroids).inertia := congrArg inertia h
  simp only [hinertia, Cluster.settle, Cluster.assign, Cluster.inertia, Matrix.toRows_eq hw,
    List.map_ofFn]
  rfl

/-- A settled clustering with centroids assigns every point to one of them. -/
theorem Settled.assignments_lt {points : Matrix} {c : Clustering} (h : c.Settled points)
    (hk : 0 < c.centroids.rows) (hc : c.centroids.cols ≠ 0) :
    ∀ a ∈ c.assignments, a < c.centroids.rows := by
  intro a ha
  rw [← Array.mem_toList_iff, h.assignments_eq] at ha
  obtain ⟨p, -, rfl⟩ := List.mem_map.1 ha
  have hlen := Matrix.length_toRows hc
  have hne : c.centroids.toRows ≠ [] := fun h0 => by rw [h0, List.length_nil] at hlen; omega
  exact hlen ▸ Cluster.nearest_index_lt p hne

end Clustering

/-! ## A run -/

namespace Cluster

open Clustering

theorem rows_means (ts : Array Tally) (centroids : Matrix) :
    (means ts centroids).rows = centroids.rows := by
  rw [means, Matrix.rows_stack, List.length_map, List.length_finRange]

theorem cols_means (ts : Array Tally) (centroids : Matrix) :
    (means ts centroids).cols = centroids.cols := rfl

theorem rows_reseat (points : Matrix) (assignments : Array Nat) (ts : Array Tally)
    (centroids : Matrix) : (reseat points assignments ts centroids).rows = centroids.rows := by
  rw [reseat, Matrix.rows_stack, List.length_map, List.length_finRange]

theorem cols_reseat (points : Matrix) (assignments : Array Nat) (ts : Array Tally)
    (centroids : Matrix) : (reseat points assignments ts centroids).cols = centroids.cols := rfl

/-- Moving the centroids keeps their number and their width, lost clusters or not. -/
theorem grouping_advance {points : Matrix} {k : Nat} {c : Clustering} (h : c.Grouping points k) :
    (settle points (advance points c)).Grouping points k := by
  refine ⟨?_, ?_⟩
  · rw [centroids_settle, advance]
    split
    · rw [rows_reseat, rows_means, h.rows_eq]
    · rw [rows_means, h.rows_eq]
  · rw [centroids_settle, advance]
    split
    · rw [cols_reseat, cols_means, h.cols_eq]
    · rw [cols_means, h.cols_eq]

/-- **Iterating keeps a clustering settled.**  Each way out of the loop is right behind an
assignment of the points to the centroids that are returned. -/
theorem settled_iterate {points : Matrix} {k : Nat} (tolerance : Float) (n : Nat) {c : Clustering}
    (hs : c.Settled points) (hg : c.Grouping points k) :
    (iterate points tolerance n c).Settled points ∧
      (iterate points tolerance n c).Grouping points k := by
  induction n generalizing c with
  | zero => exact ⟨hs, hg⟩
  | succ n ih =>
    rw [iterate]
    split
    · exact ⟨settled_settle _ _, grouping_advance hg⟩
    · exact ih (settled_settle _ _) (grouping_advance hg)

end Cluster

section Runs

variable {σ : Type} [RandomSource σ]

theorem Seeding.length_drawSeeds (points : Matrix) (hn : 0 < points.rows) (count : Nat)
    (chosen : List (Fin points.rows)) (ds : Seeding.Distances points.rows) (s : σ) :
    (Seeding.drawSeeds points hn count chosen ds s).1.length = chosen.length + count := by
  induction count generalizing chosen ds s with
  | zero => rw [Seeding.drawSeeds, List.length_reverse, Nat.add_zero]
  | succ count ih => rw [Seeding.drawSeeds, ih, List.length_cons, Nat.add_assoc, Nat.add_comm 1]

theorem Seeding.length_seeds (points : Matrix) (hn : 0 < points.rows) {k : Nat} (hk : k ≠ 0)
    (s : σ) : (Seeding.seeds points hn k s).1.length = k := by
  rw [Seeding.seeds, Seeding.length_drawSeeds, List.length_singleton]
  omega

namespace Cluster

open Clustering

/-- **A run ends settled.** -/
theorem settled_run (points : Matrix) (hn : 0 < points.rows) {k : Nat} (hk : k ≠ 0)
    (options : KMeansOptions) (s : σ) :
    (run points hn k options s).1.Settled points ∧
      (run points hn k options s).1.Grouping points k := by
  rw [run]
  refine settled_iterate _ _ (settled_settle _ _) ⟨?_, rfl⟩
  rw [centroids_settle, Matrix.selectRows, Matrix.rows_stack, List.length_map,
    Seeding.length_seeds points hn hk]

theorem bestOf_succ (points : Matrix) (hn : 0 < points.rows) (k : Nat) (options : KMeansOptions)
    (n : Nat) (best : Option Clustering) (s : σ) :
    bestOf points hn k options (n + 1) best s
      = bestOf points hn k options n (some (better best (run points hn k options s).1))
          (run points hn k options s).2 := by
  rw [bestOf]

/-- The better one has what both have. -/
theorem better_induction {P : Clustering → Prop} {best : Option Clustering} {c : Clustering}
    (hbest : ∀ b, best = some b → P b) (hc : P c) : P (better best c) := by
  cases best with
  | none => exact hc
  | some b =>
    rw [better]
    split
    · exact hc
    · exact hbest b rfl

/-- What every run and the best clustering so far have in common, the best of all has. -/
theorem bestOf_induction {points : Matrix} {hn : 0 < points.rows} {k : Nat}
    {options : KMeansOptions} {P : Clustering → Prop}
    (hrun : ∀ s : σ, P (run points hn k options s).1) (n : Nat) {best : Option Clustering}
    (hbest : ∀ b, best = some b → P b) (s : σ) {c : Clustering}
    (h : (bestOf points hn k options n best s).1 = some c) : P c := by
  induction n generalizing best s with
  | zero => exact hbest c h
  | succ n ih =>
    rw [bestOf_succ] at h
    refine ih (fun b hb => ?_) _ h
    cases hb
    exact better_induction hbest (hrun s)

/-- There is a best one if there is a run. -/
theorem isSome_bestOf {points : Matrix} {hn : 0 < points.rows} {k : Nat} {options : KMeansOptions}
    (n : Nat) (best : Option Clustering) (s : σ) (h : n ≠ 0 ∨ best.isSome) :
    (bestOf points hn k options n best s).1.isSome := by
  induction n generalizing best s with
  | zero => exact h.resolve_left (fun h0 => h0 rfl)
  | succ n ih =>
    rw [bestOf_succ]
    exact ih _ _ (.inr rfl)

/-- **The best of several runs is settled**, and it is a grouping into as many clusters as were
asked for. -/
theorem settled_cluster {points : Matrix} {k : Nat} {options : KMeansOptions} {s : σ}
    {c : Clustering} (h : (cluster points k options s).1 = .ok c) :
    c.Settled points ∧ c.Grouping points k := by
  rw [cluster] at h
  split at h
  · cases h
  · rename_i hk
    split at h
    · cases h
    · split at h
      · cases h
      · split at h
        · rename_i s' heq
          cases h
          exact bestOf_induction (P := fun c => c.Settled points ∧ c.Grouping points k)
            (fun s => settled_run points _ hk options s) _ (fun b hb => by cases hb) s
            (congrArg Prod.fst heq)
        · cases h

/-- Clustering succeeds if there are enough points and the options make sense. -/
theorem exists_cluster {points : Matrix} {k : Nat} {options : KMeansOptions} (s : σ) (hk : k ≠ 0)
    (hn : k ≤ points.rows) (ho : options.check = .ok ()) :
    ∃ c, (cluster points k options s).1 = .ok c := by
  have hr : options.restarts ≠ 0 := KMeansOptions.restarts_ne_zero ho
  have hpos : 0 < points.rows := by omega
  have hsome : (bestOf points hpos k options options.restarts none s).1.isSome :=
    isSome_bestOf options.restarts none s (.inl hr)
  obtain ⟨c, hc⟩ := Option.isSome_iff_exists.1 hsome
  refine ⟨c, ?_⟩
  rw [cluster, dif_neg hk, dif_neg (by omega)]
  simp only [ho]
  split
  · rename_i heq
    rw [heq] at hc
    cases hc
    rfl
  · rename_i heq
    rw [heq] at hc
    cases hc

end Cluster

end Runs

/-! ## A warm pass -/

namespace Cluster

open Clustering

/-- **A warm pass ends settled** and keeps the grouping. -/
theorem settled_refine {points : Matrix} {k : Nat} {c next : Clustering} {report : RefineReport}
    (h : refine points c = .ok (report, next)) (hk : c.centroids.rows = k) :
    next.Settled points ∧ next.Grouping points k := by
  obtain ⟨u, hu, h⟩ := bind_eq_ok.1 h
  obtain ⟨v, hv, -⟩ := bind_eq_ok.1 hu
  have hcols : points.cols = c.centroids.cols := by simpa using hv
  cases h
  refine ⟨settled_settle _ _, ?_, ?_⟩
  · rw [centroids_settle, rows_means, hk]
  · rw [centroids_settle, cols_means, hcols]

theorem stray?_eq_none {c : Clustering} :
    stray? c = none ↔ ∀ a ∈ c.assignments, a < c.size := by
  have hfind := @find?_zipIdx_eq_none _ (fun a => decide (c.size ≤ a)) c.assignments.toList
  simp only [decide_eq_false_iff_not, Nat.not_le, Array.mem_toList_iff] at hfind
  exact hfind

/-- A warm pass is made if the points, the centroids and the assignments go together. -/
theorem exists_refine {points : Matrix} {c : Clustering} (hcols : points.cols = c.centroids.cols)
    (hrows : points.rows = c.assignments.size)
    (ha : ∀ a ∈ c.assignments, a < c.centroids.rows) :
    ∃ report next, refine points c = .ok (report, next) := by
  have hcheck : checkRefinable points c = .ok () := by
    rw [checkRefinable, stray?_eq_none.2 ha]
    simp [hcols, hrows]
  rw [refine, hcheck]
  exact ⟨_, _, rfl⟩

end Cluster

end ProductQuantization
