import ProductQuantization.Proofs.Cluster.NearestCentroid
import ProductQuantization.Proofs.Cluster.Numbers
import ProductQuantization.Proofs.Distance
import ProductQuantization.Proofs.Number.MonotoneSum
import ProductQuantization.Random.Listed

/-!
# The best restart wins

Clustering makes several runs and moves on to a later one only if that has less inertia.  Such a
comparison fails if one of the two is not a number, and then the choice would depend on the order of
the runs.  That never happens: a squared distance that is not a number is never the nearest, so the
inertia of a run is a sum of numbers that are not negative, whatever the points are
(`nonNegative_inertia`).

So the runs have a least inertia, and `Earliest` says which of them is returned: the first that has
it.  What is returned is `Clustering.Consistent`, as every run is: the assignments and the inertia
are those of its centroids.
-/

set_option autoImplicit false

namespace ProductQuantization

/-! ## The inertia is a number -/

namespace Cluster

/-- The distance of the nearest centroid is not negative, whatever the distances are. -/
theorem nonNegative_nearest (p : Point) (cs : List Point) :
    Unpacked.NonNegative (nearest p cs).distance.toModel.unpack := by
  have hbest := best_nearest p cs
  generalize nearest p cs = best at hbest
  cases hbest with
  | start _ => exact .infinity
  | found hd hfinite =>
    obtain ⟨c, -, rfl⟩ := List.mem_map.1 (List.mem_of_getElem? hd)
    rcases unsigned_squaredDistance p c with hnan | hpos
    · rw [Single.isNaN_eq, isNaN_of_lt32 hfinite] at hnan
      cases hnan
    · exact hpos

/-- Among numbers it is the distance of the centroid that has been found. -/
theorem getElem?_distances_nearest {p : Point} {cs : List Point} (hp : Point.IsFinite p)
    (hcs : ∀ c ∈ cs, ∀ a ∈ c, a.isNaN = false) (hne : cs ≠ []) :
    (distances p cs)[(nearest p cs).index]? = some (nearest p cs).distance := by
  have hbest := best_nearest p cs
  generalize nearest p cs = best at hbest
  cases hbest with
  | start hnone =>
    obtain ⟨c, rest, rfl⟩ := List.exists_cons_of_ne_nil hne
    have hpos := nonNegative_squaredDistance_numbers hp (hcs c List.mem_cons_self)
    have hfar : ¬ (squaredDistance p c).value < Single.infinity.value :=
      hnone _ (List.mem_map_of_mem List.mem_cons_self)
    exact congrArg some (hpos.eq_infinity hfar)
  | found hd => exact hd

/-- The inertia of a settled clustering is a number, whatever the points are. -/
theorem nonNegative_inertia (points centroids : Matrix) :
    NonNegative64 (settle points centroids).inertia := by
  refine nonNegative64_sumInOrder fun x hx => ?_
  obtain ⟨found, hfound, rfl⟩ := List.mem_map.1 hx
  obtain ⟨p, -, rfl⟩ := List.mem_map.1 hfound
  exact nonNegative64_widen (nonNegative_nearest p _)

/-! ## The runs -/

section Runs

variable {σ : Type} [RandomSource σ]

/-- So many runs, one after the other on the same source. -/
def runs (points : Matrix) (hn : 0 < points.rows) (k : Nat) (options : KMeansOptions) :
    Nat → σ → List Clustering × σ
  | 0, s => ([], s)
  | n + 1, s =>
    let (c, s) := run points hn k options s
    let (cs, s) := runs points hn k options n s
    (c :: cs, s)

variable {points : Matrix} {k : Nat} {options : KMeansOptions}

theorem runs_succ (hn : 0 < points.rows) (n : Nat) (s : σ) :
    runs points hn k options (n + 1) s
      = ((run points hn k options s).1
          :: (runs points hn k options n (run points hn k options s).2).1,
        (runs points hn k options n (run points hn k options s).2).2) := by
  rw [runs]

theorem length_runs (hn : 0 < points.rows) (n : Nat) (s : σ) :
    (runs points hn k options n s).1.length = n := by
  induction n generalizing s with
  | zero => rfl
  | succ n ih => rw [runs_succ, List.length_cons, ih]

/-- What every run ends with, all of them end with. -/
theorem forall_mem_runs {hn : 0 < points.rows} {P : Clustering → Prop}
    (h : ∀ s : σ, P (run points hn k options s).1) (n : Nat) (s : σ) :
    ∀ r ∈ (runs points hn k options n s).1, P r := by
  induction n generalizing s with
  | zero => exact fun r hr => absurd hr List.not_mem_nil
  | succ n ih =>
    rw [runs_succ]
    exact List.forall_mem_cons.2 ⟨h s, ih _⟩

/-- The best clustering is chosen among the runs, from the first to the last. -/
theorem bestOf_eq_foldl (hn : 0 < points.rows) (n : Nat) (best : Option Clustering) (s : σ) :
    bestOf points hn k options n best s
      = ((runs points hn k options n s).1.foldl (fun b c => some (better b c)) best,
        (runs points hn k options n s).2) := by
  induction n generalizing best s with
  | zero => rfl
  | succ n ih => rw [bestOf_succ, ih, runs_succ, List.foldl_cons]

end Runs

/-! ## The earliest of the best -/

/-- Clustering `j` has the least inertia of all, and every one before it has more. -/
structure Earliest (cs : List Clustering) (j : Nat) (c : Clustering) : Prop where
  getElem?_eq : cs[j]? = some c
  le : ∀ r ∈ cs, c.inertia ≤ r.inertia
  lt : ∀ i r, i < j → cs[i]? = some r → c.inertia < r.inertia

namespace Earliest

variable {cs : List Clustering} {j : Nat} {c d : Clustering}

theorem singleton (hc : c.inertia.isNaN = false) : Earliest [c] 0 c :=
  ⟨rfl, List.forall_mem_singleton.2 (le_iff_ordinal64.2 ⟨hc, hc, Int.le_refl _⟩),
    fun i _ hi => absurd hi (Nat.not_lt_zero i)⟩

/-- A clustering with less inertia is better than all. -/
theorem better (h : Earliest cs j c) (hd : d.inertia < c.inertia) :
    Earliest (cs ++ [d]) cs.length d := by
  have hlt : ∀ r ∈ cs, d.inertia < r.inertia := fun r hr => by
    have hle := le_iff_ordinal64.1 (h.le r hr)
    rw [lt_iff_ordinal64] at hd ⊢
    exact ⟨hd.1, hle.2.1, Int.lt_of_lt_of_le hd.2.2 hle.2.2⟩
  refine ⟨by simp, ?_, fun i r hi hr => ?_⟩
  · rw [List.forall_mem_append, List.forall_mem_singleton]
    refine ⟨fun r hr => ?_, ?_⟩
    · have hr := lt_iff_ordinal64.1 (hlt r hr)
      exact le_iff_ordinal64.2 ⟨hr.1, hr.2.1, Int.le_of_lt hr.2.2⟩
    · have hnan := (lt_iff_ordinal64.1 hd).1
      exact le_iff_ordinal64.2 ⟨hnan, hnan, Int.le_refl _⟩
  · rw [List.getElem?_append_left hi] at hr
    exact hlt r (List.mem_of_getElem? hr)

/-- Any other clustering comes too late. -/
theorem keep (h : Earliest cs j c) (hd : d.inertia.isNaN = false)
    (hle : ¬ d.inertia < c.inertia) : Earliest (cs ++ [d]) j c := by
  obtain ⟨hj, -⟩ := List.getElem?_eq_some_iff.1 h.getElem?_eq
  have hc := (le_iff_ordinal64.1 (h.le c (List.mem_of_getElem? h.getElem?_eq))).1
  refine ⟨by rw [List.getElem?_append_left hj, h.getElem?_eq], ?_, fun i r hi hr => ?_⟩
  · rw [List.forall_mem_append, List.forall_mem_singleton]
    refine ⟨h.le, le_iff_ordinal64.2 ⟨hc, hd, Int.not_lt.1 fun hlt => hle ?_⟩⟩
    exact lt_iff_ordinal64.2 ⟨hd, hc, hlt⟩
  · rw [List.getElem?_append_left (Nat.lt_trans hi hj)] at hr
    exact h.lt i r hi hr

theorem step (h : Earliest cs j c) (hd : d.inertia.isNaN = false) :
    ∃ j', Earliest (cs ++ [d]) j' (Cluster.better (some c) d) := by
  rw [Cluster.better]
  split
  · exact ⟨_, h.better ‹_›⟩
  · exact ⟨_, h.keep hd ‹_›⟩

end Earliest

/-- **If no inertia is missing, the choice falls on the earliest of the best.** -/
theorem exists_earliest {cs : List Clustering} (hcs : ∀ c ∈ cs, c.inertia.isNaN = false)
    (hne : cs ≠ []) :
    ∃ j c, cs.foldl (fun b c => some (better b c)) none = some c ∧ Earliest cs j c := by
  induction cs using List.reverseRecOn with
  | nil => exact absurd rfl hne
  | append_singleton cs d ih =>
    rw [List.forall_mem_append, List.forall_mem_singleton] at hcs
    rw [List.foldl_append, List.foldl_cons, List.foldl_nil]
    by_cases hnil : cs = []
    · subst hnil
      exact ⟨0, d, rfl, .singleton hcs.2⟩
    · obtain ⟨j, c, hc, hearliest⟩ := ih hcs.1 hnil
      obtain ⟨j', hstep⟩ := hearliest.step hcs.2
      exact ⟨j', _, by rw [hc], hstep⟩

end Cluster

/-! ## What is returned -/

namespace Clustering

/-- The distance of a point to the centroid that it is assigned to. -/
def ownDistance? (points : Matrix) (c : Clustering) (i : Fin points.rows) : Option Float32 := do
  let a ← c.assignments[i.val]?
  let centroid ← c.centroids.toRows[a]?
  some (squaredDistance (points.rowAt i) centroid).value

/-- A clustering of points into `k` groups whose parts belong together. -/
structure Consistent (points : Matrix) (k : Nat) (c : Clustering) : Prop where
  rows_eq : c.centroids.rows = k
  cols_eq : c.centroids.cols = points.cols
  size_eq : c.assignments.size = points.rows
  /-- Every point is assigned to its nearest centroid. -/
  nearest : ∀ i : Fin points.rows, ∃ a, c.assignments[i.val]? = some a ∧ a < k ∧
    a = (Cluster.nearest (points.rowAt i) c.centroids.toRows).index
  /-- The inertia is the sum of the nearest distances, in point order. -/
  inertia_eq : c.inertia = sumInOrder (List.ofFn fun i =>
    widen (Cluster.nearest (points.rowAt i) c.centroids.toRows).distance)
  /-- If the points are finite, these are the distances to the centroids that they are assigned
  to. -/
  own : points.AllFinite → ∃ ds, (List.finRange points.rows).mapM (c.ownDistance? points) = some ds ∧
    c.inertia = sumInOrder (ds.map widen)

section Consistency

variable {points : Matrix} {k : Nat} {c : Clustering}

/-- What belongs to finite points is as far away as the nearest centroid. -/
theorem Settled.ownDistance?_eq (h : c.Settled points) (hw : points.cols ≠ 0)
    (hne : c.centroids.toRows ≠ []) (hp : points.AllFinite) (hc : c.centroids.AllNumbers)
    (i : Fin points.rows) : c.ownDistance? points i
      = some (Cluster.nearest (points.rowAt i) c.centroids.toRows).distance := by
  have hfound := Cluster.getElem?_distances_nearest (hp.rowAt i) hc.toRows hne
  rw [Cluster.distances, List.getElem?_map, Option.map_eq_some_iff] at hfound
  obtain ⟨centroid, hcentroid, hdistance⟩ := hfound
  rw [ownDistance?, h.getElem?_assignments hw i]
  simp only [Option.bind_eq_bind, Option.bind_some, hcentroid, hdistance]

theorem Settled.consistent (h : c.Settled points) (hg : c.Grouping points k)
    (hw : points.cols ≠ 0) (hk : 0 < k) (hc : points.AllFinite → c.centroids.AllNumbers) :
    c.Consistent points k := by
  have hcols : c.centroids.cols ≠ 0 := hg.cols_eq ▸ hw
  have hlen := Matrix.length_toRows hcols
  have hne : c.centroids.toRows ≠ [] := fun h0 => by
    rw [h0, List.length_nil, hg.rows_eq] at hlen
    omega
  refine ⟨hg.rows_eq, hg.cols_eq, h.size_assignments hw, fun i => ?_, h.inertia_eq hw,
    fun hp => ?_⟩
  · refine ⟨_, h.getElem?_assignments hw i, ?_, rfl⟩
    rw [← hg.rows_eq, ← hlen]
    exact Cluster.nearest_index_lt _ hne
  · refine ⟨(List.finRange points.rows).map fun i =>
      (Cluster.nearest (points.rowAt i) c.centroids.toRows).distance, ?_, ?_⟩
    · rw [mapM_eq_some, List.forall₂_map_right_iff, List.forall₂_same]
      exact fun i _ => h.ownDistance?_eq hw hne hp (hc hp) i
    · rw [h.inertia_eq hw, List.ofFn_eq_map, List.map_map]
      rfl

end Consistency
end Clustering

namespace Cluster

variable {σ : Type} [RandomSource σ] {points : Matrix} {k : Nat} {options : KMeansOptions}

/-- **The best restart wins.**  Clustering makes as many runs as it is asked for, one after the other
on the same source.  No inertia of a run is missing, whatever the points are, and the earliest of the
runs with the least inertia is returned; its assignments and its inertia are those that its
centroids determine.

A source that had `Random.patience` words refused in a row would go on being asked for as long as it
keeps that up; here the last of these words is taken, and such a run is a run like the others. -/
theorem best_restart (s : σ) (hw : points.cols ≠ 0) (hk : 0 < k) (hn : k ≤ points.rows)
    (ho : options.check = .ok ()) :
    ∃ made s' j c,
      runs points (Nat.lt_of_lt_of_le hk hn) k options options.restarts s = (made, s') ∧
      made.length = options.restarts ∧ (∀ r ∈ made, r.inertia.isNaN = false) ∧
      cluster points k options s = (.ok c, s') ∧ Earliest made j c ∧ c.Consistent points k := by
  have hpos := Nat.lt_of_lt_of_le hk hn
  have hk0 : k ≠ 0 := Nat.pos_iff_ne_zero.1 hk
  have hlen : (runs points hpos k options options.restarts s).1.length = options.restarts :=
    length_runs hpos _ s
  have hnan : ∀ r ∈ (runs points hpos k options options.restarts s).1,
      r.inertia.isNaN = false := by
    refine forall_mem_runs (fun s => ?_) _ s
    rw [(settled_run points hpos hk0 options s).1]
    exact (nonNegative_inertia points _).isNaN_eq
  have hne : (runs points hpos k options options.restarts s).1 ≠ [] := fun h => by
    rw [h, List.length_nil] at hlen
    exact KMeansOptions.restarts_ne_zero ho hlen.symm
  obtain ⟨j, c, hc, hearliest⟩ := exists_earliest hnan hne
  have hcluster : cluster points k options s
      = (.ok c, (runs points hpos k options options.restarts s).2) := by
    rw [cluster, dif_neg hk0, dif_neg (Nat.not_lt.2 hn), ho]
    simp only [bestOf_eq_foldl, hc]
  obtain ⟨hs, hg⟩ := settled_cluster (congrArg Prod.fst hcluster)
  exact ⟨_, _, j, c, rfl, hlen, hnan, hcluster, hearliest,
    hs.consistent hg hw hk fun hp => isNaN_cluster hp (congrArg Prod.fst hcluster)⟩

/-- Of three runs on 0, 1 and 10, with one move of the centroids each, the first starts from 0 and 1
and ends with more inertia than the other two, which start from 0 and 10: the second is returned. -/
theorem best_restart_line : ∃ made s' c,
    runs (.stack 1 [[.zero], [.one], [⟨0x41200000⟩]]) (by decide) 2 ⟨3, 1, 0.0⟩ 3
      (ListedSource.ofList [3, 3, 3, 0xf000000000000000]) = (made, s') ∧
    cluster (.stack 1 [[.zero], [.one], [⟨0x41200000⟩]]) 2 ⟨3, 1, 0.0⟩
      (ListedSource.ofList [3, 3, 3, 0xf000000000000000]) = (.ok c, s') ∧
    Earliest made 1 c ∧ c.inertia = 0.5 ∧ c.assignments = #[0, 0, 1] := by
  have ho : KMeansOptions.check ⟨3, 1, 0.0⟩ = .ok () := by decide +kernel
  have hends : (runs (.stack 1 [[.zero], [.one], [⟨0x41200000⟩]]) (by decide) 2 ⟨3, 1, 0.0⟩ 3
      (ListedSource.ofList [3, 3, 3, 0xf000000000000000])).1.map
        (fun r => (r.inertia, r.assignments))
      = [(21.25, #[0, 0, 1]), (0.5, #[0, 0, 1]), (0.5, #[0, 0, 1])] := by decide +kernel
  obtain ⟨made, s', j, c, hmade, -, -, hc, hj, -⟩ :=
    best_restart (ListedSource.ofList [3, 3, 3, 0xf000000000000000])
      (by decide : (Matrix.stack 1 [[.zero], [.one], [⟨0x41200000⟩]]).cols ≠ 0)
      (by decide : 0 < 2) (by decide) ho
  rw [hmade] at hends
  simp only [List.map_eq_cons_iff, List.map_eq_nil_iff, Prod.mk.injEq] at hends
  obtain ⟨r₀, -, rfl, ⟨h₀, -⟩, r₁, -, rfl, ⟨h₁, ha⟩, r₂, -, rfl, ⟨h₂, -⟩, rfl⟩ := hends
  have hnot : ¬ (21.25 : Float) ≤ 0.5 ∧ ¬ (0.5 : Float) < 0.5 := by decide +kernel
  match j, hj with
  | 0, hj =>
    obtain rfl : r₀ = c := Option.some_inj.1 hj.getElem?_eq
    have hle := hj.le r₁ (by simp)
    rw [h₀, h₁] at hle
    exact absurd hle hnot.1
  | 1, hj =>
    obtain rfl : r₁ = c := Option.some_inj.1 hj.getElem?_eq
    exact ⟨_, s', r₁, hmade, hc, hj, h₁, ha⟩
  | 2, hj =>
    obtain rfl : r₂ = c := Option.some_inj.1 hj.getElem?_eq
    have hlt := hj.lt 1 r₁ (by decide) rfl
    rw [h₁, h₂] at hlt
    exact absurd hlt hnot.2
  | j + 3, hj => cases hj.getElem?_eq

end Cluster

end ProductQuantization
