import ProductQuantization.Proofs.Cluster.Settled
import ProductQuantization.Proofs.Number.FiniteMean

/-!
# Centroids of finite points are numbers

If all points are finite, no component of a centroid is ever not a number, in any run of k-means.  A
centroid starts as a point.  A mean is a sum of finite components over a positive count; a lost
cluster is put onto a point; and otherwise a centroid stays where it is.

What holds of every entry of a matrix, `Matrix.All`, is passed on to rows, blocks of columns and
stacks of rows; what is proved of points and centroids here is proved of all entries.
-/

set_option autoImplicit false

namespace ProductQuantization

/-! ## All entries of a matrix -/

namespace Matrix

/-- Every entry has the property. -/
def All (P : Single → Prop) (m : Matrix) : Prop := ∀ x ∈ m.data.toList, P x

section All

variable {P : Single → Prop} {m : Matrix}

theorem All.rowAt (h : m.All P) (i : Fin m.rows) : ∀ x ∈ m.rowAt i, P x := by
  intro x hx
  rw [rowAt_eq_slice] at hx
  exact h x (List.mem_of_mem_drop (List.mem_of_mem_take hx))

theorem All.entry (h : m.All P) (i : Fin m.rows) (j : Fin m.cols) : P (m.entry i j) :=
  h.rowAt i _ (List.mem_ofFn.2 ⟨j, rfl⟩)

theorem All.toRows (h : m.All P) : ∀ row ∈ m.toRows, ∀ x ∈ row, P x := by
  intro row hrow
  rw [Matrix.toRows] at hrow
  split at hrow
  · cases hrow
  · obtain ⟨i, rfl⟩ := List.mem_ofFn.1 hrow
    exact h.rowAt i

theorem all_ofFn {rows cols : Nat} {f : Fin rows → Fin cols → Single} (h : ∀ i j, P (f i j)) :
    (ofFn rows cols f).All P := by
  intro x hx
  rw [ofFn, Array.toList_ofFn] at hx
  obtain ⟨k, rfl⟩ := List.mem_ofFn.1 hx
  exact h _ _

theorem All.colAt (h : m.All P) (j : Fin m.cols) : ∀ x ∈ m.colAt j, P x := by
  intro x hx
  obtain ⟨i, rfl⟩ := List.mem_ofFn.1 hx
  exact h.entry i j

theorem all_of_colAt (h : ∀ j, ∀ x ∈ m.colAt j, P x) : m.All P :=
  m.ofFn_entry ▸ all_ofFn fun i j => h j _ (List.mem_ofFn.2 ⟨i, rfl⟩)

/-- Rows are filled up with zeros. -/
theorem all_stack (hzero : P .zero) (cols : Nat) {rows : List Point}
    (h : ∀ row ∈ rows, ∀ x ∈ row, P x) : (stack cols rows).All P := by
  intro x hx
  obtain ⟨row, hrow, hx⟩ := List.mem_flatMap.1 hx
  rcases List.mem_append.1 hx with hx | hx
  · exact h row hrow x (List.mem_of_mem_take hx)
  · rw [List.eq_of_mem_replicate hx]
    exact hzero

theorem All.columnBlock (h : m.All P) {start width : Nat} {block : Matrix}
    (hb : m.columnBlock start width = .ok block) : block.All P := by
  rw [Matrix.columnBlock] at hb
  split at hb
  · cases hb
    exact all_ofFn fun i j => h.entry _ _
  · cases hb

end All

/-- No entry is infinite, and none is not a number. -/
abbrev AllFinite (m : Matrix) : Prop := m.All Single.IsFinite

/-- No entry is not a number. -/
abbrev AllNumbers (m : Matrix) : Prop := m.All (·.isNaN = false)

theorem AllFinite.allNumbers {m : Matrix} (h : m.AllFinite) : m.AllNumbers :=
  fun x hx => (h x hx).isNaN_eq

theorem allNumbers_stack (cols : Nat) {rows : List Point}
    (h : ∀ row ∈ rows, ∀ x ∈ row, x.isNaN = false) : (stack cols rows).AllNumbers :=
  all_stack (P := (·.isNaN = false)) rfl cols h

end Matrix

/-! ## Means -/

namespace Cluster

/-- Sums that are finite. -/
def Tally.IsFinite (t : Tally) : Prop := ∀ s ∈ t.sums, s.IsFinite

theorem Tally.isFinite_empty (width : Nat) : (Tally.empty width).IsFinite := by
  intro s hs
  rw [List.eq_of_mem_replicate hs]
  exact Double.isFinite_zero

theorem Tally.IsFinite.add {t : Tally} (ht : t.IsFinite) {p : Point} (hp : ∀ x ∈ p, x.IsFinite) :
    (Tally.add p t).IsFinite := by
  intro s hs
  obtain ⟨i, hi, rfl⟩ := List.mem_iff_getElem.1 hs
  simp only [Tally.add, List.getElem_zipWith]
  exact Double.IsFinite.ofSingle_add (hp _ (List.getElem_mem _)) (ht _ (List.getElem_mem _))

theorem Tally.IsFinite.mean {t : Tally} (ht : t.IsFinite) (hn : t.count ≠ 0) :
    ∀ x ∈ t.mean, x.isNaN = false := by
  intro x hx
  obtain ⟨s, hs, rfl⟩ := List.mem_map.1 hx
  exact (ht s hs).isNaN_mean (Nat.pos_of_ne_zero hn)

theorem forall_mem_modify {α : Type} {P : α → Prop} {f : α → α} (hf : ∀ a, P a → P (f a))
    {xs : List α} (h : ∀ a ∈ xs, P a) (i : Nat) : ∀ a ∈ xs.modify i f, P a := by
  induction xs generalizing i with
  | nil => cases i <;> exact h
  | cons x xs ih =>
    obtain ⟨hx, hxs⟩ := List.forall_mem_cons.1 h
    cases i with
    | zero => exact List.forall_mem_cons.2 ⟨hf x hx, hxs⟩
    | succ i => exact List.forall_mem_cons.2 ⟨hx, ih hxs i⟩

section Points

variable {points centroids : Matrix}

theorem isFinite_tallies (hp : points.AllFinite) (k width : Nat)
    (assignments : Array Nat) :
    ∀ t ∈ (tallies k width points assignments).toList, t.IsFinite := by
  rw [tallies]
  refine List.foldlRecOn (motive := fun ts : Array Tally => ∀ t ∈ ts.toList, t.IsFinite) _ _ ?_ ?_
  · intro t ht
    rw [Array.toList_ofFn] at ht
    obtain ⟨c, rfl⟩ := List.mem_ofFn.1 ht
    exact Tally.isFinite_empty width
  · rintro ts hts ⟨p, c⟩ hmem
    have hrow := hp.toRows p (List.of_mem_zip hmem).1
    rw [Array.toList_modify]
    exact forall_mem_modify (fun t ht => ht.add hrow) hts c

/-- Means are numbers, and clusters without points keep their centroids. -/
theorem isNaN_means {ts : Array Tally} (ht : ∀ t ∈ ts.toList, t.IsFinite)
    (hc : centroids.AllNumbers) : (means ts centroids).AllNumbers := by
  refine Matrix.allNumbers_stack _ fun row hrow => ?_
  obtain ⟨c, -, rfl⟩ := List.mem_map.1 hrow
  split
  · rename_i t hget
    split
    · exact hc.rowAt c
    · rename_i hcount
      exact (ht t (Array.mem_toList_iff.2 (Array.mem_of_getElem? hget))).mean hcount
  · exact hc.rowAt c

theorem isNaN_reseat (hp : points.AllFinite) (assignments : Array Nat) (ts : Array Tally)
    (hc : centroids.AllNumbers) :
    (reseat points assignments ts centroids).AllNumbers := by
  refine Matrix.allNumbers_stack _ fun row hrow => ?_
  obtain ⟨c, -, rfl⟩ := List.mem_map.1 hrow
  split
  · exact hp.allNumbers.rowAt _
  · exact hc.rowAt c

theorem isNaN_advance (hp : points.AllFinite) {c : Clustering}
    (hc : c.centroids.AllNumbers) : (advance points c).AllNumbers := by
  have hmeans := isNaN_means (isFinite_tallies hp c.centroids.rows c.centroids.cols c.assignments) hc
  rw [advance]
  split
  · exact isNaN_reseat hp _ _ hmeans
  · exact hmeans

/-- **Iterating keeps centroids numbers.** -/
theorem isNaN_iterate (hp : points.AllFinite) (tolerance : Float) (n : Nat)
    {c : Clustering} (hc : c.centroids.AllNumbers) :
    (iterate points tolerance n c).centroids.AllNumbers := by
  induction n generalizing c with
  | zero => exact hc
  | succ n ih =>
    have hnext := isNaN_advance hp hc
    rw [iterate]
    split
    · exact hnext
    · exact ih hnext

variable {σ : Type} [RandomSource σ]

theorem isNaN_run (hp : points.AllFinite) (hn : 0 < points.rows) (k : Nat)
    (options : KMeansOptions) (s : σ) :
    (run points hn k options s).1.centroids.AllNumbers := by
  rw [run]
  refine isNaN_iterate hp _ _ (Matrix.allNumbers_stack _ fun row hrow => ?_)
  obtain ⟨i, -, rfl⟩ := List.mem_map.1 hrow
  exact hp.allNumbers.rowAt i

/-- **The centroids of finite points are numbers.** -/
theorem isNaN_cluster (hp : points.AllFinite) {k : Nat} {options : KMeansOptions} {s : σ}
    {c : Clustering} (h : (cluster points k options s).1 = .ok c) :
    c.centroids.AllNumbers := by
  rw [cluster] at h
  split at h
  · cases h
  · split at h
    · cases h
    · split at h
      · cases h
      · split at h
        · rename_i s' heq
          cases h
          exact bestOf_induction (P := fun c => c.centroids.AllNumbers)
            (fun s => isNaN_run hp _ k options s) _ (fun b hb => by cases hb) s
            (congrArg Prod.fst heq)
        · cases h

end Points

end Cluster
end ProductQuantization
