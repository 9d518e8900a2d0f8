import ProductQuantization.Cluster.Basic
import ProductQuantization.Proofs.Number.Ordinal

/-!
# The nearest centroid is the first one at the least distance

The search for the nearest centroid keeps the best one so far and moves on only to a smaller
distance, starting from an infinite one.  Comparisons fail where one of the two is not a number, so
it has to be said what it finds: among the distances that are numbers below infinity the least one,
and where that occurs several times, the first of its places.  Where there are no such distances the
search stays with centroid `0` (`firstMinimal_nearest`).

`Best` is what the search knows after some of the distances: `Best.step` is one more distance, and
`best_nearestFrom` is all that are left.
-/

set_option autoImplicit false

namespace ProductQuantization
namespace Cluster

/-! ## Least distances -/

/-- Place `k` holds a number below infinity, and no such number in the list is smaller. -/
def Minimal (ds : List Float32) (k : Nat) : Prop :=
  ∃ d, ds[k]? = some d ∧ d < Single.infinity.value ∧
    ∀ d' ∈ ds, d' < Single.infinity.value → d ≤ d'

/-- The first place that holds a least distance, or `0` if no distance is a number below
infinity. -/
def FirstMinimal (ds : List Float32) (k : Nat) : Prop :=
  IsLeast {j | Minimal ds j} k ∨ (∀ d ∈ ds, ¬ d < Single.infinity.value) ∧ k = 0

theorem Minimal.not_none {ds : List Float32} {k : Nat} (h : Minimal ds k) :
    ¬ ∀ d ∈ ds, ¬ d < Single.infinity.value := by
  obtain ⟨d, hd, hlt, -⟩ := h
  exact fun hnone => hnone d (List.mem_of_getElem? hd) hlt

/-- There is only one such place. -/
theorem FirstMinimal.unique {ds : List Float32} {j k : Nat} (hj : FirstMinimal ds j)
    (hk : FirstMinimal ds k) : j = k := by
  rcases hj with hj | ⟨hnone, rfl⟩
  · rcases hk with hk | ⟨hnone, rfl⟩
    · exact hj.unique hk
    · exact absurd hnone hj.1.not_none
  · rcases hk with hk | ⟨-, rfl⟩
    · exact absurd hnone hk.1.not_none
    · rfl

theorem FirstMinimal.lt_length {ds : List Float32} {k : Nat} (h : FirstMinimal ds k)
    (hds : 0 < ds.length) : k < ds.length := by
  rcases h with ⟨⟨d, hd, -⟩, -⟩ | ⟨-, rfl⟩
  · exact (List.getElem?_eq_some_iff.1 hd).1
  · exact hds

/-- Among numbers the distance that is chosen is not above any other. -/
theorem FirstMinimal.le {ds : List Float32} {k : Nat} (h : FirstMinimal ds k)
    (hds : ∀ d ∈ ds, d.isNaN = false) {d d' : Float32} (hd : ds[k]? = some d) (hd' : d' ∈ ds) :
    d ≤ d' := by
  have hnan := hds d (List.mem_of_getElem? hd)
  by_cases hfinite : d' < Single.infinity.value
  · rcases h with ⟨⟨e, he, -, hle⟩, -⟩ | ⟨hnone, -⟩
    · rw [hd, Option.some_inj] at he
      subst he
      exact hle d' hd' hfinite
    · exact absurd hfinite (hnone d' hd')
  · refine le_of_not_lt32 hnan (hds d' hd') fun hlt => ?_
    exact hfinite (lt_of_lt_of_le32 hlt (le_infinity32 hnan))

/-! ## The search -/

/-- The best of the distances looked at so far: none yet, or the first of the least. -/
inductive Best (ds : List Float32) : Nearest → Prop where
  | start (h : ∀ d ∈ ds, ¬ d < Single.infinity.value) : Best ds .start
  | found {k : Nat} {d : Float32} (hd : ds[k]? = some d) (hfinite : d < Single.infinity.value)
      (hle : ∀ d' ∈ ds, d' < Single.infinity.value → d ≤ d')
      (hfirst : ∀ (j : Nat) (d' : Float32), j < k → ds[j]? = some d' → ¬ d' ≤ d) : Best ds ⟨k, d⟩

namespace Best

variable {ds : List Float32} {best : Nearest}

theorem distance_le_infinity (h : Best ds best) : best.distance ≤ Single.infinity.value := by
  cases h with
  | start hnone => exact le_infinity32 rfl
  | found hd hfinite hle hfirst => exact le_of_lt32 hfinite

theorem distance_le (h : Best ds best) :
    ∀ d ∈ ds, d < Single.infinity.value → best.distance ≤ d := by
  cases h with
  | start hnone => exact fun d hd hfinite => absurd hfinite (hnone d hd)
  | found hd hfinite hle hfirst => exact hle

/-- A smaller distance is the only least one. -/
theorem better (h : Best ds best) {d : Float32} (hd : d < best.distance) :
    Best (ds ++ [d]) ⟨ds.length, d⟩ := by
  have hfinite : d < Single.infinity.value := lt_of_lt_of_le32 hd h.distance_le_infinity
  refine .found (by simp) hfinite ?_ ?_
  · rw [List.forall_mem_append, List.forall_mem_singleton]
    exact ⟨fun d' hd' hfinite' => le_of_lt32 (lt_of_lt_of_le32 hd (h.distance_le d' hd' hfinite')),
      fun _ => le_refl32 (isNaN_of_lt32 hfinite)⟩
  · intro j d' hj hd' hle
    rw [List.getElem?_append_left hj] at hd'
    have hmem := List.mem_of_getElem? hd'
    exact not_lt_of_le32 (h.distance_le d' hmem (lt_of_le_of_lt32 hle hfinite))
      (lt_of_le_of_lt32 hle hd)

/-- Any other distance changes nothing. -/
theorem keep (h : Best ds best) {d : Float32} (hd : ¬ d < best.distance) :
    Best (ds ++ [d]) best := by
  cases h with
  | start hnone =>
    refine .start ?_
    rw [List.forall_mem_append, List.forall_mem_singleton]
    exact ⟨hnone, hd⟩
  | @found k b hb hfinite hle hfirst =>
    obtain ⟨hk, -⟩ := List.getElem?_eq_some_iff.1 hb
    refine .found (by rwa [List.getElem?_append_left hk]) hfinite ?_ ?_
    · rw [List.forall_mem_append, List.forall_mem_singleton]
      exact ⟨hle, fun hfinite' =>
        le_of_not_lt32 (isNaN_of_lt32 hfinite) (isNaN_of_lt32 hfinite') hd⟩
    · intro j d' hj hd'
      rw [List.getElem?_append_left (Nat.lt_trans hj hk)] at hd'
      exact hfirst j d' hj hd'

/-- One more distance. -/
theorem step (h : Best ds best) (d : Float32) :
    Best (ds ++ [d]) (if d < best.distance then ⟨ds.length, d⟩ else best) := by
  by_cases hd : d < best.distance
  · rw [if_pos hd]
    exact h.better hd
  · rw [if_neg hd]
    exact h.keep hd

theorem firstMinimal (h : Best ds best) : FirstMinimal ds best.index := by
  cases h with
  | start hnone => exact .inr ⟨hnone, rfl⟩
  | @found k d hd hfinite hle hfirst =>
    refine .inl ⟨⟨d, hd, hfinite, hle⟩, ?_⟩
    rintro j ⟨d', hd', hfinite', hle'⟩
    by_contra hj
    exact hfirst j d' (Nat.not_le.1 hj) hd' (hle' d (List.mem_of_getElem? hd) hfinite)

end Best

/-- The distances of a point to some centroids. -/
def distances (p : Point) (centroids : List Point) : List Float32 :=
  centroids.map fun c => (squaredDistance p c).value

/-- The distances that are left. -/
theorem best_nearestFrom (p : Point) {seen : List Float32} {best : Nearest} (h : Best seen best)
    (cs : List Point) :
    Best (seen ++ distances p cs) (nearestFrom p cs seen.length best) := by
  induction cs generalizing seen best with
  | nil => simpa [distances, nearestFrom] using h
  | cons c cs ih =>
    have hstep := ih (h.step (squaredDistance p c).value)
    rw [List.length_append, List.length_singleton, List.append_assoc] at hstep
    exact hstep

theorem best_nearest (p : Point) (cs : List Point) : Best (distances p cs) (nearest p cs) :=
  best_nearestFrom p (.start fun _ h => absurd h List.not_mem_nil) cs

/-- **The nearest centroid is the first one at the least distance** that is a number below infinity,
or centroid `0` if there is none. -/
theorem firstMinimal_nearest (p : Point) (cs : List Point) :
    FirstMinimal (distances p cs) (nearest p cs).index := (best_nearest p cs).firstMinimal

end Cluster
end ProductQuantization
