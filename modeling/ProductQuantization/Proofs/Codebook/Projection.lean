import ProductQuantization.Proofs.Codebook.Decoding
import ProductQuantization.Proofs.Codebook.NearestCodes

/-!
# Encoding what has been decoded

What a row of codes stands for is made of centroids, and among the centroids the nearest to one of
them is itself, or an equal one with a lower number.  So encoding is a projection: encoding a vector,
decoding its codes and encoding that again gives the same codes (`encodeVector_projection`).  Of any
other row of codes it keeps what they stand for, and it changes exactly those codes that are not the
first of their value.

That needs finite centroids, because the distance of an infinite one to itself is not a number.  And
it needs that squared distances tell centroids apart (`Separated`): the square of a small difference
can be rounded to zero.
-/

set_option autoImplicit false

namespace ProductQuantization

open ProductQuantization.Matrix (window)

/-! ## Among centroids -/

namespace Cluster

/-- No earlier centroid is equal to centroid `k`. -/
def FirstOfValues (cs : List Point) (k : Nat) : Prop :=
  ∀ (j : Nat) (x y : Point), j < k → cs[k]? = some x → cs[j]? = some y → ¬ x.SameValues y

/-- Centroids that are not equal are at a distance. -/
def Separated (cs : List Point) : Prop :=
  ∀ x ∈ cs, ∀ y ∈ cs, ¬ x.SameValues y → (squaredDistance x y).sameValue .zero = false

/-- The nearest centroid of a vector is the first of its value. -/
theorem firstOfValues_nearest (v : Point) (cs : List Point) :
    FirstOfValues cs (nearest v cs).index := by
  intro j x y hj hx hy hsame
  have hdistance : squaredDistance v x = squaredDistance v y :=
    squaredDistance_eq (Point.Agree.refl v) hsame.agree
  rcases firstMinimal_nearest v cs with ⟨⟨d, hd, hlt, hle⟩, hleast⟩ | ⟨-, hzero⟩
  · have hj' : Minimal (distances v cs) j := by
      refine ⟨d, ?_, hlt, hle⟩
      rw [distances, List.getElem?_map, hx, Option.map_some, hdistance] at hd
      rw [distances, List.getElem?_map, hy, Option.map_some, hd]
    exact Nat.not_le.2 hj (hleast hj')
  · omega

section Centroids

variable {cs : List Point} {k : Nat}

/-- The distances of a centroid are least where the centroids are equal to it. -/
theorem minimal_iff (hcs : ∀ x ∈ cs, Point.IsFinite x) (hsep : Separated cs) (hk : k < cs.length)
    {j : Nat} (hj : j < cs.length) :
    Minimal (distances cs[k] cs) j ↔ Point.SameValues cs[k] cs[j] := by
  have hfinite := hcs cs[k] (List.getElem_mem hk)
  have hnonneg : ∀ y ∈ cs, (squaredDistance cs[k] y).NonNegative := fun y hy =>
    nonNegative_squaredDistance hfinite (hcs y hy)
  have hat : ∀ {i : Nat} (hi : i < cs.length),
      (distances cs[k] cs)[i]? = some (squaredDistance cs[k] cs[i]).value := fun hi => by
    rw [distances, List.getElem?_map, List.getElem?_eq_getElem hi, Option.map_some]
  have hzero : Single.zero.value < Single.infinity.value := by decide
  constructor
  · rintro ⟨d, hd, -, hle⟩
    rw [hat hj, Option.some_inj] at hd
    subst hd
    have hself : Single.zero.value ∈ distances cs[k] cs := by
      rw [← squaredDistance_self hfinite]
      exact List.mem_of_getElem? (hat hk)
    by_contra hne
    have hpos := hsep _ (List.getElem_mem hk) _ (List.getElem_mem hj) hne
    rw [(hnonneg _ (List.getElem_mem hj)).sameValue_zero (hle _ hself hzero)] at hpos
    cases hpos
  · intro hsame
    refine ⟨Single.zero.value, ?_, hzero, fun d hd _ => ?_⟩
    · rw [hat hj, squaredDistance_of_agree hfinite hsame.agree]
    · obtain ⟨y, hy, rfl⟩ := List.mem_map.1 hd
      exact (hnonneg y hy).zero_le

/-- **The nearest centroid of a centroid is the first one that is equal to it.** -/
theorem isLeast_nearest (hcs : ∀ x ∈ cs, Point.IsFinite x) (hsep : Separated cs)
    (hk : k < cs.length) :
    IsLeast {j | ∃ hj : j < cs.length, Point.SameValues cs[k] cs[j]} (nearest cs[k] cs).index := by
  have hset : {j | Minimal (distances cs[k] cs) j}
      = {j | ∃ hj : j < cs.length, Point.SameValues cs[k] cs[j]} := by
    ext j
    constructor
    · rintro h
      obtain ⟨d, hd, -⟩ := id h
      have hj : j < cs.length := by simpa [distances] using (List.getElem?_eq_some_iff.1 hd).1
      exact ⟨hj, (minimal_iff hcs hsep hk hj).1 h⟩
    · rintro ⟨hj, h⟩
      exact (minimal_iff hcs hsep hk hj).2 h
  have hself := (minimal_iff hcs hsep hk hk).2 (hcs _ (List.getElem_mem hk)).sameValues_self
  rcases firstMinimal_nearest cs[k] cs with h | ⟨hnone, -⟩
  · rwa [hset] at h
  · exact absurd hnone hself.not_none

/-- The nearest centroid of a centroid is itself exactly if it is the first of its value. -/
theorem nearest_eq_iff (hcs : ∀ x ∈ cs, Point.IsFinite x) (hsep : Separated cs)
    (hk : k < cs.length) : (nearest cs[k] cs).index = k ↔ FirstOfValues cs k := by
  have hself : k ∈ {j | ∃ hj : j < cs.length, Point.SameValues cs[k] cs[j]} :=
    ⟨hk, (hcs _ (List.getElem_mem hk)).sameValues_self⟩
  obtain ⟨⟨hlt, hsame⟩, hleast⟩ := isLeast_nearest hcs hsep hk
  constructor
  · rintro heq j x y hj hx hy h
    obtain ⟨hj', rfl⟩ := List.getElem?_eq_some_iff.1 hy
    rw [List.getElem?_eq_getElem hk, Option.some_inj] at hx
    subst hx
    exact absurd (hleast ⟨hj', h⟩) (by omega)
  · intro hfirst
    by_contra hne
    exact hfirst _ _ _ (Nat.lt_of_le_of_ne (hleast hself) hne) (List.getElem?_eq_getElem hk)
      (List.getElem?_eq_getElem hlt) hsame

end Centroids
end Cluster

/-! ## In a codebook -/

namespace Codebook

/-- No two centroids of one subspace that are not equal have a distance of zero. -/
def Separated (c : Codebook) : Prop :=
  ∀ m j k, m < c.subspaces → j < c.size → k < c.size → ∀ x y, c.centroid? m j = some x →
    c.centroid? m k = some y → ¬ Point.SameValues x y →
      (squaredDistance x y).sameValue .zero = false

/-- No centroid of subspace `m` with a lower number is equal to centroid `k`. -/
def IsFirst (c : Codebook) (m k : Nat) : Prop :=
  ∀ j x y, j < k → c.centroid? m k = some x → c.centroid? m j = some y → ¬ Point.SameValues x y

section Projection

variable {c : Codebook} {clusterings : List Clustering}

namespace Holds

theorem separated (h : c.Holds clusterings) (hsep : c.Separated) {m : Nat}
    (hm : m < clusterings.length) : Cluster.Separated clusterings[m].centroids.toRows := by
  intro x hx y hy hne
  obtain ⟨j, hj, rfl⟩ := List.mem_iff_getElem.1 hx
  obtain ⟨k, hk, rfl⟩ := List.mem_iff_getElem.1 hy
  have hj' : j < c.size := h.length_toRows hm ▸ hj
  have hk' : k < c.size := h.length_toRows hm ▸ hk
  refine hsep m j k (h.subspaces_eq ▸ hm) hj' hk' _ _ ?_ ?_ hne
  · rw [h.centroid?_eq_getElem? hm hj', List.getElem?_eq_getElem hj]
  · rw [h.centroid?_eq_getElem? hm hk', List.getElem?_eq_getElem hk]

theorem isFirst_iff (h : c.Holds clusterings) {m : Nat} (hm : m < clusterings.length) {k : Nat}
    (hk : k < c.size) :
    c.IsFirst m k ↔ Cluster.FirstOfValues clusterings[m].centroids.toRows k := by
  refine forall_congr' fun j => forall₂_congr fun x y => forall_congr' fun hj => ?_
  rw [h.centroid?_eq_getElem? hm hk, h.centroid?_eq_getElem? hm (Nat.lt_trans hj hk)]

theorem isFinite_toRows (h : c.Holds clusterings) (hc : c.AllFinite) {m : Nat}
    (hm : m < clusterings.length) : ∀ x ∈ clusterings[m].centroids.toRows, Point.IsFinite x :=
  (h.allFinite hc (List.getElem_mem hm)).toRows

end Holds

/-! ## Encoding what a row of codes stands for -/

theorem isCodeRow_nearestCodes (h : c.Holds clusterings) (hpos : 0 < c.size)
    (hmax : c.size ≤ maxCodes) (vector : Point) :
    c.IsCodeRow (c.nearestCodes clusterings vector) := by
  refine ⟨length_nearestCodes h vector, fun code hcode => ?_⟩
  obtain ⟨m, hm, rfl⟩ := List.mem_iff_getElem.1 hcode
  have hm' : m < clusterings.length := by
    rw [← h.subspaces_eq, ← length_nearestCodes h vector]
    exact hm
  exact (h.toNat_nearestCodes hpos hmax vector hm' hm).2

/-- The codes of a vector are the first of their values. -/
theorem isFirst_nearestCodes (h : c.Holds clusterings) (hpos : 0 < c.size)
    (hmax : c.size ≤ maxCodes) (vector : Point) {m : Nat}
    (hm : m < (c.nearestCodes clusterings vector).length) :
    c.IsFirst m (c.nearestCodes clusterings vector)[m].toNat := by
  have hm' : m < clusterings.length := by
    rw [← h.subspaces_eq, ← length_nearestCodes h vector]
    exact hm
  obtain ⟨hcode, hlt⟩ := h.toNat_nearestCodes hpos hmax vector hm' hm
  rw [h.isFirst_iff hm' hlt, hcode]
  exact Cluster.firstOfValues_nearest _ _

/-- The codes of what a row of codes stands for. -/
def recode (c : Codebook) (clusterings : List Clustering) (codes : List UInt16) : List UInt16 :=
  c.nearestCodes clusterings (namedCentroids clusterings codes).flatten

section Recode

variable {codes : List UInt16}

theorem encodeVector_namedCentroids (h : c.Holds clusterings) (hcodes : c.IsCodeRow codes) :
    c.encodeVector (namedCentroids clusterings codes).flatten = .ok (c.recode clusterings codes) :=
  h.encodeVector_eq (length_flatten_namedCentroids h hcodes)

/-- A code that is encoded again becomes the first code of its value. -/
theorem recode_spec (h : c.Holds clusterings) (hpos : 0 < c.size) (hmax : c.size ≤ maxCodes)
    (hfinite : c.AllFinite) (hsep : c.Separated) (hcodes : c.IsCodeRow codes) {m : Nat}
    (hm : m < codes.length) (hm' : m < (c.recode clusterings codes).length)
    (hn : m < (namedCentroids clusterings codes).length)
    (hn' : m < (namedCentroids clusterings (c.recode clusterings codes)).length) :
    (c.recode clusterings codes)[m] ≤ codes[m] ∧
      ((c.recode clusterings codes)[m] = codes[m] ↔ c.IsFirst m codes[m].toNat) ∧
      Point.SameValues (namedCentroids clusterings codes)[m]
        (namedCentroids clusterings (c.recode clusterings codes))[m] := by
  have hnamed := hcodes.named h (hcodes.1 ▸ hm)
  have hnamed' := (isCodeRow_nearestCodes h hpos hmax
    (namedCentroids clusterings codes).flatten).named h (hcodes.1 ▸ hm)
  have hmc := hnamed.lt_clusterings
  have hk := hnamed.code_lt
  have hcs := h.isFinite_toRows hfinite hmc
  have hsep := h.separated hsep hmc
  have hcode : (c.recode clusterings codes)[m].toNat
      = (Cluster.nearest clusterings[m].centroids.toRows[codes[m].toNat]
          clusterings[m].centroids.toRows).index := by
    have hnearest := (h.toNat_nearestCodes hpos hmax
      (namedCentroids clusterings codes).flatten hmc hm').1
    rwa [window_namedCentroids h hcodes hn, hnamed.eq] at hnearest
  obtain ⟨⟨hlt, hsame⟩, hleast⟩ := Cluster.isLeast_nearest hcs hsep hk
  have heqiff := Cluster.nearest_eq_iff hcs hsep hk
  refine ⟨?_, ?_, ?_⟩
  · rw [UInt16.le_iff_toNat_le, hcode]
    exact hleast ⟨hk, (hcs _ (List.getElem_mem hk)).sameValues_self⟩
  · rw [h.isFirst_iff hmc (h.length_toRows hmc ▸ hk), ← heqiff, ← hcode, UInt16.toNat_inj]
  · have hnamed' : (namedCentroids clusterings (c.recode clusterings codes))[m]
        = clusterings[m].centroids.toRows[(c.recode clusterings codes)[m].toNat] := hnamed'.eq
    rw [hnamed.eq, hnamed']
    simp only [hcode]
    exact hsame

/-- A row of codes that is encoded again. -/
structure Recoded (c : Codebook) (codes codes' : List UInt16) : Prop where
  le : List.Forall₂ (· ≤ ·) codes' codes
  getElem_eq_iff : ∀ (m : Nat) (hm : m < codes.length) (hm' : m < codes'.length),
    codes'[m] = codes[m] ↔ c.IsFirst m codes[m].toNat
  eq_iff : codes' = codes ↔ ∀ (m : Nat) (hm : m < codes.length), c.IsFirst m codes[m].toNat

theorem recoded (h : c.Holds clusterings) (hpos : 0 < c.size) (hmax : c.size ≤ maxCodes)
    (hfinite : c.AllFinite) (hsep : c.Separated) (hcodes : c.IsCodeRow codes) :
    c.Recoded codes (c.recode clusterings codes) ∧
      Point.SameValues (namedCentroids clusterings codes).flatten
        (namedCentroids clusterings (c.recode clusterings codes)).flatten := by
  have hcodes' : c.IsCodeRow (c.recode clusterings codes) := isCodeRow_nearestCodes h hpos hmax _
  have hlen : (c.recode clusterings codes).length = codes.length := hcodes'.1.trans hcodes.1.symm
  have hnlen := length_namedCentroids h hcodes
  have hnlen' := length_namedCentroids h hcodes'
  have hiff : ∀ (m : Nat) (hm : m < codes.length) (hm' : m < (c.recode clusterings codes).length),
      (c.recode clusterings codes)[m] = codes[m] ↔ c.IsFirst m codes[m].toNat := fun m hm hm' =>
    (recode_spec h hpos hmax hfinite hsep hcodes hm hm' (by rwa [hnlen, ← hcodes.1])
      (by rwa [hnlen', ← hcodes.1])).2.1
  refine ⟨⟨?_, hiff, ?_, ?_⟩, List.rel_flatten ?_⟩
  · refine List.forall₂_iff_get.2 ⟨hlen, fun m hm' hm => ?_⟩
    exact (recode_spec h hpos hmax hfinite hsep hcodes hm hm' (by rwa [hnlen, ← hcodes.1])
      (by rwa [hnlen', ← hcodes.1])).1
  · intro heq m hm
    refine (hiff m hm (hlen ▸ hm)).1 ?_
    simp only [heq]
  · intro hall
    exact List.ext_getElem hlen fun m hm' hm => (hiff m hm hm').2 (hall m hm)
  · refine List.forall₂_iff_get.2 ⟨hnlen.trans hnlen'.symm, fun m hn hn' => ?_⟩
    have hm : m < codes.length := by rwa [hcodes.1, ← hnlen]
    exact (recode_spec h hpos hmax hfinite hsep hcodes hm (hlen ▸ hm) hn hn').2.2

end Recode

/-- **Encoding is a projection.**  With at least one centroid and not more centroids than there are
codes, finite centroids, and distances that tell them apart, what has been decoded from the codes of
a vector has these codes again.  Any other row of codes, decoded and encoded again, stands for the
same numbers as before; no code has become larger; and a code is unchanged exactly if no centroid of
its subspace with a lower number is equal to the one it names. -/
theorem encodeVector_projection (hc : c.WellFormed) (hpos : 0 < c.size) (hmax : c.size ≤ maxCodes)
    (hfinite : c.AllFinite) (hsep : c.Separated) :
    (∀ vector : Point, vector.length = c.dim → ∃ codes decoded, c.encodeVector vector = .ok codes ∧
      c.decodeVector codes = .ok decoded ∧ c.encodeVector decoded = .ok codes) ∧
    ∀ codes, c.IsCodeRow codes → ∃ decoded codes' decoded', c.decodeVector codes = .ok decoded ∧
      c.encodeVector decoded = .ok codes' ∧ c.decodeVector codes' = .ok decoded' ∧
        c.Recoded codes codes' ∧ Point.SameValues decoded decoded' := by
  obtain ⟨clusterings, h⟩ := hc.exists_holds
  have hrow := isCodeRow_nearestCodes h hpos hmax
  constructor
  · intro vector hv
    have hcodes := hrow vector
    obtain ⟨hrecoded, -⟩ := recoded h hpos hmax hfinite hsep hcodes
    have hfixed : c.recode clusterings (c.nearestCodes clusterings vector)
        = c.nearestCodes clusterings vector :=
      hrecoded.eq_iff.2 fun m hm => isFirst_nearestCodes h hpos hmax vector hm
    refine ⟨_, _, h.encodeVector_eq hv, decodeVector_eq h hcodes, ?_⟩
    rw [encodeVector_namedCentroids h hcodes, hfixed]
  · intro codes hcodes
    obtain ⟨hrecoded, hsame⟩ := recoded h hpos hmax hfinite hsep hcodes
    exact ⟨_, _, _, decodeVector_eq h hcodes, encodeVector_namedCentroids h hcodes,
      decodeVector_eq h (hrow _), hrecoded, hsame⟩

/-- Two zeros of different signs and a one: the code of the second zero becomes that of the first. -/
theorem encodeVector_projection_zeros :
    Codebook.decodeVector ⟨1, 3, 1, 1, #[.zero, .negate .zero, .one]⟩ [1]
        = .ok [.negate .zero] ∧
      Codebook.encodeVector ⟨1, 3, 1, 1, #[.zero, .negate .zero, .one]⟩ [.negate .zero]
        = .ok [0] ∧
      Codebook.Recoded ⟨1, 3, 1, 1, #[.zero, .negate .zero, .one]⟩ [1] [0] := by
  have hsep : Codebook.Separated ⟨1, 3, 1, 1, #[.zero, .negate .zero, .one]⟩ := by
    have hall : ∀ m < 1, ∀ j < 3, ∀ k < 3,
        ∀ x ∈ Codebook.centroid? ⟨1, 3, 1, 1, #[.zero, .negate .zero, .one]⟩ m j,
        ∀ y ∈ Codebook.centroid? ⟨1, 3, 1, 1, #[.zero, .negate .zero, .one]⟩ m k,
          ¬ Point.SameValues x y → (squaredDistance x y).sameValue .zero = false := by
      decide +kernel
    exact fun m j k hm hj hk x y hx hy => hall m hm j hj k hk x hx y hy
  have hfinite : Codebook.AllFinite ⟨1, 3, 1, 1, #[.zero, .negate .zero, .one]⟩ := by
    intro x hx
    simp only [List.mem_cons, List.not_mem_nil, or_false] at hx
    rcases hx with rfl | rfl | rfl <;> rfl
  obtain ⟨decoded, codes, -, hdecoded, hcodes, -, hrecoded, -⟩ :=
    (encodeVector_projection (c := ⟨1, 3, 1, 1, #[.zero, .negate .zero, .one]⟩)
      ⟨by decide, by decide, rfl, rfl⟩ (by decide) (by decide) hfinite hsep).2 [1]
      ⟨rfl, by simp⟩
  have hdecoded' : Codebook.decodeVector ⟨1, 3, 1, 1, #[.zero, .negate .zero, .one]⟩ [1]
      = .ok [.negate .zero] := by decide +kernel
  have hcodes' : Codebook.encodeVector ⟨1, 3, 1, 1, #[.zero, .negate .zero, .one]⟩
      [.negate .zero] = .ok [0] := by decide +kernel
  cases hdecoded'.symm.trans hdecoded
  cases hcodes'.symm.trans hcodes
  exact ⟨hdecoded', hcodes', hrecoded⟩

end Projection
end Codebook
end ProductQuantization
