import ProductQuantization.Proofs.Cluster.NearestCentroid
import ProductQuantization.Proofs.Codebook.FiniteData
import ProductQuantization.Proofs.Codebook.TrainingCodes
import ProductQuantization.Proofs.Distance
import ProductQuantization.Proofs.Number.MonotoneSum

/-!
# Encoding finds the nearest centroids

A codebook whose fields fit together holds one clustering for each subspace
(`WellFormed.exists_holds`), wherever it comes from.  So everything that has been said about
codebooks of clusterings holds of it, and encoding with it can be described: the code in a subspace
is the number of the first centroid at the least distance (`exists_encode`).

Between finite numbers no distance is missing, and then no other choice of codes does better.  That
is so for each vector, and it stays so for the sum over all vectors, in spite of the rounding.
-/

set_option autoImplicit false

namespace ProductQuantization

open ProductQuantization.Matrix (window)

namespace CodeTable

/-- The codes of all vectors in subspace `m`. -/
def column? (t : CodeTable) (m : Nat) : Option (List UInt16) :=
  (List.range t.vectors).mapM fun i => t.get? i m

end CodeTable

namespace Codebook

/-! ## What is to be found -/

/-- The squared distance of what a vector has in subspace `m` to centroid `k` there. -/
def distance? (c : Codebook) (vector : Point) (m k : Nat) : Option Float32 := do
  let x ← c.extract? vector m
  let centroid ← c.centroid? m k
  some (squaredDistance x centroid).value

/-- The squared distances to all centroids of subspace `m`. -/
def distances? (c : Codebook) (vector : Point) (m : Nat) : Option (List Float32) :=
  (List.range c.size).mapM (c.distance? vector m)

/-- Centroid `k` is the first one in subspace `m` that is as near to the vector as any. -/
def IsNearest (c : Codebook) (vector : Point) (m k : Nat) : Prop :=
  ∃ ds, c.distances? vector m = some ds ∧ Cluster.FirstMinimal ds k

/-- The sum over the vectors of the squared distances in subspace `m` to the centroids that some
codes name. -/
def inertia? (c : Codebook) (data : Matrix) (m : Nat) (codes : List UInt16) : Option Float := do
  let ds ← (data.toRows.zip codes).mapM fun (row, code) => c.distance? row m code.toNat
  some (sumInOrder (ds.map widen))

/-- No component of a centroid is infinite, and none is not a number. -/
def AllFinite (c : Codebook) : Prop := ∀ x ∈ c.centroids.toList, x.IsFinite

/-- What a table is that has been encoded: it has the nearest centroids of every vector, and between
finite numbers no other codes do better in any subspace. -/
structure Encoded (c : Codebook) (data : Matrix) (t : CodeTable) : Prop where
  vectors_eq : t.vectors = data.rows
  subspaces_eq : t.subspaces = c.subspaces
  row : ∀ i : Fin data.rows, ∃ codes,
    c.encodeVector (data.rowAt i) = .ok codes ∧ t.row? i = some codes
  nearest : ∀ (i : Fin data.rows) (m : Nat), m < c.subspaces → ∃ code,
    t.get? i m = some code ∧ code.toNat < c.size ∧ c.IsNearest (data.rowAt i) m code.toNat
  least : data.AllFinite → c.AllFinite → ∀ m, m < c.subspaces → ∀ others : List UInt16,
    others.length = data.rows → (∀ code ∈ others, code.toNat < c.size) → ∃ chosen x y,
      t.column? m = some chosen ∧ c.inertia? data m chosen = some x ∧
        c.inertia? data m others = some y ∧ x ≤ y

/-! ## No other codes do better -/

section Least

variable {c : Codebook} {vector : Point} {m k : Nat} {d d' : Float32}

theorem isFinite_of_slice? {buffer : Array Single} (h : ∀ x ∈ buffer.toList, x.IsFinite)
    {start width : Nat} {p : Point} (hp : slice? buffer start width = some p) : Point.IsFinite p := by
  rw [slice?] at hp
  split at hp
  · cases hp
    exact fun x hx => h x (Array.mem_toList_iff.2 (mem_of_mem_extract hx))
  · cases hp

/-- Distances between finite numbers are numbers, and not negative. -/
theorem nonNegative_of_distance? (hv : Point.IsFinite vector) (hc : c.AllFinite)
    (h : c.distance? vector m k = some d) : Unpacked.NonNegative d.toModel.unpack := by
  obtain ⟨x, hx, h⟩ := Option.bind_eq_some_iff.1 h
  obtain ⟨y, hy, h⟩ := Option.bind_eq_some_iff.1 h
  cases h
  exact nonNegative_squaredDistance (isFinite_of_slice? hv hx) (isFinite_of_slice? hc hy)

theorem getElem?_of_distances? {ds : List Float32} (h : c.distances? vector m = some ds) :
    ds.length = c.size ∧ ∀ k, k < c.size → ∃ d, ds[k]? = some d ∧ c.distance? vector m k = some d := by
  obtain ⟨hlen, hall⟩ := List.forall₂_iff_get.1 (mapM_eq_some.1 h)
  rw [List.length_range] at hlen
  refine ⟨hlen.symm, fun k hk => ⟨ds[k], List.getElem?_eq_getElem _, ?_⟩⟩
  simpa using hall k (by simpa using hk) (hlen ▸ hk)

/-- The nearest centroid is not farther away than any other. -/
theorem IsNearest.le (h : c.IsNearest vector m k) (hv : Point.IsFinite vector) (hc : c.AllFinite)
    (hd : c.distance? vector m k = some d) {k' : Nat} (hk' : k' < c.size)
    (hd' : c.distance? vector m k' = some d') : d ≤ d' := by
  obtain ⟨ds, hds, hfirst⟩ := h
  obtain ⟨hlen, hall⟩ := getElem?_of_distances? hds
  obtain ⟨e, he, hdist⟩ := hall k (hlen ▸ hfirst.lt_length (by omega))
  obtain ⟨e', he', hdist'⟩ := hall k' hk'
  cases hdist.symm.trans hd
  cases hdist'.symm.trans hd'
  refine hfirst.le (fun x hx => ?_) he (List.mem_of_getElem? he')
  obtain ⟨j, hj, rfl⟩ := List.mem_iff_getElem.1 hx
  obtain ⟨x, hx, hdistx⟩ := hall j (hlen ▸ hj)
  rw [List.getElem?_eq_getElem hj, Option.some_inj] at hx
  rw [hx]
  exact (nonNegative_of_distance? hv hc hdistx).isNaN_eq

variable {data : Matrix} {t : CodeTable}

/-- Codes of centroids name distances. -/
theorem exists_inertia_terms (hd : data.cols ≠ 0)
    (hnear : ∀ i : Fin data.rows, ∃ ds, c.distances? (data.rowAt i) m = some ds)
    {codes : List UInt16} (hcodes : ∀ code ∈ codes, code.toNat < c.size) :
    ∃ ds, (data.toRows.zip codes).mapM (fun (row, code) => c.distance? row m code.toNat)
      = some ds := by
  refine exists_mapM_eq_some ?_
  rintro ⟨row, code⟩ hmem
  obtain ⟨hrow, hcode⟩ := List.of_mem_zip hmem
  rw [Matrix.toRows_eq hd] at hrow
  obtain ⟨i, rfl⟩ := List.mem_ofFn.1 hrow
  obtain ⟨ds, hds⟩ := hnear i
  obtain ⟨d, -, hdist⟩ := (getElem?_of_distances? hds).2 _ (hcodes code hcode)
  exact ⟨d, hdist⟩

/-- **If every code names the nearest centroid, no other choice of codes has less inertia**, whatever
is rounded off on the way. -/
theorem inertia_le (hd : data.cols ≠ 0) (hdata : data.AllFinite) (hc : c.AllFinite)
    {chosen others : List UInt16} (hlen : chosen.length = data.rows)
    (hlen' : others.length = data.rows)
    (hnear : ∀ (i : Fin data.rows) (hi : i < chosen.length),
      c.IsNearest (data.rowAt i) m chosen[i].toNat)
    (hchosen : ∀ code ∈ chosen, code.toNat < c.size)
    (hothers : ∀ code ∈ others, code.toNat < c.size) :
    ∃ x y, c.inertia? data m chosen = some x ∧ c.inertia? data m others = some y ∧ x ≤ y := by
  have hdistances : ∀ i : Fin data.rows, ∃ ds, c.distances? (data.rowAt i) m = some ds := fun i => by
    obtain ⟨ds, hds, -⟩ := hnear i (Nat.lt_of_lt_of_eq i.isLt hlen.symm)
    exact ⟨ds, hds⟩
  have hrows := Matrix.length_toRows hd
  obtain ⟨ds, hds⟩ := exists_inertia_terms hd hdistances hchosen
  obtain ⟨es, hes⟩ := exists_inertia_terms hd hdistances hothers
  refine ⟨_, _, by rw [inertia?, hds]; rfl, by rw [inertia?, hes]; rfl, sumInOrder_le ?_⟩
  obtain ⟨hdslen, hdsall⟩ := List.forall₂_iff_get.1 (mapM_eq_some.1 hds)
  obtain ⟨heslen, hesall⟩ := List.forall₂_iff_get.1 (mapM_eq_some.1 hes)
  rw [List.length_zip, hrows, hlen, Nat.min_self] at hdslen
  rw [List.length_zip, hrows, hlen', Nat.min_self] at heslen
  rw [List.forall₂_map_left_iff, List.forall₂_map_right_iff, List.forall₂_iff_get]
  refine ⟨hdslen.symm.trans heslen, fun i h1 h2 => ?_⟩
  have hi : i < data.rows := hdslen ▸ h1
  have hx := hdsall i (by simp [hrows, hlen, hi]) h1
  have hy := hesall i (by simp [hrows, hlen', hi]) h2
  simp only [List.get_eq_getElem, List.getElem_zip, Matrix.getElem_toRows hd] at hx hy
  have hrow := hdata.rowAt ⟨i, hi⟩
  have hle := (hnear ⟨i, hi⟩ (Nat.lt_of_lt_of_eq hi hlen.symm)).le hrow hc hx
    (hothers _ (List.getElem_mem _)) hy
  have hx' := nonNegative_of_distance? hrow hc hx
  have hy' := nonNegative_of_distance? hrow hc hy
  exact ⟨nonNegative64_widen hx', nonNegative64_widen hy', widen_le_widen hx' hy' hle⟩

end Least

/-! ## Encoding with the clusterings of a codebook -/

namespace Holds

variable {c : Codebook} {clusterings : List Clustering}

theorem allFinite (h : c.Holds clusterings) (hc : c.AllFinite) {x : Clustering}
    (hx : x ∈ clusterings) : x.centroids.AllFinite := by
  intro y hy
  refine hc y ?_
  rw [h.centroids_eq]
  exact List.mem_flatMap.2 ⟨x, hx, hy⟩

/-- The distance to centroid `k` of subspace `m`. -/
theorem distance?_eq (h : c.Holds clusterings) {vector : Point} (hv : vector.length = c.dim)
    {m : Nat} (hm : m < clusterings.length) {k : Nat} (hk : k < clusterings[m].centroids.rows) :
    c.distance? vector m k = some (squaredDistance
      (window (m * c.subspaceDim) c.subspaceDim vector)
        (clusterings[m].centroids.rowAt ⟨k, hk⟩)).value := by
  rw [distance?, h.extract?_eq hv hm, h.centroid?_eq hm hk]
  rfl

/-- The distances to all centroids of subspace `m`. -/
theorem distances?_eq (h : c.Holds clusterings) {vector : Point} (hv : vector.length = c.dim)
    {m : Nat} (hm : m < clusterings.length) :
    c.distances? vector m = some (Cluster.distances
      (window (m * c.subspaceDim) c.subspaceDim vector) clusterings[m].centroids.toRows) := by
  have hrows := h.rows_eq _ (List.getElem_mem hm)
  refine mapM_eq_some_of_getElem ?_ fun k h1 h2 => ?_
  · rw [List.length_range, Cluster.distances, List.length_map, h.length_toRows hm]
  · have hk : k < clusterings[m].centroids.rows := by
      rw [hrows]
      simpa using h1
    simp only [List.getElem_range, Cluster.distances, List.getElem_map,
      Matrix.getElem_toRows (h.cols_ne_zero hm)]
    exact h.distance?_eq hv hm hk

theorem encodeVector_eq (h : c.Holds clusterings) {vector : Point} (hv : vector.length = c.dim) :
    c.encodeVector vector = .ok (c.nearestCodes clusterings vector) := by
  simp [encodeVector, hv, h.blocks?_eq, codesAmong?_eq h hv]

/-- The code in subspace `m` is the number of the nearest centroid there. -/
theorem toNat_nearestCodes (h : c.Holds clusterings) (hpos : 0 < c.size) (hmax : c.size ≤ maxCodes)
    (vector : Point) {m : Nat} (hm : m < clusterings.length)
    (hm' : m < (c.nearestCodes clusterings vector).length) :
    (c.nearestCodes clusterings vector)[m].toNat = (Cluster.nearest
        (window (m * c.subspaceDim) c.subspaceDim vector) clusterings[m].centroids.toRows).index ∧
      (c.nearestCodes clusterings vector)[m].toNat < c.size := by
  have hfirst := Cluster.firstMinimal_nearest
    (window (m * c.subspaceDim) c.subspaceDim vector) clusterings[m].centroids.toRows
  have hlen : (Cluster.distances (window (m * c.subspaceDim) c.subspaceDim vector)
      clusterings[m].centroids.toRows).length = c.size := by
    rw [Cluster.distances, List.length_map, h.length_toRows hm]
  have hlt := hfirst.lt_length (hlen.symm ▸ hpos)
  rw [hlen] at hlt
  have hcode : (c.nearestCodes clusterings vector)[m].toNat
      = (Cluster.nearest (window (m * c.subspaceDim) c.subspaceDim vector)
          clusterings[m].centroids.toRows).index := by
    simp only [nearestCodes, List.getElem_map, List.getElem_zipIdx, Nat.zero_add]
    exact UInt16.toNat_ofNat'.trans (Nat.mod_eq_of_lt (Nat.lt_of_lt_of_le hlt hmax))
  exact ⟨hcode, hcode.symm ▸ hlt⟩

/-- The code in subspace `m` names the nearest centroid there. -/
theorem isNearest (h : c.Holds clusterings) (hpos : 0 < c.size) (hmax : c.size ≤ maxCodes)
    {vector : Point} (hv : vector.length = c.dim) {m : Nat}
    (hm : m < (c.nearestCodes clusterings vector).length) :
    (c.nearestCodes clusterings vector)[m].toNat < c.size ∧
      c.IsNearest vector m (c.nearestCodes clusterings vector)[m].toNat := by
  have hm' : m < clusterings.length := by simpa [nearestCodes] using hm
  obtain ⟨hcode, hlt⟩ := h.toNat_nearestCodes hpos hmax vector hm' hm
  refine ⟨hlt, _, h.distances?_eq hv hm', ?_⟩
  rw [hcode]
  exact Cluster.firstMinimal_nearest _ _

/-- The codes of all vectors, one vector after the other. -/
theorem encode_eq_flatMap (h : c.Holds clusterings) {data : Matrix} (hd : data.cols = c.dim) :
    c.encode data = .ok ⟨data.rows, c.subspaces,
      (data.toRows.flatMap (c.nearestCodes clusterings)).toArray⟩ := by
  by_cases hr : data.rows = 0
  · have hs : c.subspaces ≠ 0 := Nat.pos_iff_ne_zero.1 h.wellFormed.subspaces_pos
    have hdim : data.cols ≠ 0 := hd ▸ Nat.pos_iff_ne_zero.1 h.wellFormed.dim_pos
    have hnone : data.toRows = [] := List.eq_nil_of_length_eq_zero
      ((Matrix.length_toRows hdim).trans hr)
    have hcount : sizeProduct 0 c.subspaces = 0 := by simp [sizeProduct]
    simp [encode, hd, hs, Matrix.isEmpty, hr, hnone, hcount, filled?, CodeTable.fits, wordValues]
  · rw [encode_eq h hd (Nat.pos_of_ne_zero hr), h.subspaces_eq]

end Holds

section Encoding

variable {c : Codebook} {clusterings : List Clustering} {data : Matrix}

/-- The table that a codebook of clusterings encodes data as. -/
def encoded (c : Codebook) (clusterings : List Clustering) (data : Matrix) : CodeTable :=
  ⟨data.rows, c.subspaces, (data.toRows.flatMap (c.nearestCodes clusterings)).toArray⟩

theorem length_nearestCodes (h : c.Holds clusterings) (vector : Point) :
    (c.nearestCodes clusterings vector).length = c.subspaces := by
  simp [nearestCodes, h.subspaces_eq]

theorem row?_encoded (h : c.Holds clusterings) (hd : data.cols = c.dim) (i : Fin data.rows) :
    (c.encoded clusterings data).row? i = some (c.nearestCodes clusterings (data.rowAt i)) := by
  have hdim : data.cols ≠ 0 := hd ▸ Nat.pos_iff_ne_zero.1 h.wellFormed.dim_pos
  have hi : i.val < data.toRows.length := by
    rw [Matrix.length_toRows hdim]
    exact i.isLt
  rw [CodeTable.row?_of_flatMap (t := c.encoded clusterings data) List.toList_toArray
    (fun row _ => length_nearestCodes h row) hi, Matrix.getElem_toRows hdim]

theorem get?_encoded (h : c.Holds clusterings) (hd : data.cols = c.dim) (i : Fin data.rows) {m : Nat}
    (hm : m < (c.nearestCodes clusterings (data.rowAt i)).length) :
    (c.encoded clusterings data).get? i m
      = some (c.nearestCodes clusterings (data.rowAt i))[m] := by
  have hm' : m < c.subspaces := length_nearestCodes h (data.rowAt i) ▸ hm
  rw [CodeTable.get?_of_row? (row?_encoded h hd i) hm', List.getElem?_eq_getElem hm]

/-- **Encoding finds the nearest centroids.**  With a codebook whose fields fit together, of at least
one centroid and not more centroids than there are codes, every matrix of the right width is encoded,
and what comes out is `Encoded`. -/
theorem exists_encode (hc : c.WellFormed) (hpos : 0 < c.size) (hmax : c.size ≤ maxCodes)
    (hd : data.cols = c.dim) : ∃ t, c.encode data = .ok t ∧ c.Encoded data t := by
  obtain ⟨clusterings, h⟩ := hc.exists_holds
  have hdim : data.cols ≠ 0 := hd ▸ Nat.pos_iff_ne_zero.1 h.wellFormed.dim_pos
  have hlen : ∀ i, (data.rowAt i).length = c.dim := fun i => (Matrix.length_rowAt data i).trans hd
  have hnearest : ∀ (i : Fin data.rows) (m : Nat), m < c.subspaces → ∃ code,
      (c.encoded clusterings data).get? i m = some code ∧ code.toNat < c.size ∧
        c.IsNearest (data.rowAt i) m code.toNat := fun i m hm => by
    have hm' : m < (c.nearestCodes clusterings (data.rowAt i)).length := by
      rwa [length_nearestCodes h]
    exact ⟨_, get?_encoded h hd i hm', h.isNearest hpos hmax (hlen i) hm'⟩
  refine ⟨_, h.encode_eq_flatMap hd, rfl, rfl, fun i => ?_, hnearest, ?_⟩
  · exact ⟨_, h.encodeVector_eq (hlen i), row?_encoded h hd i⟩
  · intro hdata hfinite m hm others hothers hcodes
    have hcolumn : ∀ i ∈ List.range data.rows, ∃ code,
        (c.encoded clusterings data).get? i m = some code := fun i hi => by
      obtain ⟨code, hcode, -⟩ := hnearest ⟨i, List.mem_range.1 hi⟩ m hm
      exact ⟨code, hcode⟩
    obtain ⟨chosen, hchosen⟩ := exists_mapM_eq_some hcolumn
    obtain ⟨hchosenlen, hall⟩ := List.forall₂_iff_get.1 (mapM_eq_some.1 hchosen)
    rw [List.length_range] at hchosenlen
    have hplace : ∀ (i : Fin data.rows) (hi : i < chosen.length), chosen[i].toNat < c.size ∧
        c.IsNearest (data.rowAt i) m chosen[i].toNat := fun i hi => by
      obtain ⟨code, hcode, hcode'⟩ := hnearest i m hm
      have hget := hall i (by simp) hi
      simp only [List.get_eq_getElem, List.getElem_range, hcode, Option.some_inj] at hget
      exact hget ▸ hcode'
    obtain ⟨x, y, hx, hy, hle⟩ := inertia_le hdim hdata hfinite hchosenlen.symm hothers
      (fun i hi => (hplace i hi).2) (fun code hcode => by
        obtain ⟨i, hi, rfl⟩ := List.mem_iff_getElem.1 hcode
        exact (hplace ⟨i, hchosenlen ▸ hi⟩ hi).1) hcodes
    exact ⟨chosen, x, y, hchosen, hx, hy, hle⟩

/-- A vector beside one of two centroids, one that is not a number, and one halfway between them. -/
theorem exists_encode_three :
    Codebook.encode ⟨1, 2, 1, 1, #[.zero, .one]⟩ (.stack 1 [[.one], [.nan], [⟨0x3f000000⟩]])
        = .ok ⟨3, 1, #[1, 0, 0]⟩ ∧
      Codebook.Encoded ⟨1, 2, 1, 1, #[.zero, .one]⟩ (.stack 1 [[.one], [.nan], [⟨0x3f000000⟩]])
        ⟨3, 1, #[1, 0, 0]⟩ := by
  have h : Codebook.encode ⟨1, 2, 1, 1, #[.zero, .one]⟩
      (.stack 1 [[.one], [.nan], [⟨0x3f000000⟩]]) = .ok ⟨3, 1, #[1, 0, 0]⟩ := by decide +kernel
  obtain ⟨t, ht, hencoded⟩ := exists_encode (c := ⟨1, 2, 1, 1, #[.zero, .one]⟩)
    ⟨by decide, by decide, rfl, rfl⟩ (by decide) (by decide)
    (rfl : (Matrix.stack 1 [[.one], [.nan], [⟨0x3f000000⟩]]).cols = 1)
  cases h.symm.trans ht
  exact ⟨h, hencoded⟩

end Encoding
end Codebook
end ProductQuantization
