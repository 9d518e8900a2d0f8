import ProductQuantization.Codebook.Decode
import ProductQuantization.Proofs.Codebook.Layout

/-!
# Reading a codebook and a table back

A codebook that holds some clusterings has all their centroids in one buffer, and a row of codes that
passes the checks (`IsCodeRow`) names one of them for each subspace: `decodeVector_eq` and
`decodedRow_eq_ok` say that decoding the row puts these centroids side by side, be it one after the
other or by copying each to its place.

A table can hold the same clusterings.  Then `decode_eq` says that decoding it puts the centroids side
by side that the points are assigned to, if there is a buffer for the result (`Matrix.buffered`), and
`clustering_eq` that every clustering can be found again, all but its inertia.  Both need that an
assignment survives being written in sixteen bits, and decoding needs that every assignment is the
number of a centroid.
-/

set_option autoImplicit false

namespace ProductQuantization

/-! ## Reading the table -/

namespace CodeTable
namespace Holds

variable {t : CodeTable} {clusterings : List Clustering}

theorem length_assignedCodes (h : t.Holds clusterings) (i : Nat) :
    (assignedCodes clusterings i).length = t.subspaces := by
  rw [assignedCodes, List.length_map, h.subspaces_eq]

/-- The codes of vector `i`, as the table gives them. -/
theorem row?_eq (h : t.Holds clusterings) {i : Nat} (hi : i < t.vectors) :
    t.row? i = some (assignedCodes clusterings i) := by
  rw [row?_of_flatMap h.codes_eq (fun i _ => h.length_assignedCodes i)
    (by rwa [List.length_range]), List.getElem_range]

/-- The code of vector `i` in subspace `m`. -/
theorem get?_eq (h : t.Holds clusterings) {i m : Nat} (hi : i < t.vectors)
    (hm : m < clusterings.length) :
    t.get? i m = some (clusterings[m].assignments.getD i 0).toUInt16 := by
  rw [get?_of_row? (h.row?_eq hi) (h.subspaces_eq ▸ hm), assignedCodes, List.getElem?_map,
    List.getElem?_eq_getElem hm]
  rfl

/-- An assignment is read back from its code. -/
theorem toNat_code (h : t.Holds clusterings) {x : Clustering} (hx : x ∈ clusterings) {i : Nat}
    (hi : i < t.vectors) : (x.assignments.getD i 0).toUInt16.toNat = x.assignments.getD i 0 := by
  have hsize : i < x.assignments.size := h.size_eq x hx ▸ hi
  have hlt : x.assignments.getD i 0 < maxCodes := by
    rw [Array.getD_eq_getD_getElem?, Array.getElem?_eq_getElem hsize]
    exact h.lt_maxCodes x hx _ (Array.getElem_mem hsize)
  exact UInt16.toNat_ofNat'.trans (Nat.mod_eq_of_lt hlt)

end Holds
end CodeTable

/-- The matrix, if a buffer can be had for it. -/
def Matrix.buffered (m : Matrix) : Result Matrix := do
  Result.guard (Matrix.fits (m.rows * m.cols)) .outOfBounds
  .ok m

theorem Matrix.buffered_eq_ok {m m' : Matrix} :
    m.buffered = .ok m' ↔ Matrix.fits (m.rows * m.cols) = true ∧ m = m' := by
  simp only [buffered, bind_eq_ok, Result.guard_eq_ok, Except.ok.injEq, exists_const]

/-! ## What a row of codes stands for -/

namespace Codebook

/-- There is a code for each subspace, and each names a centroid. -/
def IsCodeRow (c : Codebook) (codes : List UInt16) : Prop :=
  codes.length = c.subspaces ∧ ∀ code ∈ codes, code.toNat < c.size

theorem checkCodes_eq_ok_iff {c : Codebook} {codes : List UInt16} :
    c.checkCodes codes = .ok () ↔ c.IsCodeRow codes := by
  have hfind := @find?_zipIdx_eq_none _ (fun code : UInt16 => decide (c.size ≤ code.toNat)) codes
  simp only [decide_eq_false_iff_not, Nat.not_le] at hfind
  rw [checkCodes, bind_eq_ok, IsCodeRow, ← hfind]
  constructor
  · rintro ⟨u, hu, h⟩
    split at h
    · cases h
    · rename_i hnone
      exact ⟨by simpa using hu, hnone⟩
  · rintro ⟨hlen, hnone⟩
    refine ⟨(), by simpa using hlen, ?_⟩
    split
    · rename_i hsome
      cases hnone.symm.trans hsome
    · rfl

section Named

variable {c : Codebook} {clusterings : List Clustering} {codes : List UInt16}

/-- The centroids that a row of codes names. -/
def namedCentroids (clusterings : List Clustering) (codes : List UInt16) : List Point :=
  clusterings.zipWith (fun x code => x.centroids.toRows.getD code.toNat []) codes

/-- A row of codes and a subspace, and the centroid that is named there. -/
structure Named (c : Codebook) (clusterings : List Clustering) (codes : List UInt16) (m : Nat) :
    Prop where
  lt_clusterings : m < clusterings.length
  lt_codes : m < codes.length
  lt_named : m < (namedCentroids clusterings codes).length
  code_lt : codes[m].toNat < clusterings[m].centroids.toRows.length
  eq : (namedCentroids clusterings codes)[m] = clusterings[m].centroids.toRows[codes[m].toNat]

theorem IsCodeRow.named (hcodes : c.IsCodeRow codes) (h : c.Holds clusterings) {m : Nat}
    (hm : m < c.subspaces) : Named c clusterings codes m := by
  have hm' : m < clusterings.length := h.subspaces_eq ▸ hm
  have hc : m < codes.length := hcodes.1 ▸ hm
  have hk : codes[m].toNat < clusterings[m].centroids.toRows.length := by
    rw [h.length_toRows hm']
    exact hcodes.2 _ (List.getElem_mem hc)
  have hn : m < (namedCentroids clusterings codes).length := by
    rw [namedCentroids, List.length_zipWith]
    omega
  exact ⟨hm', hc, hn, hk, by simp [namedCentroids, hk]⟩

theorem length_namedCentroids (h : c.Holds clusterings) (hcodes : c.IsCodeRow codes) :
    (namedCentroids clusterings codes).length = c.subspaces := by
  rw [namedCentroids, List.length_zipWith, ← h.subspaces_eq, hcodes.1, Nat.min_self]

theorem named?_eq_some (h : c.Holds clusterings) (hcodes : c.IsCodeRow codes) :
    c.named? codes = some (namedCentroids clusterings codes) := by
  refine mapM_eq_some_of_getElem ?_ fun m h1 h2 => ?_
  · rw [List.length_zipIdx, length_namedCentroids h hcodes, hcodes.1]
  · have hm := hcodes.named h (length_namedCentroids h hcodes ▸ h2)
    have hc : m < codes.length := hm.lt_codes
    rw [List.getElem_zipIdx, Nat.zero_add, hm.eq]
    show c.centroid? m codes[m].toNat = _
    rw [h.centroid?_eq_getElem? hm.lt_clusterings (hcodes.2 _ (List.getElem_mem hm.lt_codes)),
      List.getElem?_eq_getElem hm.code_lt]

/-- **Decoding a row of codes** puts the centroids side by side that it names. -/
theorem decodeVector_eq (h : c.Holds clusterings) (hcodes : c.IsCodeRow codes) :
    c.decodeVector codes = .ok (namedCentroids clusterings codes).flatten := by
  rw [decodeVector, checkCodes_eq_ok_iff.2 hcodes, named?_eq_some h hcodes]
  rfl

/-- Each of the centroids is as wide as a subspace. -/
theorem length_of_mem_namedCentroids (h : c.Holds clusterings) (hcodes : c.IsCodeRow codes) :
    ∀ x ∈ namedCentroids clusterings codes, x.length = c.subspaceDim := by
  intro x hx
  obtain ⟨m, hm, rfl⟩ := List.mem_iff_getElem.1 hx
  have hnamed := hcodes.named h (length_namedCentroids h hcodes ▸ hm)
  rw [hnamed.eq, Matrix.length_of_mem_toRows (List.getElem_mem hnamed.code_lt),
    h.cols_eq _ (List.getElem_mem hnamed.lt_clusterings)]

/-- **Copying them into a row of the result**, each to its place, puts them side by side as well. -/
theorem decodedRow_eq_ok (h : c.Holds clusterings) (hcodes : c.IsCodeRow codes) :
    c.decodedRow codes = .ok (namedCentroids clusterings codes).flatten := by
  have hsize : (Array.replicate c.dim Single.zero).size
      = (namedCentroids clusterings codes).length * c.subspaceDim := by
    rw [Array.size_replicate, length_namedCentroids h hcodes, h.wellFormed.dim_eq]
  rw [decodedRow, named?_eq_some h hcodes, Result.ofIndex_some, ok_bind,
    copyBlocks?_eq_some (length_of_mem_namedCentroids h hcodes) hsize]
  rfl

theorem length_flatten_namedCentroids (h : c.Holds clusterings) (hcodes : c.IsCodeRow codes) :
    (namedCentroids clusterings codes).flatten.length = c.dim := by
  have hlen := length_flatMap_of_length (f := id) (length_of_mem_namedCentroids h hcodes)
  rw [List.flatMap_id, length_namedCentroids h hcodes] at hlen
  rw [hlen, h.wellFormed.dim_eq]

/-- What the vector of the centroids has in subspace `m` is the centroid named there. -/
theorem window_namedCentroids (h : c.Holds clusterings) (hcodes : c.IsCodeRow codes) {m : Nat}
    (hm : m < (namedCentroids clusterings codes).length) :
    Matrix.window (m * c.subspaceDim) c.subspaceDim (namedCentroids clusterings codes).flatten
      = (namedCentroids clusterings codes)[m] := by
  have hlen := length_of_mem_namedCentroids h hcodes
  have hslice := slice_flatMap (f := id) hlen hm (Nat.le_of_eq (Nat.zero_add c.subspaceDim))
  rw [Nat.add_zero, List.drop_zero, id, List.take_of_length_le
    (Nat.le_of_eq (hlen _ (List.getElem_mem hm))), List.flatMap_id] at hslice
  exact hslice

end Named

/-! ## Decoding -/

/-- The centroids that point `i` is assigned to, one for each subspace. -/
def assignedCentroids (clusterings : List Clustering) (i : Nat) : List Point :=
  clusterings.map fun x => x.centroids.toRows.toArray.getD (x.assignments.getD i 0) []

/-- What the clusterings stand for: for each vector, the centroids it is assigned to side by side. -/
def decoded (clusterings : List Clustering) (vectors dim : Nat) : Matrix :=
  .stack dim ((List.range vectors).map fun i => (assignedCentroids clusterings i).flatten)

/-- The clusterings span vectors of a dimension: their centroids side by side make up such a vector,
and each of so many points is assigned to a centroid in each of them. -/
structure Spans (clusterings : List Clustering) (vectors dim : Nat) : Prop where
  dim_ne_zero : dim ≠ 0
  dim_eq : dim = clusterings.length * (dim / clusterings.length)
  cols_eq : ∀ x ∈ clusterings, x.centroids.cols = dim / clusterings.length
  assigned : ∀ x ∈ clusterings, ∀ i < vectors, ∃ a, x.assignments[i]? = some a ∧
    a < x.centroids.rows

/-- Every assignment is the number of a centroid. -/
def Assigned (size : Nat) (clusterings : List Clustering) : Prop :=
  ∀ x ∈ clusterings, ∀ a ∈ x.assignments, a < size

section Decode

variable {c : Codebook} {t : CodeTable} {clusterings : List Clustering}

theorem getD_lt_of_assigned (ht : t.Holds clusterings) (ha : Assigned c.size clusterings)
    {x : Clustering} (hx : x ∈ clusterings) {i : Nat} (hi : i < t.vectors) :
    x.assignments.getD i 0 < c.size := by
  have hsize : i < x.assignments.size := ht.size_eq x hx ▸ hi
  rw [Array.getD_eq_getD_getElem?, Array.getElem?_eq_getElem hsize]
  exact ha x hx _ (Array.getElem_mem hsize)

/-- Clusterings that a codebook and a table hold span the vectors of the table. -/
theorem spans_of_holds (hc : c.Holds clusterings) (ht : t.Holds clusterings)
    (ha : Assigned c.size clusterings) : Spans clusterings t.vectors c.dim where
  dim_ne_zero := Nat.pos_iff_ne_zero.1 hc.wellFormed.dim_pos
  dim_eq := hc.subspaceDim_eq ▸ hc.dim_eq
  cols_eq x hx := (hc.cols_eq x hx).trans hc.subspaceDim_eq
  assigned x hx i hi := by
    have hsize : i < x.assignments.size := ht.size_eq x hx ▸ hi
    refine ⟨_, Array.getElem?_eq_getElem hsize, ?_⟩
    rw [hc.rows_eq x hx]
    exact ha x hx _ (Array.getElem_mem hsize)

theorem isCodeRow_assignedCodes (hc : c.Holds clusterings) (ht : t.Holds clusterings)
    (ha : Assigned c.size clusterings) {i : Nat} (hi : i < t.vectors) :
    c.IsCodeRow (CodeTable.assignedCodes clusterings i) := by
  refine ⟨by rw [CodeTable.assignedCodes, List.length_map, hc.subspaces_eq], fun code hcode => ?_⟩
  obtain ⟨x, hx, rfl⟩ := List.mem_map.1 hcode
  rw [ht.toNat_code hx hi]
  exact getD_lt_of_assigned ht ha hx hi

theorem namedCentroids_assignedCodes (ht : t.Holds clusterings) {i : Nat} (hi : i < t.vectors) :
    namedCentroids clusterings (CodeTable.assignedCodes clusterings i)
      = assignedCentroids clusterings i := by
  rw [namedCentroids, CodeTable.assignedCodes, List.zipWith_map_right, List.zipWith_self]
  refine List.map_congr_left fun x hx => ?_
  rw [ht.toNat_code hx hi]
  simp only [Array.getD_eq_getD_getElem?, List.getElem?_toArray, List.getD_eq_getElem?_getD]

theorem decodedRow_eq (hc : c.Holds clusterings) (ht : t.Holds clusterings)
    (ha : Assigned c.size clusterings) {i : Nat} (hi : i < t.vectors) :
    c.decodedRow (CodeTable.assignedCodes clusterings i)
      = .ok (assignedCentroids clusterings i).flatten := by
  rw [decodedRow_eq_ok hc (isCodeRow_assignedCodes hc ht ha hi), namedCentroids_assignedCodes ht hi]

@[simp] theorem rows_decoded (clusterings : List Clustering) (vectors dim : Nat) :
    (decoded clusterings vectors dim).rows = vectors := by
  rw [decoded, Matrix.rows_stack, List.length_map, List.length_range]

@[simp] theorem cols_decoded (clusterings : List Clustering) (vectors dim : Nat) :
    (decoded clusterings vectors dim).cols = dim := rfl

/-- **Decoding puts the centroids side by side** that the vectors are assigned to, if there is a
buffer for the result. -/
theorem decode_eq (hc : c.Holds clusterings) (ht : t.Holds clusterings)
    (ha : Assigned c.size clusterings) :
    c.decode t = (decoded clusterings t.vectors c.dim).buffered := by
  have hs : t.subspaces = c.subspaces := ht.subspaces_eq.trans hc.subspaces_eq.symm
  have hs0 : c.subspaces ≠ 0 := Nat.pos_iff_ne_zero.1 hc.wellFormed.subspaces_pos
  have hd0 : c.dim ≠ 0 := Nat.pos_iff_ne_zero.1 hc.wellFormed.dim_pos
  have hrows : (List.range t.vectors).mapM (c.checkedRow t)
      = .ok ((List.range t.vectors).map (CodeTable.assignedCodes clusterings)) := by
    refine mapM_eq_ok_map fun i hi => ?_
    have hi := List.mem_range.1 hi
    simp [checkedRow, ht.row?_eq hi, checkCodes_eq_ok_iff.2 (isCodeRow_assignedCodes hc ht ha hi)]
  have hvectors : ((List.range t.vectors).map (CodeTable.assignedCodes clusterings)).mapM
        c.decodedRow
      = .ok ((List.range t.vectors).map fun i => (assignedCentroids clusterings i).flatten) := by
    rw [List.mapM_map]
    exact mapM_eq_ok_map fun i hi => decodedRow_eq hc ht ha (List.mem_range.1 hi)
  rw [Matrix.buffered, rows_decoded, cols_decoded]
  simp only [decode, hs, hs0, hd0, hrows, hvectors, decide_true, Result.guard_true, ok_bind,
    if_false, decoded]

end Decode

/-! ## Reading clusterings back -/

/-- The clustering of subspace `m` that a codebook and a table hold.  Its inertia is not kept. -/
def clustering (c : Codebook) (t : CodeTable) (m : Nat) : Clustering where
  centroids := .stack c.subspaceDim ((c.centroids? m).getD [])
  assignments := ((List.range t.vectors).map fun i => ((t.get? i m).map UInt16.toNat).getD 0).toArray
  inertia := 0

/-- **A clustering is read back** from the codebook and the table made from it, all but its
inertia. -/
theorem clustering_eq {c : Codebook} {t : CodeTable} {clusterings : List Clustering}
    (hc : c.Holds clusterings) (ht : t.Holds clusterings) {m : Nat} (hm : m < clusterings.length) :
    c.clustering t m = { clusterings[m] with inertia := 0 } := by
  have hx := List.getElem_mem hm
  have hcols : clusterings[m].centroids.cols = c.subspaceDim := hc.cols_eq _ hx
  have hcols0 : clusterings[m].centroids.cols ≠ 0 := hcols ▸ hc.subspaceDim_ne_zero
  have hrows : (c.centroids? m).getD [] = clusterings[m].centroids.toRows := by
    rw [hc.centroids?_eq hm]
    rfl
  have hcentroids : Matrix.stack c.subspaceDim clusterings[m].centroids.toRows
      = clusterings[m].centroids := by
    rw [← hcols]
    exact Matrix.stack_toRows hcols0
  have hassignments : ((List.range t.vectors).map fun i =>
      ((t.get? i m).map UInt16.toNat).getD 0).toArray = clusterings[m].assignments := by
    refine Array.ext (by simp [ht.size_eq _ hx]) fun i h1 h2 => ?_
    have hi : i < t.vectors := ht.size_eq _ hx ▸ h2
    simp only [List.getElem_toArray, List.getElem_map, List.getElem_range, ht.get?_eq hi hm,
      Option.map_some, Option.getD_some, ht.toNat_code hx hi]
    rw [Array.getD_eq_getD_getElem?, Array.getElem?_eq_getElem h2]
    rfl
  rw [clustering, hrows, hcentroids, hassignments]

end Codebook
end ProductQuantization
