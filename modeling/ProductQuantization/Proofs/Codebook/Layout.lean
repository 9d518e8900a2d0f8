import ProductQuantization.Codebook.Train
import ProductQuantization.Proofs.Matrix.Rows

/-!
# Where the centroids of a codebook lie

A codebook made of one clustering for each subspace has all their centroids in one buffer.
`Codebook.Holds` says so, and any codebook whose fields fit together is such a one
(`WellFormed.exists_holds`).  The lemmas after it read the buffer in the ways in which the library
does: centroid by centroid (`Holds.centroid?_eq`), and subspace by subspace (`Holds.blocks?_eq`).

The same is done for the table of codes: the codes of vector `i` are the assignments of point `i` in
all the clusterings, one after the other (`CodeTable.Holds`).
-/

set_option autoImplicit false

namespace ProductQuantization

open ProductQuantization.Matrix (window)

/-- What is in a piece of a buffer is in the buffer. -/
theorem mem_of_mem_extract {α : Type} {buffer : Array α} {start stop : Nat} {x : α}
    (h : x ∈ (buffer.extract start stop).toList) : x ∈ buffer := by
  obtain ⟨k, hk, rfl⟩ := Array.mem_extract_iff_getElem.1 (Array.mem_toList_iff.1 h)
  exact Array.getElem_mem _

namespace Codebook

/-! ## Slices of the buffer -/

theorem slice?_eq_some {buffer : Array Single} {start width : Nat}
    (h : start + width ≤ buffer.size) :
    slice? buffer start width = some ((buffer.toList.drop start).take width) := by
  rw [slice?, if_pos h, Array.toList_extract, List.extract_eq_take_drop, Nat.add_sub_cancel_left]

theorem extract?_eq_some (c : Codebook) {vector : Point} {m : Nat}
    (h : m * c.subspaceDim + c.subspaceDim ≤ vector.length) :
    c.extract? vector m = some (window (m * c.subspaceDim) c.subspaceDim vector) :=
  slice?_eq_some h

/-! ## Copying into a buffer -/

theorem copyAt?_eq_some {buffer : Array Single} {start : Nat} {values : Point}
    (h : start + values.length ≤ buffer.size) :
    copyAt? buffer start values = some (buffer.toList.take start ++
      (values ++ buffer.toList.drop (start + values.length))).toArray := by
  rw [copyAt?, if_pos h]
  refine congrArg some (Array.toList_inj.1 ?_)
  have hrest : (buffer.toList.drop (start + values.length)).length
      ≤ buffer.size - (start + values.length) :=
    Nat.le_of_eq (by rw [List.length_drop, Array.length_toList])
  rw [Array.toList_append, Array.toList_append, Array.toList_extract, Array.toList_extract,
    List.extract_eq_take_drop, List.extract_eq_take_drop, List.drop_zero, Nat.sub_zero,
    List.take_of_length_le hrest, List.append_assoc]

/-- Blocks that are copied over the rest of a buffer, each to its place, lie side by side there. -/
theorem copyBlocks?_append {width first : Nat} {blocks : List Point} {front rest : Point}
    (hw : ∀ x ∈ blocks, x.length = width) (hfront : front.length = first * width)
    (hrest : rest.length = blocks.length * width) :
    copyBlocks? width first blocks (front ++ rest).toArray
      = some (front ++ blocks.flatten).toArray := by
  induction blocks generalizing first front rest with
  | nil =>
    rw [List.length_nil, Nat.zero_mul, List.length_eq_zero_iff] at hrest
    rw [hrest]
    rfl
  | cons block blocks ih =>
    obtain ⟨hblock, hblocks⟩ := List.forall_mem_cons.1 hw
    rw [List.length_cons, Nat.succ_mul] at hrest
    have hin : first * width + block.length ≤ (front ++ rest).toArray.size := by
      rw [List.size_toArray, List.length_append]
      omega
    have hcopied : copyAt? (front ++ rest).toArray (first * width) block
        = some (front ++ block ++ rest.drop width).toArray := by
      rw [copyAt?_eq_some hin, ← hfront, List.take_left, List.drop_length_add_append, hblock,
        List.append_assoc]
    rw [copyBlocks?, if_pos hblock, hcopied, Option.bind_eq_bind, Option.bind_some,
      ih hblocks (by rw [List.length_append, hfront, hblock, Nat.succ_mul])
        (by rw [List.length_drop, hrest, Nat.add_sub_cancel]),
      List.flatten_cons, List.append_assoc]

/-- **Blocks that fill a buffer** are what is in it after they have been copied. -/
theorem copyBlocks?_eq_some {width : Nat} {blocks : List Point} {buffer : Array Single}
    (hw : ∀ x ∈ blocks, x.length = width) (hsize : buffer.size = blocks.length * width) :
    copyBlocks? width 0 blocks buffer = some blocks.flatten.toArray :=
  @copyBlocks?_append width 0 blocks [] buffer.toList hw (Nat.zero_mul width).symm hsize

/-! ## The codebook of some clusterings -/

/-- The codebook holds the centroids of the clusterings, one clustering for each subspace. -/
structure Holds (c : Codebook) (clusterings : List Clustering) : Prop where
  wellFormed : c.WellFormed
  subspaces_eq : c.subspaces = clusterings.length
  rows_eq : ∀ x ∈ clusterings, x.centroids.rows = c.size
  cols_eq : ∀ x ∈ clusterings, x.centroids.cols = c.subspaceDim
  centroids_eq : c.centroids.toList = clusterings.flatMap fun x => x.centroids.data.toList

theorem ofShape_eq_ok {dim subspaces size : Nat} {c : Codebook} :
    ofShape dim subspaces size = .ok c ↔
      (subspaces ≠ 0 ∧ dim ≠ 0 ∧ dim % subspaces = 0) ∧
        c = ⟨subspaces, size, dim, dim / subspaces, #[]⟩ := by
  rw [ofShape, bind_eq_ok]
  constructor
  · rintro ⟨u, hu, h⟩
    obtain ⟨v, hv, h⟩ := bind_eq_ok.1 h
    cases h
    simp only [Result.guard_eq_ok, Bool.and_eq_true, decide_eq_true_eq, ne_eq] at hu hv
    exact ⟨⟨hu.1, hu.2, hv⟩, rfl⟩
  · rintro ⟨⟨hs, hd, hm⟩, rfl⟩
    exact ⟨(), by simp [hs, hd], bind_eq_ok.2 ⟨(), by simp [hm], rfl⟩⟩

theorem length_data_of_shape {x : Clustering} {size width : Nat} (hr : x.centroids.rows = size)
    (hc : x.centroids.cols = width) : x.centroids.data.toList.length = size * width := by
  rw [Array.length_toList, x.centroids.size_eq, hr, hc]

/-- The centroids of clusterings of one shape fill a buffer of their number. -/
theorem copyBlocks?_clusterings {clusterings : List Clustering} {size width : Nat}
    (hr : ∀ x ∈ clusterings, x.centroids.rows = size)
    (hc : ∀ x ∈ clusterings, x.centroids.cols = width) :
    copyBlocks? (size * width) 0 (clusterings.map fun x => x.centroids.data.toList)
        (Array.replicate (clusterings.length * size * width) .zero)
      = some (clusterings.flatMap fun x => x.centroids.data.toList).toArray := by
  rw [List.flatMap_def]
  refine copyBlocks?_eq_some (List.forall_mem_map.2 fun x hx => ?_) ?_
  · exact length_data_of_shape (hr x hx) (hc x hx)
  · rw [Array.size_replicate, List.length_map, Nat.mul_assoc]

/-- What the codebook of some clusterings holds. -/
theorem holds_ofClusterings {dim : Nat} {clusterings : List Clustering} {c : Codebook}
    (h : ofClusterings dim clusterings = .ok c) : c.dim = dim ∧ c.Holds clusterings := by
  cases clusterings with
  | nil => cases h
  | cons first rest =>
    obtain ⟨blank, hb, h⟩ := bind_eq_ok.1 h
    obtain ⟨⟨hs, hd, hm⟩, rfl⟩ := ofShape_eq_ok.1 hb
    simp only at h
    split at h
    · obtain ⟨u, -, h⟩ := bind_eq_ok.1 h
      cases h
    · rename_i hnone
      simp only [List.find?_eq_none, Bool.or_eq_true, decide_eq_true_eq, ne_eq, not_or,
        Decidable.not_not] at hnone
      have hrows : ∀ x ∈ first :: rest, x.centroids.rows = first.size := fun x hx => (hnone x hx).1
      have hcols := fun x hx => (hnone x hx).2
      simp only [centroidCount, copyBlocks?_clusterings hrows hcols, Result.ofIndex_some,
        ok_bind] at h
      cases h
      have hdim : dim = (first :: rest).length * (dim / (first :: rest).length) :=
        (Nat.mul_div_cancel' (Nat.dvd_of_mod_eq_zero hm)).symm
      refine ⟨rfl, ⟨Nat.pos_of_ne_zero hd, Nat.pos_of_ne_zero hs, hdim, ?_⟩, rfl, hrows, hcols, rfl⟩
      rw [List.size_toArray, Nat.mul_assoc]
      exact length_flatMap_of_length fun x hx => length_data_of_shape (hrows x hx) (hcols x hx)

/-- When clusterings make a codebook. -/
theorem exists_ofClusterings {dim size : Nat} {clusterings : List Clustering} (hd : dim ≠ 0)
    (hs : clusterings.length ≠ 0) (hm : dim % clusterings.length = 0)
    (hr : ∀ x ∈ clusterings, x.centroids.rows = size)
    (hc : ∀ x ∈ clusterings, x.centroids.cols = dim / clusterings.length) :
    ∃ c, ofClusterings dim clusterings = .ok c := by
  cases clusterings with
  | nil => exact absurd rfl hs
  | cons first rest =>
    have hfirst : first.size = size := hr first List.mem_cons_self
    have hnone : (first :: rest).find? (fun x => x.centroids.rows ≠ first.size ||
        x.centroids.cols ≠ dim / (first :: rest).length) = none := by
      simp only [List.find?_eq_none, Bool.or_eq_true, decide_eq_true_eq, ne_eq, not_or,
        Decidable.not_not]
      exact fun x hx => ⟨(hr x hx).trans hfirst.symm, hc x hx⟩
    rw [ofClusterings, ofShape_eq_ok.2 ⟨⟨hs, hd, hm⟩, rfl⟩]
    rw [← hfirst] at hr
    simp only [ok_bind, hnone, centroidCount, copyBlocks?_clusterings hr hc, Result.ofIndex_some]
    exact ⟨_, rfl⟩

/-- A codebook whose fields fit together holds one clustering for each subspace. -/
theorem WellFormed.exists_holds {c : Codebook} (h : c.WellFormed) :
    ∃ clusterings, c.Holds clusterings := by
  have hlen : c.centroids.toList.length = c.subspaces * (c.size * c.subspaceDim) := by
    rw [Array.length_toList, h.centroids_size, Nat.mul_assoc]
  have hblock : ∀ m : Fin c.subspaces, ((c.centroids.toList.drop
      (m * (c.size * c.subspaceDim))).take (c.size * c.subspaceDim)).toArray.size
        = c.size * c.subspaceDim := fun m => by
    have hin : (m + 1) * (c.size * c.subspaceDim) ≤ c.centroids.toList.length := by
      rw [hlen]
      exact Nat.mul_le_mul_right _ m.isLt
    rw [Nat.succ_mul] at hin
    rw [List.size_toArray, List.length_take, List.length_drop]
    omega
  refine ⟨(List.finRange c.subspaces).map fun m =>
    ⟨⟨c.size, c.subspaceDim, _, hblock m⟩, #[], 0⟩, h, ?_, ?_, ?_, ?_⟩
  · simp
  · simp
  · simp
  · have hslices := flatMap_slices hlen
    rw [← List.map_coe_finRange_eq_range, List.flatMap_map] at hslices
    rw [List.flatMap_map]
    exact hslices.symm

namespace Holds

variable {c : Codebook} {clusterings : List Clustering}

theorem length_pos (h : c.Holds clusterings) : 0 < clusterings.length :=
  h.subspaces_eq ▸ h.wellFormed.subspaces_pos

theorem dim_eq (h : c.Holds clusterings) : c.dim = clusterings.length * c.subspaceDim :=
  h.subspaces_eq ▸ h.wellFormed.dim_eq

theorem subspaceDim_eq (h : c.Holds clusterings) : c.subspaceDim = c.dim / clusterings.length := by
  rw [h.dim_eq, Nat.mul_div_cancel_left _ h.length_pos]

theorem subspaceDim_ne_zero (h : c.Holds clusterings) : c.subspaceDim ≠ 0 := by
  intro h0
  have hpos := h.wellFormed.dim_pos
  rw [h.dim_eq, h0, Nat.mul_zero] at hpos
  exact Nat.lt_irrefl 0 hpos

theorem subspaces_le_dim (h : c.Holds clusterings) : c.subspaces ≤ c.dim := by
  rw [h.wellFormed.dim_eq]
  exact Nat.le_mul_of_pos_right _ (Nat.pos_of_ne_zero h.subspaceDim_ne_zero)

theorem size_centroids (h : c.Holds clusterings) :
    c.centroids.size = clusterings.length * (c.size * c.subspaceDim) := by
  rw [h.wellFormed.centroids_size, h.subspaces_eq, Nat.mul_assoc]

/-- A slice of the buffer inside one subspace is a slice of the clustering there. -/
theorem slice?_eq (h : c.Holds clusterings) {m : Nat} (hm : m < clusterings.length)
    {start count : Nat} (hs : start + count ≤ c.size * c.subspaceDim) :
    slice? c.centroids (m * (c.size * c.subspaceDim) + start) count
      = some ((clusterings[m].centroids.data.toList.drop start).take count) := by
  have hlen : (m + 1) * (c.size * c.subspaceDim) ≤ c.centroids.size := by
    rw [h.size_centroids]
    exact Nat.mul_le_mul_right _ hm
  rw [Nat.succ_mul] at hlen
  rw [slice?_eq_some (by omega), h.centroids_eq]
  exact congrArg some (slice_flatMap
    (fun x hx => length_data_of_shape (h.rows_eq x hx) (h.cols_eq x hx)) hm hs)

/-- Centroid `k` of subspace `m`. -/
theorem centroid?_eq (h : c.Holds clusterings) {m : Nat} (hm : m < clusterings.length) {k : Nat}
    (hk : k < clusterings[m].centroids.rows) :
    c.centroid? m k = some (clusterings[m].centroids.rowAt ⟨k, hk⟩) := by
  have hrows := h.rows_eq _ (List.getElem_mem hm)
  have hcols := h.cols_eq _ (List.getElem_mem hm)
  have hin : k * c.subspaceDim + c.subspaceDim ≤ c.size * c.subspaceDim := by
    rw [← Nat.succ_mul]
    exact Nat.mul_le_mul_right _ (hrows ▸ hk)
  have hoff : c.offset m k = m * (c.size * c.subspaceDim) + k * c.subspaceDim := by
    rw [offset, Nat.add_mul, Nat.mul_assoc]
  rw [centroid?, hoff, h.slice?_eq hm hin, Matrix.rowAt_eq_slice, hcols]

theorem cols_ne_zero (h : c.Holds clusterings) {m : Nat} (hm : m < clusterings.length) :
    clusterings[m].centroids.cols ≠ 0 :=
  h.cols_eq _ (List.getElem_mem hm) ▸ h.subspaceDim_ne_zero

theorem length_toRows (h : c.Holds clusterings) {m : Nat} (hm : m < clusterings.length) :
    clusterings[m].centroids.toRows.length = c.size := by
  rw [Matrix.length_toRows (h.cols_ne_zero hm), h.rows_eq _ (List.getElem_mem hm)]

/-- All centroids of subspace `m`. -/
theorem centroids?_eq (h : c.Holds clusterings) {m : Nat} (hm : m < clusterings.length) :
    c.centroids? m = some clusterings[m].centroids.toRows := by
  have hw := h.subspaceDim_ne_zero
  have hsome : c.subspace? m ≠ none := by
    have hsub := h.slice?_eq hm (Nat.le_of_eq (Nat.zero_add (c.size * c.subspaceDim)))
    rw [subspace?, Nat.mul_assoc]
    exact fun h0 => by rw [Nat.add_zero, h0] at hsub; cases hsub
  rw [centroids?, if_neg (by simp [hw, hsome])]
  refine mapM_eq_some_of_getElem ?_ fun k h1 h2 => ?_
  · rw [List.length_range, h.length_toRows hm]
  · rw [List.getElem_range, Matrix.getElem_toRows (h.cols_ne_zero hm)]
    exact h.centroid?_eq hm _

/-- The centroids of every subspace. -/
theorem blocks?_eq (h : c.Holds clusterings) :
    c.blocks? = some (clusterings.map fun x => x.centroids.toRows) := by
  refine mapM_eq_some_of_getElem (by simp [h.subspaces_eq]) fun m h1 h2 => ?_
  rw [List.getElem_range, List.getElem_map]
  exact h.centroids?_eq _

theorem extract?_eq (h : c.Holds clusterings) {vector : Point} (hv : vector.length = c.dim)
    {m : Nat} (hm : m < clusterings.length) :
    c.extract? vector m = some (window (m * c.subspaceDim) c.subspaceDim vector) := by
  refine c.extract?_eq_some ?_
  rw [hv, h.wellFormed.dim_eq, h.subspaces_eq, ← Nat.succ_mul]
  exact Nat.mul_le_mul_right _ hm

/-- A centroid of subspace `m` is found in its buffer and in its list. -/
theorem centroid?_eq_getElem? (h : c.Holds clusterings) {m : Nat} (hm : m < clusterings.length)
    {k : Nat} (hk : k < c.size) : c.centroid? m k = clusterings[m].centroids.toRows[k]? := by
  have hrows := h.rows_eq _ (List.getElem_mem hm)
  have hk' : k < clusterings[m].centroids.toRows.length := by rwa [h.length_toRows hm]
  rw [List.getElem?_eq_getElem hk', Matrix.getElem_toRows (h.cols_ne_zero hm)]
  exact h.centroid?_eq hm (hrows ▸ hk)

end Holds
end Codebook

namespace CodeTable

/-! ## Rows of a table -/

section Rows

variable {α : Type} {t : CodeTable} {xs : List α} {f : α → List UInt16}

theorem size_codes_of_flatMap (hcodes : t.codes.toList = xs.flatMap f)
    (hf : ∀ x ∈ xs, (f x).length = t.subspaces) : t.codes.size = xs.length * t.subspaces := by
  rw [← Array.length_toList, hcodes, length_flatMap_of_length hf]

/-- A row of a table whose codes are written down row by row. -/
theorem row?_of_flatMap (hcodes : t.codes.toList = xs.flatMap f)
    (hf : ∀ x ∈ xs, (f x).length = t.subspaces) {i : Nat} (hi : i < xs.length) :
    t.row? i = some (f xs[i]) := by
  have hin : i * t.subspaces + t.subspaces ≤ t.codes.size := by
    rw [size_codes_of_flatMap hcodes hf, ← Nat.succ_mul]
    exact Nat.mul_le_mul_right _ hi
  have hslice := slice_flatMap hf hi (Nat.le_of_eq (Nat.zero_add t.subspaces))
  rw [Nat.add_zero, List.drop_zero,
    List.take_of_length_le (Nat.le_of_eq (hf _ (List.getElem_mem hi)))] at hslice
  rw [row?, if_pos hin, Array.toList_extract, List.extract_eq_take_drop, Nat.add_sub_cancel_left,
    hcodes, hslice]

/-- There is a code for each subspace in a row. -/
theorem length_of_row? {i : Nat} {row : List UInt16} (h : t.row? i = some row) :
    row.length = t.subspaces := by
  rw [row?] at h
  split at h
  · rename_i hin
    cases h
    rw [Array.length_toList, Array.size_extract]
    omega
  · cases h

/-- The codes of a row are codes of the table. -/
theorem mem_of_row? {i : Nat} {row : List UInt16} (h : t.row? i = some row) {code : UInt16}
    (hcode : code ∈ row) : code ∈ t.codes := by
  rw [row?] at h
  split at h
  · cases h
    exact mem_of_mem_extract hcode
  · cases h

/-- A code stands in its row. -/
theorem get?_of_row? {i m : Nat} {row : List UInt16} (h : t.row? i = some row)
    (hm : m < t.subspaces) : t.get? i m = row[m]? := by
  rw [row?] at h
  split at h
  · cases h
    rw [Array.toList_extract, List.extract_eq_take_drop, Nat.add_sub_cancel_left,
      List.getElem?_take_of_lt hm, List.getElem?_drop, Array.getElem?_toList, get?]
  · cases h

end Rows

/-! ## The table of some clusterings -/

/-- The codes of vector `i`: what it is assigned to in all the clusterings. -/
def assignedCodes (clusterings : List Clustering) (i : Nat) : List UInt16 :=
  clusterings.map fun x => (x.assignments.getD i 0).toUInt16

/-- The table holds the assignments of the clusterings, all of which are codes. -/
structure Holds (t : CodeTable) (clusterings : List Clustering) : Prop where
  subspaces_eq : t.subspaces = clusterings.length
  size_eq : ∀ x ∈ clusterings, x.assignments.size = t.vectors
  lt_maxCodes : ∀ x ∈ clusterings, ∀ a ∈ x.assignments, a < maxCodes
  codes_eq : t.codes.toList = (List.range t.vectors).flatMap (assignedCodes clusterings)

theorem checkClusterings_eq_ok {vectors m : Nat} {clusterings : List Clustering} :
    checkClusterings vectors m clusterings = .ok () ↔
      ∀ x ∈ clusterings, x.assignments.size = vectors ∧ ∀ a ∈ x.assignments, a < maxCodes := by
  induction clusterings generalizing m with
  | nil => simp [checkClusterings]
  | cons x rest ih =>
    have hover : oversized? x = none ↔ ∀ a ∈ x.assignments, a < maxCodes := by
      simp [oversized?]
    rw [checkClusterings, bind_eq_ok, List.forall_mem_cons, ← hover]
    constructor
    · rintro ⟨u, hu, h⟩
      split at h
      · cases h
      · rename_i hnone
        exact ⟨⟨by simpa using hu, hnone⟩, ih.1 h⟩
    · rintro ⟨⟨hsize, hnone⟩, h⟩
      refine ⟨(), by simpa using hsize, ?_⟩
      rw [hnone]
      exact ih.2 h

/-- What the table of some clusterings holds. -/
theorem holds_ofClusterings {clusterings : List Clustering} {t : CodeTable}
    (h : ofClusterings clusterings = .ok t) :
    t.vectors = (clusterings.head?.map (·.assignments.size)).getD 0 ∧ t.Holds clusterings := by
  obtain ⟨u, hu, h⟩ := bind_eq_ok.1 h
  cases h
  have hall := checkClusterings_eq_ok.1 hu
  exact ⟨rfl, rfl, fun x hx => (hall x hx).1, fun x hx => (hall x hx).2, rfl⟩

/-- When clusterings make a table. -/
theorem exists_ofClusterings {clusterings : List Clustering} {vectors : Nat}
    (hs : ∀ x ∈ clusterings, x.assignments.size = vectors)
    (ha : ∀ x ∈ clusterings, ∀ a ∈ x.assignments, a < maxCodes) :
    ∃ t, ofClusterings clusterings = .ok t := by
  refine ⟨_, bind_eq_ok.2 ⟨(), checkClusterings_eq_ok.2 fun x hx => ⟨?_, ha x hx⟩, rfl⟩⟩
  cases clusterings with
  | nil => cases hx
  | cons first rest => exact (hs x hx).trans (hs first List.mem_cons_self).symm

end CodeTable

/-! ## Both together -/

theorem Codebook.holds_assemble {dim : Nat} {clusterings : List Clustering} {c : Codebook}
    {t : CodeTable} (h : assemble dim clusterings = .ok (c, t)) :
    c.dim = dim ∧ c.Holds clusterings ∧ t.Holds clusterings := by
  obtain ⟨c', hc, h⟩ := bind_eq_ok.1 h
  obtain ⟨t', ht, h⟩ := bind_eq_ok.1 h
  cases h
  obtain ⟨hdim, hc⟩ := holds_ofClusterings hc
  exact ⟨hdim, hc, (CodeTable.holds_ofClusterings ht).2⟩

end ProductQuantization
