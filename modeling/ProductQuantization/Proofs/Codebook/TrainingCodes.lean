import ProductQuantization.Proofs.Cluster.Settled
import ProductQuantization.Proofs.Codebook.Layout
import ProductQuantization.Random.Listed

/-!
# Training gives the codes that encoding gives

Training a codebook answers with a table of codes that nobody encoded: it is read off the
clusterings of the subspaces.  Encoding the training data with the codebook looks for the nearest
centroids afresh, in another buffer, cut up in another way.  `encode_of_train` says that the two
tables are the same.

The reason is `encode_of_assemble`: clusterings that are settled on the blocks of columns of some
data (`SettledOn`) make a codebook and a table that agree on that data.  It does not ask where the
clusterings come from, and so it also holds between the rounds in which a rotation is trained.
-/

set_option autoImplicit false

namespace ProductQuantization

open ProductQuantization.Matrix (window)

/-- One clustering for each block of `width` columns of the data, from the left, each of them settled
on its block and with `size` centroids. -/
def SettledOn (data : Matrix) (width size : Nat) (clusterings : List Clustering) : Prop :=
  ∀ (m : Nat) (hm : m < clusterings.length), ∃ block, data.IsBlock (m * width) width block ∧
    clusterings[m].Settled block ∧ clusterings[m].Grouping block size

namespace SettledOn

variable {data : Matrix} {width size : Nat} {clusterings : List Clustering}

theorem rows_eq (h : SettledOn data width size clusterings) :
    ∀ x ∈ clusterings, x.centroids.rows = size := by
  intro x hx
  obtain ⟨m, hm, rfl⟩ := List.mem_iff_getElem.1 hx
  obtain ⟨block, -, -, hg⟩ := h m hm
  exact hg.rows_eq

theorem cols_eq (h : SettledOn data width size clusterings) :
    ∀ x ∈ clusterings, x.centroids.cols = width := by
  intro x hx
  obtain ⟨m, hm, rfl⟩ := List.mem_iff_getElem.1 hx
  obtain ⟨block, hb, -, hg⟩ := h m hm
  exact hg.cols_eq.trans hb.cols_eq

theorem size_assignments (h : SettledOn data width size clusterings) (hw : width ≠ 0) :
    ∀ x ∈ clusterings, x.assignments.size = data.rows := by
  intro x hx
  obtain ⟨m, hm, rfl⟩ := List.mem_iff_getElem.1 hx
  obtain ⟨block, hb, hs, -⟩ := h m hm
  exact (hs.size_assignments (hb.cols_eq ▸ hw)).trans hb.rows_eq

theorem assignments_lt (h : SettledOn data width size clusterings) (hw : width ≠ 0)
    (hk : 0 < size) : ∀ x ∈ clusterings, ∀ a ∈ x.assignments, a < size := by
  intro x hx
  have hr := h.rows_eq x hx
  have hc := h.cols_eq x hx
  obtain ⟨m, hm, rfl⟩ := List.mem_iff_getElem.1 hx
  obtain ⟨block, -, hs, -⟩ := h m hm
  exact hr ▸ hs.assignments_lt (hr ▸ hk) (hc ▸ hw)

end SettledOn

theorem Random.length_words {σ : Type} [RandomSource σ] (count : Nat) (s : σ) :
    (Random.words count s).1.length = count := by
  induction count generalizing s with
  | zero => rfl
  | succ count ih => rw [Random.words, List.length_cons, ih]

namespace Codebook

/-! ## Encoding with the centroids of some clusterings -/

/-- The codes of a vector among the centroids of the clusterings. -/
def nearestCodes (c : Codebook) (clusterings : List Clustering) (vector : Point) : List UInt16 :=
  clusterings.zipIdx.map fun (x, m) =>
    (Cluster.nearest (window (m * c.subspaceDim) c.subspaceDim vector)
      x.centroids.toRows).index.toUInt16

theorem codesAmong?_eq {c : Codebook} {clusterings : List Clustering} (h : c.Holds clusterings)
    {vector : Point} (hv : vector.length = c.dim) :
    c.codesAmong? (clusterings.map fun x => x.centroids.toRows) vector
      = some (c.nearestCodes clusterings vector) := by
  refine mapM_eq_some_of_getElem (by simp [nearestCodes]) fun m h1 h2 => ?_
  have hm : m < clusterings.length := by simpa using h1
  simp only [nearestCodes, List.getElem_zipIdx, List.getElem_map, Nat.zero_add, h.extract?_eq hv hm]
  rfl

/-- **Encoding** with a codebook of clusterings. -/
theorem encode_eq {c : Codebook} {clusterings : List Clustering} (h : c.Holds clusterings)
    {data : Matrix} (hd : data.cols = c.dim) (hr : 0 < data.rows) :
    c.encode data = .ok ⟨data.rows, clusterings.length,
      (data.toRows.flatMap (c.nearestCodes clusterings)).toArray⟩ := by
  have hs : c.subspaces ≠ 0 := Nat.pos_iff_ne_zero.1 h.wellFormed.subspaces_pos
  have hdim : c.dim ≠ 0 := Nat.pos_iff_ne_zero.1 h.wellFormed.dim_pos
  have hfull : data.isEmpty = false := by
    simp [Matrix.isEmpty, hd, hdim, Nat.pos_iff_ne_zero.1 hr]
  have hrows : data.toRows.mapM (c.codesAmong? (clusterings.map fun x => x.centroids.toRows))
      = some (data.toRows.map (c.nearestCodes clusterings)) := by
    refine mapM_eq_some_of_getElem (by simp) fun i h1 h2 => ?_
    rw [List.getElem_map]
    exact codesAmong?_eq h ((Matrix.length_of_mem_toRows (List.getElem_mem h1)).trans hd)
  simp [encode, hd, hs, hfull, Nat.not_lt.2 h.subspaces_le_dim, h.blocks?_eq, hrows,
    ← h.subspaces_eq, List.flatMap_def]

/-- On settled clusterings, assignments are what encoding looks for. -/
theorem assignedCodes_eq {c : Codebook} {clusterings : List Clustering} {data : Matrix}
    {size : Nat} (h : SettledOn data c.subspaceDim size clusterings) (hw : c.subspaceDim ≠ 0)
    (hc : data.cols ≠ 0) {i : Nat} (hi : i < data.toRows.length) :
    CodeTable.assignedCodes clusterings i = c.nearestCodes clusterings data.toRows[i] := by
  refine List.ext_getElem (by simp [CodeTable.assignedCodes, nearestCodes]) fun m h1 h2 => ?_
  have hm : m < clusterings.length := by simpa [CodeTable.assignedCodes] using h1
  obtain ⟨block, hb, hs, -⟩ := h m hm
  have hrows := hb.toRows_eq hw hc
  have hi' : i < block.toRows.length := by rw [hrows, List.length_map]; exact hi
  simp only [CodeTable.assignedCodes, nearestCodes, List.getElem_map, List.getElem_zipIdx,
    Nat.zero_add, hs.getD_assignments hi', hrows]

/-- **The codebook and the table of settled clusterings agree.** -/
theorem encode_of_assemble {data : Matrix} {size : Nat} {clusterings : List Clustering}
    {c : Codebook} {t : CodeTable} (h : assemble data.cols clusterings = .ok (c, t))
    (hr : 0 < data.rows)
    (hs : SettledOn data (data.cols / clusterings.length) size clusterings) :
    c.encode data = .ok t := by
  obtain ⟨hdim, hc, ht⟩ := holds_assemble h
  have hcols : data.cols ≠ 0 := hdim ▸ Nat.pos_iff_ne_zero.1 hc.wellFormed.dim_pos
  have hw := hc.subspaceDim_ne_zero
  rw [← hdim, ← hc.subspaceDim_eq] at hs
  have hvec : t.vectors = data.rows :=
    (ht.size_eq _ (List.getElem_mem hc.length_pos)).symm.trans
      (hs.size_assignments hw _ (List.getElem_mem hc.length_pos))
  have hcodes : (data.toRows.flatMap (c.nearestCodes clusterings)).toArray = t.codes := by
    refine Array.toList_inj.1 ?_
    rw [ht.codes_eq, List.flatMap_def, List.flatMap_def]
    refine congrArg List.flatten (List.ext_getElem ?_ fun i h1 h2 => ?_)
    · rw [List.length_map, List.length_map, List.length_range, hvec, Matrix.length_toRows hcols]
    · rw [List.getElem_map, List.getElem_map, List.getElem_range]
      exact (assignedCodes_eq hs hw hcols _).symm
  rw [encode_eq hc hdim.symm hr, hcodes, ← hvec, ← ht.subspaces_eq]

/-! ## Training -/

section Training

variable {σ : Type} [RandomSource σ]

/-- Clustering every subspace from a cold start leaves settled clusterings. -/
theorem settledOn_trainSubspaces {data : Matrix} {subspaces size : Nat} {kmeans : KMeansOptions}
    {s : σ} {clusterings : List Clustering}
    (h : (trainSubspaces data subspaces size kmeans s).1 = .ok clusterings) :
    size ≤ data.rows ∧ clusterings.length = subspaces ∧
      SettledOn data (data.cols / subspaces) size clusterings := by
  rw [trainSubspaces] at h
  split at h
  · cases h
  · rename_i hn
    obtain ⟨hlen, hall⟩ := List.forall₂_iff_get.1 (mapM_eq_ok.1 h)
    rw [List.length_zipIdx, Random.length_words] at hlen
    refine ⟨Nat.le_of_not_lt hn, hlen.symm, fun m hm => ?_⟩
    obtain ⟨block, hb, hc⟩ := bind_eq_ok.1
      (hall m (by rw [List.length_zipIdx, Random.length_words, hlen]; exact hm) hm)
    obtain ⟨hs, hg⟩ := Cluster.settled_cluster hc
    simp only [List.get_eq_getElem, List.getElem_zipIdx, Nat.zero_add, Result.ofMatrix_eq_ok] at hb
    exact ⟨block, Matrix.isBlock_of_columnBlock hb, hs, hg⟩

/-- **Training gives the codes that encoding gives.**  A trained codebook, asked to encode the data
it was trained on, answers with the table that came with it: whatever the data, the options and the
random source. -/
theorem encode_of_train {data : Matrix} {options : QuantizerOptions} {s : σ} {c : Codebook}
    {t : CodeTable} (h : (train data options s).1 = .ok (c, t)) : c.encode data = .ok t := by
  rw [train] at h
  split at h
  · cases h
  · split at h
    · cases h
    · rename_i clusterings s' heq
      obtain ⟨hn, hlen, hs⟩ := settledOn_trainSubspaces (congrArg Prod.fst heq)
      have hpos : 0 < options.codebookSize := Nat.pow_pos (by decide)
      exact encode_of_assemble h (by omega) (hlen ▸ hs)

end Training

/-- Three points, one of them not a number, in two clusters. -/
theorem encode_of_train_three :
    (train (.stack 1 [[.zero], [.nan], [.one]]) ⟨1, 1, 1, 1, 0.0⟩ (ListedSource.ofList [3])).1
        = .ok (⟨1, 2, 1, 1, #[.nan, .one]⟩, ⟨3, 1, #[1, 0, 1]⟩) ∧
      Codebook.encode ⟨1, 2, 1, 1, #[.nan, .one]⟩ (.stack 1 [[.zero], [.nan], [.one]])
        = .ok ⟨3, 1, #[1, 0, 1]⟩ := by
  have h : (train (.stack 1 [[.zero], [.nan], [.one]]) ⟨1, 1, 1, 1, 0.0⟩
      (ListedSource.ofList [3])).1
        = .ok (⟨1, 2, 1, 1, #[.nan, .one]⟩, ⟨3, 1, #[1, 0, 1]⟩) := by
    decide +kernel
  exact ⟨h, encode_of_train h⟩

end Codebook
end ProductQuantization
