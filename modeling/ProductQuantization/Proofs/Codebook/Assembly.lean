import ProductQuantization.Proofs.Codebook.Decoding
import ProductQuantization.Proofs.Codebook.TrainingCodes
import ProductQuantization.Proofs.Options

/-!
# When training succeeds

Training ends with putting the clusterings of the subspaces together into a codebook and a table.
That never fails on clusterings that are settled on the blocks of the data (`exists_assemble`), and
what comes out is a codebook and a table that can be read in every way (`Assembled`).

So once the options have been checked, the only thing that can be wrong is that there are not enough
points (`train_eq_error`), and the error of the codes can be worked out if there is a buffer for the
decoded vectors (`meanSquaredError_eq_error`).
-/

set_option autoImplicit false

namespace ProductQuantization
namespace Codebook

/-- A codebook and a table that have been put together from clusterings of some data, with `size`
centroids each. -/
structure Assembled (data : Matrix) (size : Nat) (clusterings : List Clustering) (c : Codebook)
    (t : CodeTable) : Prop where
  dim_eq : c.dim = data.cols
  size_eq : c.size = size
  vectors_eq : t.vectors = data.rows
  codebook : c.Holds clusterings
  table : t.Holds clusterings
  assigned : Assigned size clusterings

section Assembly

variable {data : Matrix} {size : Nat} {clusterings : List Clustering}

theorem exists_assemble (hsplit : Split data.cols clusterings.length) (hpos : 0 < size)
    (hle : size ≤ maxCodes)
    (hs : SettledOn data (data.cols / clusterings.length) size clusterings) :
    ∃ c t, assemble data.cols clusterings = .ok (c, t) := by
  have hwidth := hsplit.div_ne_zero
  obtain ⟨c, hc⟩ := exists_ofClusterings hsplit.dim_ne_zero hsplit.subspaces_ne_zero
    hsplit.mod_eq_zero hs.rows_eq hs.cols_eq
  obtain ⟨t, ht⟩ := CodeTable.exists_ofClusterings (hs.size_assignments hwidth)
    fun x hx a ha => Nat.lt_of_lt_of_le (hs.assignments_lt hwidth hpos x hx a ha) hle
  rw [assemble, hc, ht]
  exact ⟨c, t, rfl⟩

theorem assembled_of_assemble (hsplit : Split data.cols clusterings.length) (hpos : 0 < size)
    (hs : SettledOn data (data.cols / clusterings.length) size clusterings) {c : Codebook}
    {t : CodeTable} (h : assemble data.cols clusterings = .ok (c, t)) :
    Assembled data size clusterings c t := by
  obtain ⟨hdim, hc, ht⟩ := holds_assemble h
  have hwidth := hsplit.div_ne_zero
  have hmem := List.getElem_mem hc.length_pos
  exact ⟨hdim, (hc.rows_eq _ hmem).symm.trans (hs.rows_eq _ hmem),
    (ht.size_eq _ hmem).symm.trans (hs.size_assignments hwidth _ hmem), hc, ht,
    hs.assignments_lt hwidth hpos⟩

/-- Settled clusterings span the data. -/
theorem spans_of_settledOn (hsplit : Split data.cols clusterings.length) (hpos : 0 < size)
    (hs : SettledOn data (data.cols / clusterings.length) size clusterings) :
    Spans clusterings data.rows data.cols where
  dim_ne_zero := hsplit.dim_ne_zero
  dim_eq := (Nat.mul_div_cancel' (Nat.dvd_of_mod_eq_zero hsplit.mod_eq_zero)).symm
  cols_eq := hs.cols_eq
  assigned x hx i hi := by
    have hsize : i < x.assignments.size := hs.size_assignments hsplit.div_ne_zero x hx ▸ hi
    refine ⟨_, Array.getElem?_eq_getElem hsize, ?_⟩
    rw [hs.rows_eq x hx]
    exact hs.assignments_lt hsplit.div_ne_zero hpos x hx _ (Array.getElem_mem hsize)

namespace Assembled

variable {c : Codebook} {t : CodeTable}

/-- What the codes stand for, if there is a buffer for it. -/
theorem decode_eq (h : Assembled data size clusterings c t) :
    c.decode t = (decoded clusterings data.rows data.cols).buffered := by
  rw [Codebook.decode_eq h.codebook h.table (h.size_eq ▸ h.assigned), h.vectors_eq, h.dim_eq]

/-- The clustering of subspace `m`. -/
theorem clustering_eq (h : Assembled data size clusterings c t) {m : Nat}
    (hm : m < clusterings.length) :
    c.clustering t m = { clusterings[m] with inertia := 0 } :=
  Codebook.clustering_eq h.codebook h.table hm

/-- The width of a subspace. -/
theorem subspaceDim_eq (h : Assembled data size clusterings c t) :
    c.subspaceDim = data.cols / clusterings.length := by
  rw [h.codebook.subspaceDim_eq, h.dim_eq]

theorem spans (h : Assembled data size clusterings c t) :
    Spans clusterings data.rows data.cols := by
  rw [← h.vectors_eq, ← h.dim_eq]
  exact spans_of_holds h.codebook h.table (h.size_eq ▸ h.assigned)

/-- What the codes lose can be worked out, unless there is no buffer for what they stand for. -/
theorem meanSquaredError_eq_error (h : Assembled data size clusterings c t) {e : QuantError}
    (he : c.meanSquaredError data t = .error e) : e = .outOfBounds := by
  rw [meanSquaredError, h.vectors_eq, h.decode_eq] at he
  simp only [decide_true, Result.guard_true, ok_bind] at he
  split at he
  · cases he
  · rcases bind_eq_error.1 he with he | ⟨m, hm, he⟩
    · rcases bind_eq_error.1 he with he | ⟨u, -, he⟩
      · exact (Result.guard_eq_error.1 he).2.symm
      · cases he
    · obtain ⟨-, rfl⟩ := Matrix.buffered_eq_ok.1 hm
      obtain ⟨total, htotal⟩ := Matrix.exists_squaredDistance (a := data)
        (b := decoded clusterings data.rows data.cols) (rows_decoded _ _ _).symm rfl
      rw [htotal] at he
      cases he

end Assembled
end Assembly

/-! ## Training -/

section Training

variable {σ : Type} [RandomSource σ] {data : Matrix}

theorem exists_trainSubspaces {subspaces size : Nat} {kmeans : KMeansOptions} (s : σ)
    (hsplit : Split data.cols subspaces) (hpos : 0 < size) (hn : size ≤ data.rows)
    (hk : kmeans.check = .ok ()) :
    ∃ clusterings, (trainSubspaces data subspaces size kmeans s).1 = .ok clusterings := by
  rw [trainSubspaces, if_neg (Nat.not_lt.2 hn)]
  refine exists_mapM_eq_ok ?_
  rintro ⟨seed, m⟩ hmem
  obtain ⟨hm, -⟩ := List.mem_zipIdx' hmem
  rw [Random.length_words] at hm
  obtain ⟨block, hb⟩ := Matrix.exists_columnBlock (hsplit.block_le hm)
  have hrows := (Matrix.isBlock_of_columnBlock hb).rows_eq
  obtain ⟨c, hc⟩ := Cluster.exists_cluster (ChaCha.ofSeed seed) (Nat.pos_iff_ne_zero.1 hpos)
    (hrows ▸ hn) hk
  exact ⟨c, by simp only [trainSubspace, hb, Result.ofMatrix_ok, ok_bind, hc]⟩

/-- Clustering the subspaces fails only for want of points. -/
theorem trainSubspaces_eq_error {subspaces size : Nat} {kmeans : KMeansOptions} {s : σ}
    {e : QuantError} (hsplit : Split data.cols subspaces) (hpos : 0 < size)
    (hk : kmeans.check = .ok ())
    (h : (trainSubspaces data subspaces size kmeans s).1 = .error e) :
    e = .degenerateInput data.rows size := by
  by_cases hn : data.rows < size
  · rw [trainSubspaces, if_pos hn] at h
    cases h
    rfl
  · obtain ⟨clusterings, hc⟩ := exists_trainSubspaces s hsplit hpos (Nat.le_of_not_lt hn) hk
    cases hc.symm.trans h

/-- **Training with options that make sense fails only for want of points.** -/
theorem train_eq_error {options : QuantizerOptions} {s : σ} {e : QuantError}
    (ho : options.check data.cols = .ok ()) (h : (train data options s).1 = .error e) :
    e = .degenerateInput data.rows options.codebookSize := by
  obtain ⟨hsplit, ⟨-, hbits⟩, hk⟩ := QuantizerOptions.check_eq_ok.1 ho
  have hpos : 0 < options.codebookSize := Nat.pow_pos (by decide)
  have hle : options.codebookSize ≤ maxCodes := Nat.pow_le_pow_right (by decide) hbits
  rw [train, ho] at h
  simp only at h
  split at h
  · rename_i heq
    cases h
    exact trainSubspaces_eq_error hsplit hpos hk (congrArg Prod.fst heq)
  · rename_i clusterings s' heq
    obtain ⟨-, hlen, hs⟩ := settledOn_trainSubspaces (congrArg Prod.fst heq)
    rw [← hlen] at hsplit hs
    obtain ⟨c, t, ha⟩ := exists_assemble hsplit hpos hle hs
    cases ha.symm.trans h

/-- What has been trained. -/
theorem assembled_of_train {options : QuantizerOptions} {s : σ} {c : Codebook} {t : CodeTable}
    (h : (train data options s).1 = .ok (c, t)) :
    ∃ clusterings, clusterings.length = options.subspaces ∧
      Assembled data options.codebookSize clusterings c t := by
  rw [train] at h
  split at h
  · cases h
  · rename_i ho
    split at h
    · cases h
    · rename_i clusterings s' heq
      obtain ⟨-, hlen, hs⟩ := settledOn_trainSubspaces (congrArg Prod.fst heq)
      have hsplit := (QuantizerOptions.check_eq_ok.1 ho).1
      rw [← hlen] at hsplit hs
      exact ⟨clusterings, hlen, assembled_of_assemble hsplit (Nat.pow_pos (by decide)) hs h⟩

end Training

end Codebook
end ProductQuantization
