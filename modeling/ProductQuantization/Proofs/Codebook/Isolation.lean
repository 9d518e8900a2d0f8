import ProductQuantization.Proofs.Codebook.NearestCodes
import ProductQuantization.Proofs.Rotation.TrainingOutcomes

/-!
# Subspaces are trained in isolation

What is trained in a subspace depends on the columns of that subspace, on the options, and on one
word from the random source, and on nothing else.  So two runs on data of one shape, with one
source, agree in every subspace in which the data agree, whatever is in the other columns
(`subspaces_isolated`).

The course of a clustering depends on its data in many ways: how much is drawn to choose the first
centroids, how many rounds there are, which of them are reseated.  None of this gets from one
subspace to another, because each has a source of its own.  Here that is not argued run against run:
`exists_trained_block` says what a subspace holds in terms of its own columns and its own word
alone.
-/

set_option autoImplicit false

namespace ProductQuantization

/-! ## The words of a source -/

namespace Random

variable {σ : Type} [RandomSource σ]

/-- Word `m` of those that a source gives, counted from zero. -/
def wordAt : Nat → σ → UInt64
  | 0, s => (RandomSource.next64 s).1
  | m + 1, s => wordAt m (RandomSource.next64 s).2

theorem getElem?_words {m count : Nat} (hm : m < count) (s : σ) :
    (words count s).1[m]? = some (wordAt m s) := by
  induction count generalizing m s with
  | zero => cases hm
  | succ count ih =>
    cases m with
    | zero => rfl
    | succ m => exact ih (Nat.lt_of_succ_lt_succ hm) _

end Random

/-! ## Matrices that agree in some columns -/

namespace Matrix

/-- Two matrices of one shape that are the same in the columns from `start` on, `width` of them. -/
structure SameColumns (start width : Nat) (a b : Matrix) : Prop where
  rows_eq : a.rows = b.rows
  cols_eq : a.cols = b.cols
  get?_eq : ∀ i j, i < a.rows → start ≤ j → j < start + width → a.get? i j = b.get? i j

theorem SameColumns.columnBlock_eq {start width : Nat} {a b : Matrix}
    (h : SameColumns start width a b) : a.columnBlock start width = b.columnBlock start width := by
  obtain ⟨rows, cols, dataA, hsizeA⟩ := a
  obtain ⟨rows', cols', dataB, hsizeB⟩ := b
  obtain ⟨hrows, hcols, hget⟩ := h
  cases hrows
  cases hcols
  by_cases hin : start + width ≤ cols
  · rw [columnBlock, columnBlock, dif_pos hin, dif_pos hin]
    congr 2
    funext i j
    have hj : start + j < cols := by omega
    have hplace := hget i (start + j) i.isLt (Nat.le_add_right _ _) (by omega)
    have ha := get?_eq_entry ⟨rows, cols, dataA, hsizeA⟩ i ⟨start + j, hj⟩
    have hb := get?_eq_entry ⟨rows, cols, dataB, hsizeB⟩ i ⟨start + j, hj⟩
    exact Option.some_inj.1 (ha.symm.trans (hplace.trans hb))
  · rw [columnBlock, columnBlock, dif_neg hin, dif_neg hin]

end Matrix

/-! ## Reading one subspace -/

/-- The centroids of subspace `m`. -/
theorem Codebook.Holds.subspace?_eq {c : Codebook} {clusterings : List Clustering}
    (h : c.Holds clusterings) {m : Nat} (hm : m < clusterings.length) :
    c.subspace? m = some clusterings[m].centroids.data.toList := by
  have hmem := List.getElem_mem hm
  have hlen := length_data_of_shape (h.rows_eq _ hmem) (h.cols_eq _ hmem)
  have hslice := h.slice?_eq hm (Nat.le_of_eq (Nat.zero_add (c.size * c.subspaceDim)))
  rw [Nat.add_zero, List.drop_zero, List.take_of_length_le (Nat.le_of_eq hlen)] at hslice
  rw [subspace?, Nat.mul_assoc, hslice]

/-- The codes in subspace `m`. -/
theorem CodeTable.Holds.column?_eq {t : CodeTable} {clusterings : List Clustering}
    (h : t.Holds clusterings) {m : Nat} (hm : m < clusterings.length) :
    t.column? m = some (clusterings[m].assignments.toList.map Nat.toUInt16) := by
  have hsize := h.size_eq _ (List.getElem_mem hm)
  have hwidth : ∀ i ∈ List.range t.vectors,
      (assignedCodes clusterings i).length = t.subspaces := fun i _ => by
    rw [assignedCodes, List.length_map, h.subspaces_eq]
  refine mapM_eq_some_of_getElem (by simp [hsize]) fun i h1 h2 => ?_
  have hrow := row?_of_flatMap h.codes_eq hwidth h1
  rw [List.getElem_range] at hrow ⊢
  rw [get?_of_row? hrow (h.subspaces_eq ▸ hm)]
  have hi : i < clusterings[m].assignments.size := by simpa using h2
  simp [assignedCodes, List.getElem?_eq_getElem hm, Array.getElem?_eq_getElem hi]

namespace Codebook

variable {σ : Type} [RandomSource σ] {data : Matrix}

/-! ## One subspace of a run -/

/-- Each subspace has been clustered on its own, with its own word as the seed. -/
theorem getElem_trainSubspaces {subspaces size : Nat} {kmeans : KMeansOptions} {s : σ}
    {clusterings : List Clustering}
    (h : (trainSubspaces data subspaces size kmeans s).1 = .ok clusterings) {m : Nat}
    (hm : m < clusterings.length) :
    trainSubspace data (data.cols / subspaces) size kmeans m (Random.wordAt m s)
      = .ok clusterings[m] := by
  rw [trainSubspaces] at h
  split at h
  · cases h
  · obtain ⟨hlen, hall⟩ := List.forall₂_iff_get.1 (mapM_eq_ok.1 h)
    rw [List.length_zipIdx] at hlen
    have hm' : m < (Random.words subspaces s).1.length := hlen ▸ hm
    have hword := Random.getElem?_words (Random.length_words subspaces s ▸ hm') s
    rw [List.getElem?_eq_getElem hm', Option.some_inj] at hword
    have hstep := hall m (by rwa [List.length_zipIdx]) hm
    simpa [hword] using hstep

/-- **What a subspace holds** after training: the centroids and the assignments of the clustering of
its own columns, seeded with its own word. -/
theorem exists_trained_block {options : QuantizerOptions} {m : Nat}
    (ho : options.check data.cols = .ok ()) (hn : options.codebookSize ≤ data.rows)
    (hm : m < options.subspaces) (s : σ) :
    ∃ c t block x, (train data options s).1 = .ok (c, t) ∧
      data.columnBlock (m * (data.cols / options.subspaces)) (data.cols / options.subspaces)
        = .ok block ∧
      (Cluster.cluster block options.codebookSize options.kmeans
        (ChaCha.ofSeed (Random.wordAt m s))).1 = .ok x ∧
      c.subspace? m = some x.centroids.data.toList ∧
      t.column? m = some (x.assignments.toList.map Nat.toUInt16) ∧
      ∀ a ∈ x.assignments, a < maxCodes := by
  obtain ⟨c, t, htrain⟩ := (train_outcome data options s).trained ho hn
  have h := htrain
  rw [train, ho] at h
  simp only at h
  split at h
  · cases h
  · rename_i clusterings s' hclusterings
    obtain ⟨-, hc, ht⟩ := holds_assemble (Prod.mk.inj h).1
    have hlen := (settledOn_trainSubspaces (congrArg Prod.fst hclusterings)).2.1
    have hm' : m < clusterings.length := hlen ▸ hm
    obtain ⟨block, hblock, hx⟩ := bind_eq_ok.1
      (getElem_trainSubspaces (congrArg Prod.fst hclusterings) hm')
    exact ⟨c, t, block, clusterings[m], congrArg Prod.fst htrain, Result.ofMatrix_eq_ok.1 hblock,
      hx, hc.subspace?_eq hm', ht.column?_eq hm', ht.lt_maxCodes _ (List.getElem_mem hm')⟩

/-! ## Two runs -/

/-- **Subspaces are trained in isolation.**  On data of one shape that agree in the columns of
subspace `m`, with options that make sense and enough points, training from one source gives the
same centroids and the same codes in subspace `m`, whatever is in the other columns.  They are what
the clustering of these columns gives with a source that is seeded with word `m`.  Without enough
points, both runs fail in the same way. -/
theorem subspaces_isolated {data' : Matrix} {options : QuantizerOptions} {m : Nat} (s : σ)
    (ho : options.check data.cols = .ok ()) (hm : m < options.subspaces)
    (h : Matrix.SameColumns (m * (data.cols / options.subspaces)) (data.cols / options.subspaces)
      data data') :
    (data.rows < options.codebookSize →
      (train data options s).1 = .error (.degenerateInput data.rows options.codebookSize) ∧
      (train data' options s).1 = (train data options s).1) ∧
    (options.codebookSize ≤ data.rows → ∃ c t c' t' block x,
      (train data options s).1 = .ok (c, t) ∧ (train data' options s).1 = .ok (c', t') ∧
      data.columnBlock (m * (data.cols / options.subspaces)) (data.cols / options.subspaces)
        = .ok block ∧
      (Cluster.cluster block options.codebookSize options.kmeans
        (ChaCha.ofSeed (Random.wordAt m s))).1 = .ok x ∧
      c.subspace? m = some x.centroids.data.toList ∧ c'.subspace? m = c.subspace? m ∧
      t.column? m = some (x.assignments.toList.map Nat.toUInt16) ∧ t'.column? m = t.column? m ∧
      ∀ a ∈ x.assignments, a < maxCodes) := by
  have ho' : options.check data'.cols = .ok () := h.cols_eq ▸ ho
  refine ⟨fun hn => ?_, fun hn => ?_⟩
  · rw [(train_outcome data options s).degenerate ho hn,
      (train_outcome data' options s).degenerate ho' (h.rows_eq ▸ hn), h.rows_eq]
    exact ⟨rfl, rfl⟩
  · obtain ⟨c, t, block, x, htrain, hblock, hx, hc, ht, hlt⟩ := exists_trained_block ho hn hm s
    obtain ⟨c', t', block', x', htrain', hblock', hx', hc', ht', -⟩ :=
      exists_trained_block ho' (h.rows_eq ▸ hn) hm s
    rw [← h.cols_eq, ← h.columnBlock_eq] at hblock'
    cases hblock.symm.trans hblock'
    cases hx.symm.trans hx'
    exact ⟨c, t, c', t', block, x, htrain, htrain', hblock, hx, hc, hc'.trans hc.symm, ht,
      ht'.trans ht.symm, hlt⟩

/-- Two points in the plane, and two others with the same first components. -/
theorem subspaces_isolated_line : ∃ c t c' t',
    (train (.stack 2 [[.zero, .zero], [.one, .one]]) ⟨2, 1, 1, 1, 0.0⟩
      (ListedSource.ofList [3, 5])).1 = .ok (c, t) ∧
    (train (.stack 2 [[.zero, .nan], [.one, .zero]]) ⟨2, 1, 1, 1, 0.0⟩
      (ListedSource.ofList [3, 5])).1 = .ok (c', t') ∧
    c'.subspace? 0 = c.subspace? 0 ∧ t'.column? 0 = t.column? 0 := by
  have ho : QuantizerOptions.check ⟨2, 1, 1, 1, 0.0⟩
      (Matrix.stack 2 [[.zero, .zero], [.one, .one]]).cols = .ok () := by decide +kernel
  have hsame : Matrix.SameColumns (0 * (2 / 2)) (2 / 2)
      (.stack 2 [[.zero, .zero], [.one, .one]]) (.stack 2 [[.zero, .nan], [.one, .zero]]) := by
    refine ⟨rfl, rfl, fun i j hi _ hj => ?_⟩
    interval_cases j
    revert i
    decide
  obtain ⟨c, t, c', t', -, -, h, h', -, -, -, hc, -, ht, -⟩ :=
    (subspaces_isolated (ListedSource.ofList [3, 5]) ho (by decide : 0 < 2) hsame).2 (by decide)
  exact ⟨c, t, c', t', h, h', hc, ht⟩

end Codebook
end ProductQuantization
