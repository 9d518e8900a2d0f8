import ProductQuantization.Proofs.Codebook.Assembly
import ProductQuantization.Rotation.Train

/-!
# What holds between the rounds

The rounds in which a rotation is trained hand a state on from one to the next: a rotation, one
clustering for each subspace, and the distortions so far.  The clusterings do not belong to the
rotation that stands beside them but to the one before it, so the invariant `State.Fits` names the
rotated data that they are settled on.

What the clusterings stand for is put together by copying their centroids, and is the same that
decoding gives (`reconstruct_eq`).  Every step is then described: `refresh_eq_ok` and `realign_eq_ok`
say what a step that succeeds has done.  Each step keeps the invariant, and so does any number of
rounds (`fits_rounds`), and `exists_refresh` says that refreshing succeeds where there is a buffer for
the data.  At last, `exists_finish` says that a state with the invariant always makes a trained
quantizer, and the lemmas after it how the state is found again in that.
-/

set_option autoImplicit false

namespace ProductQuantization

/-! ## The solver -/

theorem n_svd {a : Array Float} {n : Nat} {f : Svd} (h : svd a n = .ok f) : f.n = n := by
  obtain ⟨u, -, h⟩ := bind_eq_ok.1 h
  obtain ⟨v, -, h⟩ := bind_eq_ok.1 h
  simp only at h
  split at h
  · cases h
    rfl
  · cases h

/-- The solution is square. -/
theorem procrustes_eq_ok {x y r : Matrix} (h : procrustes x y = .ok r) :
    r.rows = x.cols ∧ r.cols = x.cols := by
  obtain ⟨u, -, h⟩ := bind_eq_ok.1 h
  obtain ⟨v, -, h⟩ := bind_eq_ok.1 h
  obtain ⟨w, -, h⟩ := bind_eq_ok.1 h
  obtain ⟨f, hf, h⟩ := bind_eq_ok.1 h
  cases h
  rw [Procrustes.productOfFactors, Matrix.rows_stack, Matrix.cols_stack, List.length_map,
    Svd.rowsOf, List.length_map, List.length_range, n_svd hf]
  exact ⟨rfl, rfl⟩

/-- Vectors are rotated by a square matrix of their dimension, and keep it. -/
theorem exists_applyRotation {data rotation : Matrix} (hr : rotation.rows = data.cols)
    (hc : rotation.cols = data.cols) :
    ∃ rotated, applyRotation data rotation = .ok rotated ∧ rotated.cols = data.cols := by
  obtain ⟨rotated, hmul⟩ := Matrix.exists_mul hr.symm
  obtain ⟨-, -, hcols⟩ := Matrix.mul_eq_ok hmul
  refine ⟨rotated, ?_, hcols.trans hc⟩
  simp [applyRotation, hr, hc, hmul]

namespace RotationTraining

/-! ## What the clusterings stand for -/

open ProductQuantization.Codebook (Spans assignedCentroids decoded)

section Reconstruction

variable {clusterings : List Clustering} {vectors dim : Nat}

theorem length_assignedCentroids (i : Nat) :
    (assignedCentroids clusterings i).length = clusterings.length := List.length_map _

/-- The centroids that point `i` is assigned to are found in their matrices. -/
theorem assigned_eq_ok (h : Spans clusterings vectors dim) {i : Nat} (hi : i < vectors) :
    (clusterings.mapM fun c => do
        let a ← Result.ofIndex c.assignments[i]?
        Result.ofIndex (c.centroids.row? a)) = .ok (assignedCentroids clusterings i) ∧
      ∀ x ∈ assignedCentroids clusterings i, x.length = dim / clusterings.length := by
  have hrow : ∀ c ∈ clusterings, ∃ a, ∃ ha : a < c.centroids.rows, c.assignments[i]? = some a ∧
      c.centroids.toRows.toArray.getD (c.assignments.getD i 0) [] = c.centroids.rowAt ⟨a, ha⟩ := by
    intro c hc
    obtain ⟨a, hsome, ha⟩ := h.assigned c hc i hi
    have hcols : c.centroids.cols ≠ 0 := by
      intro h0
      rw [h.cols_eq c hc] at h0
      exact h.dim_ne_zero (h.dim_eq.trans (by rw [h0, Nat.mul_zero]))
    refine ⟨a, ha, hsome, ?_⟩
    rw [Array.getD_eq_getD_getElem?, Array.getD_eq_getD_getElem?, hsome, Option.getD_some,
      List.getElem?_toArray, Matrix.getElem?_toRows hcols ⟨a, ha⟩, Option.getD_some]
  constructor
  · refine mapM_eq_ok_map fun c hc => ?_
    obtain ⟨a, ha, hsome, hcentroid⟩ := hrow c hc
    rw [hcentroid, hsome, Result.ofIndex_some, ok_bind, c.centroids.row?_eq ⟨a, ha⟩,
      Result.ofIndex_some]
  · refine List.forall_mem_map.2 fun c hc => ?_
    obtain ⟨a, ha, -, hcentroid⟩ := hrow c hc
    rw [hcentroid, Matrix.length_rowAt, h.cols_eq c hc]

/-- **Copying the centroids into a row**, each to its place, puts them side by side. -/
theorem reconstructedRow_eq (h : Spans clusterings vectors dim) {i : Nat} (hi : i < vectors) :
    reconstructedRow clusterings dim i = .ok (assignedCentroids clusterings i).flatten := by
  obtain ⟨hparts, hwidth⟩ := assigned_eq_ok h hi
  have hne : clusterings.length ≠ 0 := fun h0 =>
    h.dim_ne_zero (h.dim_eq.trans (by rw [h0, Nat.zero_mul]))
  have hmax : max clusterings.length 1 = clusterings.length := by omega
  have hsize : (Array.replicate dim Single.zero).size
      = (assignedCentroids clusterings i).length * (dim / clusterings.length) := by
    rw [Array.size_replicate, length_assignedCentroids]
    exact h.dim_eq
  rw [reconstructedRow, hparts, ok_bind, hmax, Codebook.copyBlocks?_eq_some hwidth hsize]
  rfl

/-- **What the clusterings stand for is what decoding makes of them**, if there is a buffer for
it. -/
theorem reconstruct_eq (h : Spans clusterings vectors dim) :
    reconstruct clusterings vectors dim = (decoded clusterings vectors dim).buffered := by
  have hrows : (List.range vectors).mapM (reconstructedRow clusterings dim)
      = .ok ((List.range vectors).map fun i => (assignedCentroids clusterings i).flatten) :=
    mapM_eq_ok_map fun i hi => reconstructedRow_eq h (List.mem_range.1 hi)
  rw [Matrix.buffered, Codebook.rows_decoded, Codebook.cols_decoded]
  simp only [reconstruct, h.dim_ne_zero, if_false, hrows, ok_bind, decoded]

/-- What is put together has the shape that is asked for, and a buffer. -/
theorem shape_of_reconstruct {m : Matrix} (h : reconstruct clusterings vectors dim = .ok m) :
    m.rows = vectors ∧ m.cols = dim ∧ Matrix.fits (vectors * dim) = true := by
  obtain ⟨u, hfits, h⟩ := bind_eq_ok.1 h
  rw [Result.guard_eq_ok] at hfits
  split at h
  · rename_i hdim
    cases h
    exact ⟨rfl, hdim.symm, hfits⟩
  · obtain ⟨rows, hrows, h⟩ := bind_eq_ok.1 h
    cases h
    exact ⟨(mapM_range_eq_ok.1 hrows).1, rfl, hfits⟩

theorem exists_reconstruct (h : Spans clusterings vectors dim)
    (hfits : Matrix.fits (vectors * dim) = true) :
    ∃ m, reconstruct clusterings vectors dim = .ok m := by
  rw [reconstruct_eq h]
  exact ⟨_, Matrix.buffered_eq_ok.2 ⟨by simpa using hfits, rfl⟩⟩

end Reconstruction

/-! ## What a step does -/

/-- Each clustering is refined on its own block of columns. -/
theorem refineAll_eq_ok {rotated : Matrix} {width : Nat} {clusterings next : List Clustering}
    (h : refineAll rotated width clusterings = .ok next) :
    next.length = clusterings.length ∧
      ∀ (m : Nat) (hm : m < clusterings.length) (hn : m < next.length), ∃ block report,
        rotated.columnBlock (m * width) width = .ok block ∧
          Cluster.refine block clusterings[m] = .ok (report, next[m]) := by
  obtain ⟨hlen, hall⟩ := List.forall₂_iff_get.1 (mapM_eq_ok.1 h)
  rw [List.length_zipIdx] at hlen
  refine ⟨hlen.symm, fun m hm hn => ?_⟩
  obtain ⟨block, hb, h⟩ := bind_eq_ok.1 (hall m (by rw [List.length_zipIdx]; exact hm) hn)
  obtain ⟨⟨report, refined⟩, hr, h⟩ := bind_eq_ok.1 h
  have hrefined : refined = next[m] := Except.ok.inj h
  simp only [List.get_eq_getElem, List.getElem_zipIdx, Nat.zero_add, Result.ofMatrix_eq_ok] at hb hr
  exact ⟨block, report, hb, hrefined ▸ hr⟩

theorem record_eq_ok {rotated : Matrix} {st st' : State} :
    record rotated st = .ok st' ↔ ∃ reconstructed d,
      reconstruct st.clusterings rotated.rows rotated.cols = .ok reconstructed ∧
        rotated.squaredDistance reconstructed = .ok d ∧
          st' = { st with distortions := st.distortions ++ [d] } := by
  simp only [record, bind_eq_ok, Result.ofMatrix_eq_ok, Except.ok.injEq, eq_comm (b := st'),
    exists_and_left]

theorem refresh_eq_ok {data : Matrix} {width : Nat} {st st' : State} :
    refresh data width st = .ok st' ↔ ∃ rotated clusterings, data.mul st.rotation = .ok rotated ∧
      refineAll rotated width st.clusterings = .ok clusterings ∧
        record rotated { st with clusterings } = .ok st' := by
  simp only [refresh, bind_eq_ok, Result.ofMatrix_eq_ok, exists_and_left]

theorem realign_eq_ok {data : Matrix} {st st' : State} :
    realign data st = .ok st' ↔ ∃ reconstructed rotation,
      reconstruct st.clusterings data.rows data.cols = .ok reconstructed ∧
        procrustes data reconstructed = .ok rotation ∧ st' = { st with rotation } := by
  simp only [realign, bind_eq_ok, Except.ok.injEq, eq_comm (b := st'), exists_and_left]

/-- The first round only solves for the rotation. -/
theorem rounds_one {data : Matrix} {width : Nat} {st : State} :
    rounds data width st 1 = realign data st := rfl

/-- Every further round refreshes the clusterings and then solves. -/
theorem rounds_succ {data : Matrix} {width : Nat} {start : State} {n : Nat} (hn : n ≠ 0) :
    rounds data width start (n + 1)
      = rounds data width start n >>= fun st => refresh data width st >>= realign data := by
  simp only [rounds, hn, if_false]

theorem rounds_succ_eq_ok {data : Matrix} {width : Nat} {start st' : State} {n : Nat} (hn : n ≠ 0) :
    rounds data width start (n + 1) = .ok st' ↔ ∃ st fresh,
      rounds data width start n = .ok st ∧ refresh data width st = .ok fresh ∧
        realign data fresh = .ok st' := by
  simp only [rounds_succ hn, bind_eq_ok, exists_and_left]

/-- Every round ends with solving for the rotation. -/
theorem realign_of_rounds_succ {data : Matrix} {width : Nat} {start st : State} {n : Nat}
    (h : rounds data width start (n + 1) = .ok st) : ∃ fresh, realign data fresh = .ok st := by
  by_cases hn : n = 0
  · subst hn
    exact ⟨start, h⟩
  · obtain ⟨-, fresh, -, -, hst⟩ := (rounds_succ_eq_ok hn).1 h
    exact ⟨fresh, hst⟩

/-! ## The invariant -/

/-- What training checks before anything else, and that there is a point. -/
structure Trainable (data : Matrix) (options : RotationOptions) : Prop where
  split : Split data.cols options.subspaces
  clusters_pos : 0 < options.clusters
  clusters_le : options.clusters ≤ maxCodes
  rows_pos : 0 < data.rows

/-- What holds between the rounds: the rotation is square, and the clusterings are settled on the
data as it was rotated when they were last refreshed. -/
structure State.Fits (data : Matrix) (options : RotationOptions) (rotated : Matrix)
    (st : State) : Prop where
  rotation_rows : st.rotation.rows = data.cols
  rotation_cols : st.rotation.cols = data.cols
  rotated_rows : rotated.rows = data.rows
  rotated_cols : rotated.cols = data.cols
  length_eq : st.clusterings.length = options.subspaces
  settled : SettledOn rotated (data.cols / options.subspaces) options.clusters st.clusterings

section Invariant

variable {data rotated : Matrix} {options : RotationOptions} {st st' : State}

theorem exists_record (hs : Spans st.clusterings rotated.rows rotated.cols)
    (hfits : Matrix.fits (rotated.rows * rotated.cols) = true) :
    ∃ st', record rotated st = .ok st' := by
  obtain ⟨m, hm⟩ := exists_reconstruct hs hfits
  obtain ⟨hrows, hcols, -⟩ := shape_of_reconstruct hm
  obtain ⟨d, hd⟩ := Matrix.exists_squaredDistance hrows.symm hcols.symm
  exact ⟨_, record_eq_ok.2 ⟨m, d, hm, hd, rfl⟩⟩

theorem fits_start {clusterings : List Clustering} (hlen : clusterings.length = options.subspaces)
    (hs : SettledOn data (data.cols / options.subspaces) options.clusters clusterings)
    (h : start data clusterings = .ok st) : st.Fits data options data := by
  obtain ⟨-, d, -, -, rfl⟩ := record_eq_ok.1 h
  exact ⟨rfl, rfl, rfl, rfl, hlen, hs⟩

/-- Solving for the rotation leaves the clusterings alone. -/
theorem fits_realign (hf : st.Fits data options rotated) (h : realign data st = .ok st') :
    st'.Fits data options rotated := by
  obtain ⟨reconstructed, rotation, -, hr, rfl⟩ := realign_eq_ok.1 h
  obtain ⟨hrows, hcols⟩ := procrustes_eq_ok hr
  exact ⟨hrows, hcols, hf.rotated_rows, hf.rotated_cols, hf.length_eq, hf.settled⟩

theorem settledOn_refineAll {width size : Nat} {clusterings next : List Clustering}
    (h : refineAll rotated width clusterings = .ok next)
    (hr : ∀ x ∈ clusterings, x.centroids.rows = size) : SettledOn rotated width size next := by
  obtain ⟨hlen, hall⟩ := refineAll_eq_ok h
  intro m hm
  obtain ⟨block, report, hb, hrefine⟩ := hall m (hlen ▸ hm) hm
  obtain ⟨hs, hg⟩ := Cluster.settled_refine hrefine (hr _ (List.getElem_mem _))
  exact ⟨block, Matrix.isBlock_of_columnBlock hb, hs, hg⟩

/-- **Refreshing settles the clusterings** on the data as the rotation has it. -/
theorem fits_refresh (hf : st.Fits data options rotated)
    (h : refresh data (data.cols / options.subspaces) st = .ok st') :
    ∃ rotated', data.mul st.rotation = .ok rotated' ∧ st'.Fits data options rotated' := by
  obtain ⟨rotated', clusterings, hmul, hrefine, hrec⟩ := refresh_eq_ok.1 h
  obtain ⟨-, d, -, -, rfl⟩ := record_eq_ok.1 hrec
  obtain ⟨-, hrows, hcols⟩ := Matrix.mul_eq_ok hmul
  exact ⟨rotated', hmul, hf.rotation_rows, hf.rotation_cols, hrows, hcols.trans hf.rotation_cols,
    (refineAll_eq_ok hrefine).1.trans hf.length_eq, settledOn_refineAll hrefine hf.settled.rows_eq⟩

/-- Any number of rounds keeps the invariant, on some rotated data. -/
theorem fits_rounds {start : State} (hf : start.Fits data options rotated) {n : Nat}
    (h : rounds data (data.cols / options.subspaces) start n = .ok st) :
    ∃ rotated', st.Fits data options rotated' := by
  induction n generalizing st with
  | zero =>
    cases h
    exact ⟨rotated, hf⟩
  | succ n ih =>
    by_cases hn : n = 0
    · subst hn
      exact ⟨rotated, fits_realign hf h⟩
    · obtain ⟨st₁, fresh, h₁, hfresh, hst⟩ := (rounds_succ_eq_ok hn).1 h
      obtain ⟨rotated₁, hf₁⟩ := ih h₁
      obtain ⟨rotated₂, -, hf₂⟩ := fits_refresh hf₁ hfresh
      exact ⟨rotated₂, fits_realign hf₂ hst⟩

/-- There is one distortion for the cold start, and the first round adds none. -/
theorem length_distortions {start : State} (hstart : start.distortions.length = 1) {n : Nat}
    {width : Nat} (h : rounds data width start n = .ok st) : st.distortions.length = max 1 n := by
  induction n generalizing st with
  | zero =>
    cases h
    exact hstart
  | succ n ih =>
    by_cases hn : n = 0
    · subst hn
      obtain ⟨-, rotation, -, -, rfl⟩ := realign_eq_ok.1 (rounds_one ▸ h)
      exact hstart
    · obtain ⟨st₁, fresh, h₁, hfresh, hst⟩ := (rounds_succ_eq_ok hn).1 h
      obtain ⟨rotated', clusterings, -, -, hrec⟩ := refresh_eq_ok.1 hfresh
      obtain ⟨-, d, -, -, rfl⟩ := record_eq_ok.1 hrec
      obtain ⟨-, rotation, -, -, rfl⟩ := realign_eq_ok.1 hst
      rw [List.length_append, ih h₁, List.length_singleton]
      omega

end Invariant

/-! ## Steps that cannot fail -/

section Success

variable {data rotated : Matrix} {options : RotationOptions} {st : State}

/-- Every point is assigned, and to a centroid that exists. -/
theorem State.Fits.assignments (ht : Trainable data options) (hf : st.Fits data options rotated) :
    ∀ x ∈ st.clusterings, x.assignments.size = data.rows ∧
      ∀ a ∈ x.assignments, a < options.clusters := fun x hx =>
  ⟨(hf.settled.size_assignments ht.split.div_ne_zero x hx).trans hf.rotated_rows,
    hf.settled.assignments_lt ht.split.div_ne_zero ht.clusters_pos x hx⟩

theorem exists_refineAll (ht : Trainable data options) (hf : st.Fits data options rotated)
    {rotated' : Matrix} (hrows : rotated'.rows = data.rows) (hcols : rotated'.cols = data.cols) :
    ∃ next, refineAll rotated' (data.cols / options.subspaces) st.clusterings = .ok next := by
  refine exists_mapM_eq_ok ?_
  rintro ⟨x, m⟩ hmem
  obtain ⟨hm, hx⟩ := List.mem_zipIdx' hmem
  obtain ⟨block, hb⟩ := Matrix.exists_columnBlock
    (Nat.le_trans (ht.split.block_le (hf.length_eq ▸ hm)) (Nat.le_of_eq hcols.symm))
  have hblock := Matrix.isBlock_of_columnBlock hb
  have hmem : x ∈ st.clusterings := hx ▸ List.getElem_mem hm
  obtain ⟨hsize, hlt⟩ := State.Fits.assignments ht hf x hmem
  obtain ⟨report, next, hrefine⟩ := Cluster.exists_refine
    (hblock.cols_eq.trans (hf.settled.cols_eq x hmem).symm)
    (hblock.rows_eq.trans (hrows.trans hsize.symm)) (hf.settled.rows_eq x hmem ▸ hlt)
  exact ⟨next, by simp [hb, hrefine]⟩

/-- The split, the block widths and the clusterings of a state go together. -/
theorem State.Fits.split (ht : Trainable data options) (hf : st.Fits data options rotated) :
    Split rotated.cols st.clusterings.length ∧
      SettledOn rotated (rotated.cols / st.clusterings.length) options.clusters st.clusterings := by
  rw [hf.rotated_cols, hf.length_eq]
  exact ⟨ht.split, hf.settled⟩

/-- What the clusterings stand for can be put together. -/
theorem State.Fits.spans (ht : Trainable data options) (hf : st.Fits data options rotated) :
    Spans st.clusterings data.rows data.cols := by
  obtain ⟨hsplit, hs⟩ := hf.split ht
  rw [← hf.rotated_rows, ← hf.rotated_cols]
  exact Codebook.spans_of_settledOn hsplit ht.clusters_pos hs

/-- There is a state to start from where there is a buffer for the data. -/
theorem exists_coldStart (ht : Trainable data options)
    (hfits : Matrix.fits (data.rows * data.cols) = true) {clusterings : List Clustering}
    (hlen : clusterings.length = options.subspaces)
    (hs : SettledOn data (data.cols / options.subspaces) options.clusters clusterings) :
    ∃ st, start data clusterings = .ok st := by
  have hsplit := ht.split
  rw [← hlen] at hsplit hs
  exact exists_record (Codebook.spans_of_settledOn hsplit ht.clusters_pos hs) hfits

/-- **Refreshing never fails** where there is a buffer for the data: the shapes go together. -/
theorem exists_refresh (ht : Trainable data options) (hf : st.Fits data options rotated)
    (hfits : Matrix.fits (data.rows * data.cols) = true) :
    ∃ st', refresh data (data.cols / options.subspaces) st = .ok st' := by
  obtain ⟨rotated', hmul⟩ := Matrix.exists_mul hf.rotation_rows.symm
  obtain ⟨-, hrows, hcols⟩ := Matrix.mul_eq_ok hmul
  rw [hf.rotation_cols] at hcols
  obtain ⟨next, hnext⟩ := exists_refineAll ht hf hrows hcols
  have hf' : State.Fits data options rotated' { st with clusterings := next } :=
    ⟨hf.rotation_rows, hf.rotation_cols, hrows, hcols,
      (refineAll_eq_ok hnext).1.trans hf.length_eq, settledOn_refineAll hnext hf.settled.rows_eq⟩
  have hspans := hf'.spans ht
  rw [← hrows, ← hcols] at hspans hfits
  obtain ⟨st', hst'⟩ := exists_record hspans hfits
  exact ⟨st', refresh_eq_ok.2 ⟨rotated', next, hmul, hnext, hst'⟩⟩

/-! ## The trained quantizer -/

/-- A quantizer that holds what a state amounts to. -/
structure State.Held (data : Matrix) (options : RotationOptions) (st : State)
    (q : RotatedQuantizer) : Prop where
  rotation_eq : q.rotation = st.rotation
  distortions_eq : q.distortions = st.distortions
  assembled : Codebook.Assembled data options.clusters st.clusterings q.codebook q.table

/-- **A state with the invariant makes a trained quantizer.** -/
theorem exists_finish (ht : Trainable data options) (hf : st.Fits data options rotated) :
    ∃ q, finish data.cols st = .ok q := by
  obtain ⟨hsplit, hs⟩ := hf.split ht
  obtain ⟨c, t, ha⟩ := Codebook.exists_assemble hsplit ht.clusters_pos ht.clusters_le hs
  rw [finish, ← hf.rotated_cols, ha]
  exact ⟨_, rfl⟩

theorem held_finish (ht : Trainable data options) (hf : st.Fits data options rotated)
    {q : RotatedQuantizer} (h : finish data.cols st = .ok q) : st.Held data options q := by
  obtain ⟨⟨c, t⟩, ha, h⟩ := bind_eq_ok.1 h
  cases h
  obtain ⟨hsplit, hs⟩ := hf.split ht
  obtain ⟨h1, h2, h3, h4, h5, h6⟩ :=
    Codebook.assembled_of_assemble hsplit ht.clusters_pos hs (hf.rotated_cols ▸ ha)
  exact ⟨rfl, rfl, h1.trans hf.rotated_cols, h2, h3.trans hf.rotated_rows, h4, h5, h6⟩

/-- What the codes stand for is what the rotation is solved against. -/
theorem State.Held.decode_eq {q : RotatedQuantizer} (h : st.Held data options q) :
    q.codebook.decode q.table = reconstruct st.clusterings data.rows data.cols := by
  rw [h.assembled.decode_eq, reconstruct_eq h.assembled.spans]

/-- The codes are those of the data as it was rotated for the last refreshing. -/
theorem State.Fits.encode_eq (ht : Trainable data options) (hf : st.Fits data options rotated)
    {q : RotatedQuantizer} (h : finish data.cols st = .ok q) :
    q.codebook.encode rotated = .ok q.table := by
  obtain ⟨⟨c, t⟩, ha, h⟩ := bind_eq_ok.1 h
  cases h
  exact Codebook.encode_of_assemble (hf.rotated_cols ▸ ha) (hf.rotated_rows ▸ ht.rows_pos)
    (hf.split ht).2

end Success

end RotationTraining
end ProductQuantization
