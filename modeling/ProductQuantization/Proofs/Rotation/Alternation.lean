import ProductQuantization.Proofs.Rotation.Rounds
import ProductQuantization.Random.Listed

/-!
# One more round

Training with one more round does what training with fewer rounds did, and then goes on.  From the
outside, with nothing but the trained quantizers to look at, `trained_alternates` says how those of
two numbers of rounds differ (`NextRound`), and which of the two rotations, codebooks and distortions
belong together.

The reason is `exists_start`: all numbers of rounds start from one state, so that the states with the
invariant of the rounds can be compared.
-/

set_option autoImplicit false

namespace ProductQuantization
namespace RotationTraining

section Training

variable {σ : Type} [RandomSource σ]

/-- The quantizer trained in so many rounds, all other options and the random source being fixed. -/
def trained (data : Matrix) (options : RotationOptions) (s : σ) (rounds : Nat) :
    Result RotatedQuantizer :=
  (train data { options with rounds } s).1

/-- What one more round makes of a trained quantizer `q`.  The data is rotated as `q` rotates it.
The new centroids in each subspace are those of one warm pass over the rotated data, from the
centroids and the codes of `q`; the new table are the codes of the rotated data; and what is lost by
them is the distortion that is added. -/
structure NextRound (data : Matrix) (q q' : RotatedQuantizer) (rotated : Matrix) : Prop where
  rotated_eq : data.mul q.rotation = .ok rotated
  dim_eq : q'.codebook.dim = q.codebook.dim
  subspaces_eq : q'.codebook.subspaces = q.codebook.subspaces
  refined : ∀ m < q.codebook.subspaces, ∃ block report next,
    rotated.columnBlock (m * q.codebook.subspaceDim) q.codebook.subspaceDim = .ok block ∧
      Cluster.refine block (q.codebook.clustering q.table m) = .ok (report, next) ∧
        q'.codebook.clustering q'.table m = { next with inertia := 0 }
  encoded : q'.codebook.encode rotated = .ok q'.table
  recorded : ∃ decoded distortion, q'.codebook.decode q'.table = .ok decoded ∧
    rotated.squaredDistance decoded = .ok distortion ∧
      q'.distortions = q.distortions ++ [distortion]

/-! ## One start for all -/

/-- What has been checked, and enough points for the clusters. -/
theorem trainable_of_check {data : Matrix} {options : RotationOptions}
    (h : checkTrainable data.cols options = .ok ()) (hn : options.clusters ≤ data.rows) :
    Trainable data options := by
  obtain ⟨u, hoptions, -⟩ := bind_eq_ok.1 h
  obtain ⟨hsplit, ⟨hne, hle⟩, -⟩ := RotationOptions.check_eq_ok.1 hoptions
  have hpos : 0 < options.clusters := Nat.pos_of_ne_zero hne
  exact ⟨hsplit, hpos, hle, Nat.lt_of_lt_of_le hpos hn⟩

/-- Training starts from a state that has the invariant and does not depend on the rounds. -/
theorem exists_start {data : Matrix} {options : RotationOptions} {s : σ} {n : Nat}
    {q : RotatedQuantizer} (h : trained data options s n = .ok q) :
    Trainable data options ∧ ∃ st : State, st.Fits data options data ∧
      st.rotation = .identity data.cols ∧ st.distortions.length = 1 ∧
        ∀ n, trained data options s n
          = rounds data (data.cols / options.subspaces) st n >>= finish data.cols := by
  rw [trained, train] at h
  split at h
  · cases h
  · rename_i hcheck
    split at h
    · cases h
    · rename_i clusterings s' heq
      obtain ⟨st, hst, h⟩ := bind_eq_ok.1 h
      obtain ⟨hn, hlen, hs⟩ := Codebook.settledOn_trainSubspaces (congrArg Prod.fst heq)
      refine ⟨trainable_of_check hcheck hn, st, fits_start hlen hs hst, ?_⟩
      obtain ⟨-, d, -, -, rfl⟩ := record_eq_ok.1 hst
      refine ⟨rfl, rfl, fun n => ?_⟩
      have hcheck' : checkTrainable data.cols { options with rounds := n } = .ok () := hcheck
      simp only [trained, train, hcheck', heq, hst, ok_bind]

/-- A trained rotation is square, and of the dimension of the data. -/
theorem square_of_train {data : Matrix} {options : RotationOptions} {s : σ} {q : RotatedQuantizer}
    (h : (train data options s).1 = .ok q) :
    q.rotation.rows = data.cols ∧ q.rotation.cols = data.cols := by
  have htrained : trained data options s options.rounds = .ok q := h
  obtain ⟨ht, start, hstart, -, -, hall⟩ := exists_start htrained
  obtain ⟨st, hst, hq⟩ := bind_eq_ok.1 (hall _ ▸ htrained)
  obtain ⟨rotated, hf⟩ := fits_rounds hstart hst
  rw [(held_finish ht hf hq).rotation_eq]
  exact ⟨hf.rotation_rows, hf.rotation_cols⟩

end Training

/-! ## What can go wrong -/

section Errors

variable {data : Matrix} {options : RotationOptions}

/-- Only the solver can fail in a round, if there is a buffer for the data. -/
theorem rounds_eq_error (ht : Trainable data options)
    (hfits : Matrix.fits (data.rows * data.cols) = true) {start : State} {rotated : Matrix}
    (hstart : start.Fits data options rotated) {n : Nat} {e : QuantError}
    (h : rounds data (data.cols / options.subspaces) start n = .error e) :
    ∃ target : Matrix, target.rows = data.rows ∧ target.cols = data.cols ∧
      procrustes data target = .error e := by
  induction n with
  | zero => cases h
  | succ n ih =>
    have hsolver : ∀ {st rotated}, State.Fits data options rotated st →
        realign data st = .error e → ∃ target : Matrix, target.rows = data.rows ∧
          target.cols = data.cols ∧ procrustes data target = .error e := by
      intro st rotated hf hst
      obtain ⟨target, htarget⟩ := exists_reconstruct (hf.spans ht) hfits
      obtain ⟨hrows, hcols, -⟩ := shape_of_reconstruct htarget
      rw [realign, htarget, ok_bind] at hst
      rcases bind_eq_error.1 hst with hst | ⟨r, -, hst⟩
      · exact ⟨target, hrows, hcols, hst⟩
      · cases hst
    by_cases hn : n = 0
    · subst hn
      exact hsolver hstart h
    · rw [rounds_succ hn] at h
      rcases bind_eq_error.1 h with h | ⟨st, hst, h⟩
      · exact ih h
      · obtain ⟨rotated', hf⟩ := fits_rounds hstart hst
        obtain ⟨fresh, hfresh⟩ := exists_refresh ht hf hfits
        obtain ⟨rotated'', -, hf'⟩ := fits_refresh hf hfresh
        rw [hfresh] at h
        exact hsolver hf' h

/-- **Training a rotation fails over the options, for want of points or of a buffer, or in the
solver.** -/
theorem train_eq_error {σ : Type} [RandomSource σ] {s : σ} {e : QuantError}
    (h : (train data options s).1 = .error e) :
    checkTrainable data.cols options = .error e ∨ e = .degenerateInput data.rows options.clusters ∨
      e = .outOfBounds ∨ ∃ target, procrustes data target = .error e := by
  rw [train] at h
  split at h
  · rename_i hcheck
    cases h
    exact .inl hcheck
  · rename_i hcheck
    obtain ⟨u, hoptions, -⟩ := bind_eq_ok.1 hcheck
    obtain ⟨hsplit, ⟨hne, -⟩, hk⟩ := RotationOptions.check_eq_ok.1 hoptions
    split at h
    · rename_i heq
      refine .inr (.inl ?_)
      cases h
      exact Codebook.trainSubspaces_eq_error hsplit (Nat.pos_of_ne_zero hne) hk
        (congrArg Prod.fst heq)
    · rename_i clusterings s' heq
      refine .inr (.inr ?_)
      obtain ⟨hn, hlen, hs⟩ := Codebook.settledOn_trainSubspaces (congrArg Prod.fst heq)
      have ht : Trainable data options := trainable_of_check hcheck hn
      by_cases hfits : Matrix.fits (data.rows * data.cols) = true
      · obtain ⟨st, hst⟩ := exists_coldStart ht hfits hlen hs
        have hf := fits_start hlen hs hst
        rcases bind_eq_error.1 h with h | ⟨st', hst', h⟩
        · cases hst.symm.trans h
        · cases hst.symm.trans hst'
          rcases bind_eq_error.1 h with h | ⟨st'', hst'', h⟩
          · obtain ⟨target, -, -, h⟩ := rounds_eq_error ht hfits hf h
            exact .inr ⟨target, h⟩
          · obtain ⟨rotated', hf'⟩ := fits_rounds hf hst''
            obtain ⟨q, hq⟩ := exists_finish ht hf'
            cases hq.symm.trans h
      · -- the first thing that is put together has the shape of the data
        have hstart : start data clusterings = .error .outOfBounds := by
          rw [start, record, reconstruct, Bool.eq_false_iff.2 hfits]
          rfl
        rw [hstart] at h
        cases h
        exact .inl rfl

end Errors

/-! ## Two states next to each other -/

section Steps

variable {data rotated : Matrix} {options : RotationOptions} {st st' : State}

/-- A warm pass looks at the centroids and the assignments only. -/
theorem refine_inertia (points : Matrix) (c : Clustering) (x : Float) :
    Cluster.refine points { c with inertia := x } = Cluster.refine points c := rfl

/-- What a round after the first one makes of the quantizer. -/
theorem nextRound_of_step (ht : Trainable data options) (hf : st.Fits data options rotated)
    {fresh : State} (hfresh : refresh data (data.cols / options.subspaces) st = .ok fresh)
    (hst : realign data fresh = .ok st') {q q' : RotatedQuantizer}
    (hq : finish data.cols st = .ok q) (hq' : finish data.cols st' = .ok q') :
    ∃ rotated', NextRound data q q' rotated' := by
  obtain ⟨rotated', hmul, hf'⟩ := fits_refresh hf hfresh
  have hf' := fits_realign hf' hst
  have h := held_finish ht hf hq
  have h' := held_finish ht hf' hq'
  obtain ⟨-, rotation, -, -, rfl⟩ := realign_eq_ok.1 hst
  obtain ⟨rotated₁, clusterings, hmul₁, hrefine, hrec⟩ := refresh_eq_ok.1 hfresh
  cases hmul.symm.trans hmul₁
  obtain ⟨reconstructed, d, hreconstructed, hd, rfl⟩ := record_eq_ok.1 hrec
  obtain ⟨hlen, hall⟩ := refineAll_eq_ok hrefine
  have hwidth : q.codebook.subspaceDim = data.cols / options.subspaces := by
    rw [h.assembled.subspaceDim_eq, hf.length_eq]
  refine ⟨rotated', h.rotation_eq ▸ hmul, h'.assembled.dim_eq.trans h.assembled.dim_eq.symm, ?_,
    fun m hm => ?_, hf'.encode_eq ht hq', ?_⟩
  · rw [h'.assembled.codebook.subspaces_eq, h.assembled.codebook.subspaces_eq]
    exact hlen
  · rw [h.assembled.codebook.subspaces_eq] at hm
    obtain ⟨block, report, hb, hr⟩ := hall m hm (hlen ▸ hm)
    refine ⟨block, report, _, hwidth ▸ hb, ?_, h'.assembled.clustering_eq (hlen ▸ hm)⟩
    rw [h.assembled.clustering_eq hm, refine_inertia]
    exact hr
  · refine ⟨reconstructed, d, h'.decode_eq.trans ?_, hd, ?_⟩
    · rw [← hf'.rotated_rows, ← hf'.rotated_cols]
      exact hreconstructed
    · rw [h'.distortions_eq, h.distortions_eq]

/-- After a round, the rotation solves for what the codes stand for. -/
theorem procrustes_of_rounds (ht : Trainable data options) {start : State}
    (hstart : start.Fits data options rotated) {n : Nat}
    (h : rounds data (data.cols / options.subspaces) start (n + 1) = .ok st)
    {q : RotatedQuantizer} (hq : finish data.cols st = .ok q) :
    ∃ decoded, q.codebook.decode q.table = .ok decoded ∧
      procrustes data decoded = .ok q.rotation := by
  obtain ⟨rotated', hf⟩ := fits_rounds hstart h
  have hheld := held_finish ht hf hq
  obtain ⟨fresh, hfresh⟩ := realign_of_rounds_succ h
  obtain ⟨reconstructed, rotation, hreconstructed, hr, rfl⟩ := realign_eq_ok.1 hfresh
  exact ⟨reconstructed, hheld.decode_eq.trans hreconstructed, hheld.rotation_eq ▸ hr⟩

end Steps

/-! ## The trained quantizers -/

section Training

variable {σ : Type} [RandomSource σ]

variable {data : Matrix} {options : RotationOptions} {s : σ} {n : Nat}

/-- The cold start alone. -/
theorem rotation_of_trained_zero {q : RotatedQuantizer} (hq : trained data options s 0 = .ok q) :
    q.rotation = .identity data.cols ∧ q.distortions.length = 1 := by
  obtain ⟨ht, st, hf, hrotation, hlen, hall⟩ := exists_start hq
  rw [hall] at hq
  have hheld := held_finish ht hf hq
  exact ⟨hheld.rotation_eq.trans hrotation, hheld.distortions_eq ▸ hlen⟩

/-- The first round only adds a rotation. -/
theorem exists_trained_zero {q' : RotatedQuantizer} (hq' : trained data options s 1 = .ok q') :
    ∃ q, trained data options s 0 = .ok q ∧ q'.codebook = q.codebook ∧ q'.table = q.table ∧
      q'.distortions = q.distortions := by
  obtain ⟨ht, st, hf, -, -, hall⟩ := exists_start hq'
  obtain ⟨st', hst', hq'⟩ := bind_eq_ok.1 (hall 1 ▸ hq')
  obtain ⟨q, hq⟩ := exists_finish ht hf
  obtain ⟨-, rotation, -, -, rfl⟩ := realign_eq_ok.1 (rounds_one ▸ hst')
  refine ⟨q, (hall 0).trans hq, ?_⟩
  obtain ⟨⟨c, t⟩, ha, hq⟩ := bind_eq_ok.1 hq
  obtain ⟨⟨c', t'⟩, ha', hq'⟩ := bind_eq_ok.1 hq'
  -- putting together looks at the clusterings only, and they are those of the start
  cases ha.symm.trans ha'
  cases hq
  cases hq'
  exact ⟨rfl, rfl, rfl⟩

/-- A round after the first one goes on from a quantizer with one round less. -/
theorem exists_trained_pred (hn : 1 ≤ n) {q' : RotatedQuantizer}
    (hq' : trained data options s (n + 1) = .ok q') :
    ∃ q, trained data options s n = .ok q ∧ ∃ rotated, NextRound data q q' rotated := by
  obtain ⟨ht, start, hstart, -, -, hall⟩ := exists_start hq'
  obtain ⟨st', hst', hq'⟩ := bind_eq_ok.1 (hall (n + 1) ▸ hq')
  obtain ⟨st, fresh, hst, hfresh, hst'⟩ := (rounds_succ_eq_ok (Nat.pos_iff_ne_zero.1 hn)).1 hst'
  obtain ⟨rotated, hf⟩ := fits_rounds hstart hst
  obtain ⟨q, hq⟩ := exists_finish ht hf
  refine ⟨q, (hall n).trans (bind_eq_ok.2 ⟨st, hst, hq⟩), ?_⟩
  exact nextRound_of_step ht hf hfresh hst' hq hq'

/-- After any round, the rotation solves for what the codes stand for. -/
theorem procrustes_of_trained (hn : 1 ≤ n) {q : RotatedQuantizer}
    (hq : trained data options s n = .ok q) :
    ∃ decoded, q.codebook.decode q.table = .ok decoded ∧
      procrustes data decoded = .ok q.rotation := by
  obtain ⟨ht, start, hstart, -, -, hall⟩ := exists_start hq
  obtain ⟨st, hst, hfinish⟩ := bind_eq_ok.1 (hall n ▸ hq)
  obtain ⟨k, rfl⟩ := Nat.exists_eq_succ_of_ne_zero (Nat.pos_iff_ne_zero.1 hn)
  exact procrustes_of_rounds ht hstart hst hfinish

/-- There is a distortion for the cold start, and for every round but the first. -/
theorem length_distortions_of_trained {q : RotatedQuantizer}
    (hq : trained data options s n = .ok q) : q.distortions.length = max 1 n := by
  obtain ⟨ht, start, hstart, -, hlen, hall⟩ := exists_start hq
  obtain ⟨st, hst, hq⟩ := bind_eq_ok.1 (hall n ▸ hq)
  obtain ⟨rotated, hf⟩ := fits_rounds hstart hst
  rw [(held_finish ht hf hq).distortions_eq]
  exact length_distortions hlen hst

/-- **Training alternates, and every number of rounds goes on from the one before.**  Without any
round there is no rotation and one distortion, and the first round only adds a rotation.  Every
further round is a `NextRound`.  The rotation in the end solves for what the codes stand for, while
the codes belong to the rotation before it. -/
theorem trained_alternates (data : Matrix) (options : RotationOptions) (s : σ) :
    (∀ q, trained data options s 0 = .ok q →
      q.rotation = .identity data.cols ∧ q.distortions.length = 1) ∧
    (∀ q', trained data options s 1 = .ok q' → ∃ q, trained data options s 0 = .ok q ∧
      q'.codebook = q.codebook ∧ q'.table = q.table ∧ q'.distortions = q.distortions) ∧
    (∀ n q', 1 ≤ n → trained data options s (n + 1) = .ok q' →
      ∃ q, trained data options s n = .ok q ∧ ∃ rotated, NextRound data q q' rotated) ∧
    (∀ n q, 1 ≤ n → trained data options s n = .ok q →
      ∃ decoded, q.codebook.decode q.table = .ok decoded ∧
        procrustes data decoded = .ok q.rotation) ∧
    (∀ n q, trained data options s n = .ok q → q.distortions.length = max 1 n) := by
  refine ⟨?_, ?_, ?_, ?_, ?_⟩
  · exact fun q hq => rotation_of_trained_zero hq
  · exact fun q' hq' => exists_trained_zero hq'
  · exact fun n q' hn hq' => exists_trained_pred hn hq'
  · exact fun n q hn hq => procrustes_of_trained hn hq
  · exact fun n q hq => length_distortions_of_trained hq

end Training

/-- Two points on a line, in one cluster each: the second round goes on from the first. -/
theorem trained_alternates_segment :
    ∃ q', trained (.stack 1 [[.zero], [.one]]) ⟨1, 2, 0, 1, 1, 0.0⟩ (ListedSource.ofList [3]) 2
        = .ok q' ∧
      ∃ q, trained (.stack 1 [[.zero], [.one]]) ⟨1, 2, 0, 1, 1, 0.0⟩ (ListedSource.ofList [3]) 1
          = .ok q ∧
        ∃ rotated, NextRound (.stack 1 [[.zero], [.one]]) q q' rotated := by
  have h : (trained (.stack 1 [[.zero], [.one]]) ⟨1, 2, 0, 1, 1, 0.0⟩
      (ListedSource.ofList [3]) 2).isOk := by
    decide +kernel
  obtain ⟨q', hq'⟩ := exists_of_isOk h
  exact ⟨q', hq', (trained_alternates _ _ _).2.2.1 1 q' (Nat.le_refl 1) hq'⟩

end RotationTraining
end ProductQuantization
