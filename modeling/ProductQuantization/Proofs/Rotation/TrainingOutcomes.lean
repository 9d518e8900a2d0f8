import ProductQuantization.Proofs.Rotation.Alternation
import ProductQuantization.Proofs.Rotation.CrossCovariance

/-!
# What training ends in

Training checks everything that can be wrong with its options, and whether there are enough points,
before it draws anything.  After that a codebook is always trained, and a rotation is unless its
solver gives up; and the random source has given one word for each subspace, whatever the data.

That nothing else can happen rests on indices being in range throughout.  A run of k-means passes
through many clusterings that nobody gets to see, so they are named: `Cluster.Visited` are all those
that a run may pass through, and `inRange_of_visited` says that each of them has a centroid for every
assignment and an assignment for every point.  `inRange_of_rounds` says the same of the clusterings
between the rounds in which a rotation is trained.

Two limits remain, and both are about the size of buffers: a rotation needs a buffer of the square of
the dimension before anything else, even if there are not enough points, and the solver needs one of
twice the bytes.  What the codes stand for needs a buffer as well, but one of the size of the data.
-/

set_option autoImplicit false

namespace ProductQuantization

open Clustering

/-! ## Clusterings on the way -/

/-- The clusterings that a run of k-means may pass through: the one that seeds determine, and what
comes of moving the centroids and assigning the points again. -/
inductive Cluster.Visited (points : Matrix) (k : Nat) : Clustering → Prop where
  | seeded {chosen : List (Fin points.rows)} (h : chosen.length = k) :
    Visited points k (settle points (points.selectRows chosen))
  | moved {c : Clustering} (h : Visited points k c) :
    Visited points k (settle points (advance points c))

/-- Whatever a step of clustering looks up is there: `k` centroids of the width of the points, which
is not zero, and for each of the points one of them. -/
structure Clustering.InRange (points width k : Nat) (c : Clustering) : Prop where
  rows_eq : c.centroids.rows = k
  cols_eq : c.centroids.cols = width
  width_ne_zero : width ≠ 0
  size_eq : c.assignments.size = points
  lt_of_mem : ∀ a ∈ c.assignments, a < k

namespace Cluster

variable {points : Matrix} {k : Nat}

/-- Settled clusterings of the right shape have everything in range. -/
theorem inRange_of_settled {c : Clustering} (hs : c.Settled points) (hg : c.Grouping points k)
    (hk : 0 < k) (hw : points.cols ≠ 0) : c.InRange points.rows points.cols k where
  rows_eq := hg.rows_eq
  cols_eq := hg.cols_eq
  width_ne_zero := hw
  size_eq := hs.size_assignments hw
  lt_of_mem := hg.rows_eq ▸ hs.assignments_lt (hg.rows_eq ▸ hk) (hg.cols_eq ▸ hw)

theorem settled_of_visited {c : Clustering} (h : Visited points k c) :
    c.Settled points ∧ c.Grouping points k := by
  induction h with
  | seeded hlen =>
    refine ⟨settled_settle _ _, ?_, rfl⟩
    rw [centroids_settle, Matrix.selectRows, Matrix.rows_stack, List.length_map, hlen]
  | moved _ ih => exact ⟨settled_settle _ _, grouping_advance ih.2⟩

/-- **Indices are in range all the way.** -/
theorem inRange_of_visited {c : Clustering} (hk : 0 < k) (hw : points.cols ≠ 0)
    (h : Visited points k c) : c.InRange points.rows points.cols k :=
  inRange_of_settled (settled_of_visited h).1 (settled_of_visited h).2 hk hw

theorem visited_iterate (tolerance : Float) (n : Nat) {c : Clustering} (h : Visited points k c) :
    Visited points k (iterate points tolerance n c) := by
  induction n generalizing c with
  | zero => exact h
  | succ n ih =>
    rw [iterate]
    split
    · exact h.moved
    · exact ih h.moved

/-- A run passes through visited clusterings only, down to the last one. -/
theorem visited_run {σ : Type} [RandomSource σ] (hn : 0 < points.rows) (hk : k ≠ 0)
    (options : KMeansOptions) (s : σ) : Visited points k (run points hn k options s).1 := by
  rw [run]
  exact visited_iterate _ _ (.seeded (Seeding.length_seeds points hn hk s))

end Cluster

/-! ## The solver -/

/-- Factorizing a square matrix fails over its numbers only. -/
theorem svd_eq_error {a : Array Float} {n : Nat} {e : QuantError} (ha : a.size = n * n)
    (h : svd a n = .error e) : ∃ fault, e = .numerical fault := by
  rw [svd, ha] at h
  rcases bind_eq_error.1 h with h | ⟨u, -, h⟩
  · simp at h
  · rcases bind_eq_error.1 h with h | ⟨v, -, h⟩
    · exact ⟨_, (Result.guard_eq_error.1 h).2.symm⟩
    · simp only at h
      split at h
      · cases h
      · cases h
        exact ⟨_, rfl⟩

/-- **The solver fails over the numbers only**, if the shapes go together and a buffer can be had. -/
theorem procrustes_eq_error {x y : Matrix} {e : QuantError} (hcols : x.cols = y.cols)
    (hrows : x.rows = y.rows) (hfits : Matrix.fits (2 * (x.cols * x.cols)) = true)
    (h : procrustes x y = .error e) : ∃ fault, e = .numerical fault := by
  rw [procrustes, decide_eq_true hcols, decide_eq_true hrows, hfits] at h
  simp only [Result.guard_true, ok_bind] at h
  rcases bind_eq_error.1 h with h | ⟨f, -, h⟩
  · exact svd_eq_error (Procrustes.isSquare_crossCovariance hcols).size_flatten h
  · cases h

/-! ## What is drawn -/

namespace Codebook

variable {σ : Type} [RandomSource σ] {data : Matrix}

/-- Clustering the subspaces draws one word for each of them, before anything depends on the data. -/
theorem trainSubspaces_snd {subspaces size : Nat} (kmeans : KMeansOptions) (s : σ)
    (hn : size ≤ data.rows) :
    (trainSubspaces data subspaces size kmeans s).2 = (Random.words subspaces s).2 := by
  rw [trainSubspaces, if_neg (Nat.not_lt.2 hn)]

/-- What training a codebook ends in.  It fails over the options or for want of points, and then
nothing has been drawn; otherwise there is a codebook with its codes, one word has been drawn for each
subspace, and whatever the runs on a subspace have looked up was there. -/
structure TrainOutcome (data : Matrix) (options : QuantizerOptions) (s : σ) : Prop where
  refused : ∀ e, options.check data.cols = .error e → train data options s = (.error e, s)
  degenerate : options.check data.cols = .ok () → data.rows < options.codebookSize →
    train data options s = (.error (.degenerateInput data.rows options.codebookSize), s)
  trained : options.check data.cols = .ok () → options.codebookSize ≤ data.rows →
    ∃ c t, train data options s = (.ok (c, t), (Random.words options.subspaces s).2)
  inRange : options.check data.cols = .ok () → options.codebookSize ≤ data.rows →
    ∀ m < options.subspaces, ∃ block,
      data.columnBlock (m * (data.cols / options.subspaces)) (data.cols / options.subspaces)
        = .ok block ∧
      (∀ (hn : 0 < block.rows) (own : ChaCha), Cluster.Visited block options.codebookSize
        (Cluster.run block hn options.codebookSize options.kmeans own).1) ∧
      ∀ c, Cluster.Visited block options.codebookSize c →
        c.InRange data.rows (data.cols / options.subspaces) options.codebookSize

/-- **Every outcome of training a codebook.** -/
theorem train_outcome (data : Matrix) (options : QuantizerOptions) (s : σ) :
    TrainOutcome data options s where
  refused e he := by rw [train, he]
  degenerate ho hn := by
    rw [train, ho]
    simp only [trainSubspaces, if_pos hn]
  trained ho hn := by
    obtain ⟨hsplit, ⟨-, hbits⟩, hk⟩ := QuantizerOptions.check_eq_ok.1 ho
    have hpos : 0 < options.codebookSize := Nat.pow_pos (by decide)
    have hle : options.codebookSize ≤ maxCodes := Nat.pow_le_pow_right (by decide) hbits
    obtain ⟨clusterings, hc⟩ := exists_trainSubspaces s hsplit hpos hn hk
    obtain ⟨-, hlen, hs⟩ := settledOn_trainSubspaces hc
    rw [← hlen] at hsplit hs
    obtain ⟨c, t, ha⟩ := exists_assemble hsplit hpos hle hs
    refine ⟨c, t, ?_⟩
    have hdrawn : trainSubspaces data options.subspaces options.codebookSize options.kmeans s
        = (.ok clusterings, (Random.words options.subspaces s).2) :=
      Prod.ext hc (trainSubspaces_snd options.kmeans s hn)
    simp only [train, ho, hdrawn, ha]
  inRange ho hn m hm := by
    have hsplit := (QuantizerOptions.check_eq_ok.1 ho).1
    have hpos : 0 < options.codebookSize := Nat.pow_pos (by decide)
    obtain ⟨block, hb⟩ := Matrix.exists_columnBlock (hsplit.block_le hm)
    have hblock := Matrix.isBlock_of_columnBlock hb
    refine ⟨block, hb, fun hn own => ?_, fun c hc => ?_⟩
    · exact Cluster.visited_run hn (Nat.pos_iff_ne_zero.1 hpos) options.kmeans own
    · have hwidth := hsplit.div_ne_zero
      rw [← hblock.cols_eq] at hwidth ⊢
      rw [← hblock.rows_eq]
      exact Cluster.inRange_of_visited hpos hwidth hc

end Codebook

namespace RotationTraining

variable {σ : Type} [RandomSource σ] {data : Matrix} {options : RotationOptions}

theorem checkTrainable_eq_ok (ho : options.check data.cols = .ok ())
    (hfits : Matrix.fits (data.cols * data.cols) = true) :
    checkTrainable data.cols options = .ok () := by
  rw [checkTrainable, ho, hfits]
  rfl

theorem rows_pos_of_check (ho : options.check data.cols = .ok ()) : 0 < options.clusters :=
  Nat.pos_of_ne_zero (RotationOptions.check_eq_ok.1 ho).2.1.1

/-- The clusterings of the subspaces that training starts from. -/
theorem exists_clusterings_of_check (s : σ) (hcheck : checkTrainable data.cols options = .ok ())
    (hn : options.clusters ≤ data.rows) :
    ∃ clusterings, Codebook.trainSubspaces data options.subspaces options.clusters options.kmeans s
        = (.ok clusterings, (Random.words options.subspaces s).2) := by
  obtain ⟨u, ho, -⟩ := bind_eq_ok.1 hcheck
  obtain ⟨hsplit, -, hk⟩ := RotationOptions.check_eq_ok.1 ho
  obtain ⟨clusterings, hc⟩ :=
    Codebook.exists_trainSubspaces s hsplit (rows_pos_of_check ho) hn hk
  exact ⟨clusterings, Prod.ext hc (Codebook.trainSubspaces_snd options.kmeans s hn)⟩

/-- **Indices are in range between the rounds.** -/
theorem inRange_of_rounds {s : σ} (hcheck : checkTrainable data.cols options = .ok ())
    (hn : options.clusters ≤ data.rows) {clusterings : List Clustering} {st st' : State} {n : Nat}
    (hc : (Codebook.trainSubspaces data options.subspaces options.clusters options.kmeans s).1
      = .ok clusterings) (hst : start data clusterings = .ok st)
    (hst' : rounds data (data.cols / options.subspaces) st n = .ok st') :
    ∀ c ∈ st'.clusterings,
      c.InRange data.rows (data.cols / options.subspaces) options.clusters := by
  have ht : Trainable data options := trainable_of_check hcheck hn
  obtain ⟨-, hlen, hs⟩ := Codebook.settledOn_trainSubspaces hc
  obtain ⟨rotated, hf⟩ := fits_rounds (fits_start hlen hs hst) hst'
  intro c hmem
  obtain ⟨hsize, hlt⟩ := State.Fits.assignments ht hf c hmem
  exact ⟨hf.settled.rows_eq c hmem, hf.settled.cols_eq c hmem, ht.split.div_ne_zero, hsize, hlt⟩

/-- What training a rotation ends in.  It fails over the options or for want of points, and then
nothing has been drawn.  Otherwise one word has been drawn for each subspace, however many rounds there
are and whether or not the solver gives up in one of them, which is all that can go wrong; and
whatever is looked up between the rounds is there. -/
structure TrainOutcome (data : Matrix) (options : RotationOptions) (s : σ) : Prop where
  refused : ∀ e, options.check data.cols = .error e → train data options s = (.error e, s)
  /-- A buffer for the rotation is asked for first. -/
  degenerate : options.check data.cols = .ok () → Matrix.fits (data.cols * data.cols) = true →
    data.rows < options.clusters →
      train data options s = (.error (.degenerateInput data.rows options.clusters), s)
  drawn : options.check data.cols = .ok () → Matrix.fits (data.cols * data.cols) = true →
    options.clusters ≤ data.rows →
      (train data options s).2 = (Random.words options.subspaces s).2
  /-- What the codes stand for needs a buffer, which is there if it is there for the data, and the
  solver needs one of its own. -/
  trained : options.check data.cols = .ok () → Matrix.fits (data.cols * data.cols) = true →
    options.clusters ≤ data.rows → Matrix.fits (data.rows * data.cols) = true →
      options.rounds = 0 ∨ Matrix.fits (2 * (data.cols * data.cols)) = true →
        (∃ q, (train data options s).1 = .ok q) ∨
          ∃ fault, (train data options s).1 = .error (.numerical fault)
  inRange : options.check data.cols = .ok () → Matrix.fits (data.cols * data.cols) = true →
    options.clusters ≤ data.rows → ∀ clusterings st n st',
      (Codebook.trainSubspaces data options.subspaces options.clusters options.kmeans s).1
        = .ok clusterings →
      start data clusterings = .ok st →
      rounds data (data.cols / options.subspaces) st n = .ok st' →
      ∀ c ∈ st'.clusterings,
        c.InRange data.rows (data.cols / options.subspaces) options.clusters

/-- **Every outcome of training a rotation**, as far as the buffers go. -/
theorem train_outcome (data : Matrix) (options : RotationOptions) (s : σ) :
    TrainOutcome data options s where
  refused e he := by
    rw [train, checkTrainable, he]
    rfl
  degenerate ho hfits hn := by
    rw [train, checkTrainable_eq_ok ho hfits]
    simp only [Codebook.trainSubspaces, if_pos hn]
  drawn ho hfits hn := by
    have hcheck := checkTrainable_eq_ok ho hfits
    obtain ⟨clusterings, hdrawn⟩ := exists_clusterings_of_check s hcheck hn
    simp only [train, hcheck, hdrawn]
  trained ho hfits hn hdata hsolver := by
    have hcheck := checkTrainable_eq_ok ho hfits
    obtain ⟨clusterings, hdrawn⟩ := exists_clusterings_of_check s hcheck hn
    obtain ⟨-, hlen, hs⟩ := Codebook.settledOn_trainSubspaces (congrArg Prod.fst hdrawn)
    have ht : Trainable data options := trainable_of_check hcheck hn
    obtain ⟨st, hst⟩ := exists_coldStart ht hdata hlen hs
    have hf := fits_start hlen hs hst
    have htrain : (train data options s).1
        = rounds data (data.cols / options.subspaces) st options.rounds >>= finish data.cols := by
      simp only [train, hcheck, hdrawn, hst, ok_bind]
    rw [htrain]
    cases hr : rounds data (data.cols / options.subspaces) st options.rounds with
    | ok st' =>
      obtain ⟨rotated, hf'⟩ := fits_rounds hf hr
      exact .inl (exists_finish ht hf')
    | error e =>
      rcases hsolver with hzero | hfits'
      · rw [hzero] at hr
        cases hr
      · obtain ⟨target, hrows, hcols, htarget⟩ := rounds_eq_error ht hdata hf hr
        obtain ⟨fault, rfl⟩ := procrustes_eq_error hcols.symm hrows.symm hfits' htarget
        exact .inr ⟨fault, rfl⟩
  inRange ho hfits hn clusterings st n st' hc hst hst' :=
    inRange_of_rounds (checkTrainable_eq_ok ho hfits) hn hc hst hst'

end RotationTraining

/-! ## Both kinds of training -/

/-- **Training has exactly these outcomes**, whatever the data, the options and the random source. -/
theorem training_outcomes {σ : Type} [RandomSource σ] (data : Matrix) (s : σ) :
    (∀ options, Codebook.TrainOutcome data options s) ∧
      ∀ options, RotationTraining.TrainOutcome data options s :=
  ⟨fun options => Codebook.train_outcome data options s,
    fun options => RotationTraining.train_outcome data options s⟩

/-- For a rotation it matters that a buffer can be had, and a solver that gives up does so after the
words have been drawn. -/
theorem training_outcomes_limits :
    (¬ ∀ (data : Matrix) (options : RotationOptions) (s : ListedSource),
      options.check data.cols = .ok () → data.rows < options.clusters →
        (RotationTraining.train data options s).1
          = .error (.degenerateInput data.rows options.clusters)) ∧
    ¬ ∀ (data : Matrix) (options : RotationOptions) (s : ListedSource) (e : QuantError),
      (RotationTraining.train data options s).1 = .error e →
        (RotationTraining.train data options s).2 = s := by
  constructor
  · intro h
    have hwide := h (.zeros 0 2147483648) ⟨1, 1, 0, 1, 0, 0.0⟩ (ListedSource.ofList [])
      (by decide +kernel) (by decide +kernel)
    have hpanic : (RotationTraining.train (.zeros 0 2147483648) ⟨1, 1, 0, 1, 0, 0.0⟩
        (ListedSource.ofList [])).1 = .error .outOfBounds := by
      rfl
    rw [hpanic] at hwide
    cases hwide
  · intro h
    have hfails : (RotationTraining.train (.stack 1 [[.nan]]) ⟨1, 1, 1, 1, 0, 0.0⟩
        (ListedSource.ofList [3])).1.isOk = false := by
      decide +kernel
    cases he : (RotationTraining.train (.stack 1 [[.nan]]) ⟨1, 1, 1, 1, 0, 0.0⟩
        (ListedSource.ofList [3])).1 with
    | ok q =>
      rw [he] at hfails
      cases hfails
    | error e =>
      have hpending := congrArg ListedSource.pending (h _ _ _ e he)
      exact absurd hpending (by decide +kernel)

/-- A point that is not a number does not keep a codebook from being trained, but the solver of a
rotation gives up over it.  Either way one word is drawn, and none if there are not enough points. -/
theorem training_outcomes_nan :
    (∃ c t, Codebook.train (.stack 1 [[.nan], [.one]]) ⟨1, 1, 1, 0, 0.0⟩ (ListedSource.ofList [3, 5])
      = (.ok (c, t), ListedSource.ofList [5])) ∧
    (∃ fault, RotationTraining.train (.stack 1 [[.nan], [.one]]) ⟨1, 1, 1, 1, 0, 0.0⟩
      (ListedSource.ofList [3, 5]) = (.error (.numerical fault), ListedSource.ofList [5])) ∧
    RotationTraining.train (.stack 1 [[.nan], [.one]]) ⟨1, 3, 1, 1, 0, 0.0⟩
      (ListedSource.ofList [3, 5])
        = (.error (.degenerateInput 2 3), ListedSource.ofList [3, 5]) := by
  obtain ⟨hcodebook, hrotation⟩ :=
    training_outcomes (.stack 1 [[.nan], [.one]]) (ListedSource.ofList [3, 5])
  refine ⟨(hcodebook ⟨1, 1, 1, 0, 0.0⟩).trained (by decide +kernel) (by decide), ?_,
    (hrotation ⟨1, 3, 1, 1, 0, 0.0⟩).degenerate (by decide +kernel) (by decide) (by decide)⟩
  have houtcome := hrotation ⟨1, 1, 1, 1, 0, 0.0⟩
  have hdrawn := houtcome.drawn (by decide +kernel) (by decide) (by decide)
  rcases houtcome.trained (by decide +kernel) (by decide) (by decide) (by decide)
    (.inr (by decide)) with ⟨q, hq⟩ | ⟨fault, hfault⟩
  · have hfails : (RotationTraining.train (.stack 1 [[.nan], [.one]]) ⟨1, 1, 1, 1, 0, 0.0⟩
        (ListedSource.ofList [3, 5])).1.isOk = false := by
      decide +kernel
    rw [hq] at hfails
    cases hfails
  · exact ⟨fault, Prod.ext hfault hdrawn⟩

end ProductQuantization
