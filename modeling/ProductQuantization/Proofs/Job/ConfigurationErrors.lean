import ProductQuantization.Job.Stages
import ProductQuantization.Proofs.Artifact.CodecFormat
import ProductQuantization.Proofs.Rotation.Alternation
import ProductQuantization.Proofs.Storage.Outcomes

/-!
# What a configuration error leaves behind

A job that fails over its configuration should not have touched the disk.  Almost everything that can
be wrong with a configuration is found before the first step that writes: in the checks, in reading
the dataset and the rotation, or in training the rotation.  After that, the shapes of the data, of
the rotation and of the codecs go together, so that nothing is left to be found wrong with them.

There is one exception.  The header of a codec has thirty-two bits for the capacity and for the
dimension, no check compares them with that, and the header is made only when the codec has been
trained.  `configuration_error_effects` says that this is the only exception, and what it leaves
behind: the output directory, and the rotation if it was trained in the same run.
-/

set_option autoImplicit false

namespace ProductQuantization

theorem JobResult.ofResult_eq_ok {α : Type} {r : Result α} {a : α} :
    JobResult.ofResult r = .ok a ↔ r = .ok a := by
  cases r <;> simp [JobResult.ofResult, Except.mapError]

theorem JobResult.ofResult_eq_error {α : Type} {r : Result α} {e : JobError} :
    JobResult.ofResult r = .error e ↔ ∃ e', r = .error e' ∧ e = .quantization e' := by
  cases r <;> simp [JobResult.ofResult, Except.mapError, eq_comm]

/-! ## Errors over numbers that are too large -/

/-- Whether the error says that a number is too large for the header of a codec. -/
def QuantError.isTooLarge : QuantError → Bool
  | .invalidParams (.tooLarge _ _) => true
  | _ => false

/-- The error is another one than that a number is too large for the header of a codec. -/
def QuantError.IsOther (e : QuantError) : Prop := e.isTooLarge = false

section Checks

open Result (failsWith_guard)

theorem KMeansOptions.failsWith_check (o : KMeansOptions) :
    FailsWith QuantError.IsOther o.check :=
  failsWith_bind (failsWith_guard rfl) fun _ => failsWith_guard rfl

theorem failsWith_checkSplit (dim subspaces : Nat) :
    FailsWith QuantError.IsOther (checkSplit dim subspaces) :=
  failsWith_bind (failsWith_guard rfl) fun _ =>
    failsWith_bind (failsWith_guard rfl) fun _ => failsWith_guard rfl

theorem QuantizerOptions.failsWith_check (o : QuantizerOptions) (dim : Nat) :
    FailsWith QuantError.IsOther (o.check dim) :=
  failsWith_bind (failsWith_checkSplit _ _) fun _ =>
    failsWith_bind (failsWith_guard rfl) fun _ => o.kmeans.failsWith_check

theorem RotationOptions.failsWith_check (o : RotationOptions) (dim : Nat) :
    FailsWith QuantError.IsOther (o.check dim) :=
  failsWith_bind (failsWith_checkSplit _ _) fun _ =>
    failsWith_bind (failsWith_guard rfl) fun _ => o.kmeans.failsWith_check

theorem failsWith_svd (a : Array Float) (n : Nat) : FailsWith QuantError.IsOther (svd a n) := by
  refine failsWith_bind (failsWith_guard rfl) fun _ => failsWith_bind (failsWith_guard rfl) ?_
  intro u
  simp only
  split
  · exact failsWith_ok _
  · exact failsWith_error rfl

theorem failsWith_procrustes (x y : Matrix) :
    FailsWith QuantError.IsOther (procrustes x y) :=
  failsWith_bind (failsWith_guard rfl) fun _ => failsWith_bind (failsWith_guard rfl) fun _ =>
    failsWith_bind (failsWith_guard rfl) fun _ =>
      failsWith_bind (failsWith_svd _ _) fun _ => failsWith_ok _

theorem RotationTraining.failsWith_train {σ : Type} [RandomSource σ] (data : Matrix)
    (options : RotationOptions) (s : σ) :
    FailsWith QuantError.IsOther (train data options s).1 := by
  have hcheck : FailsWith QuantError.IsOther (checkTrainable data.cols options) :=
    failsWith_bind (options.failsWith_check _) fun _ => failsWith_guard rfl
  intro e h
  rcases train_eq_error h with h | rfl | rfl | ⟨target, h⟩
  · exact hcheck e h
  · rfl
  · rfl
  · exact failsWith_procrustes data target e h

theorem RotationFile.failsWith_ofBytes (bytes : List UInt8) (dim : Nat) :
    FailsWith QuantError.IsOther (ofBytes bytes dim) := by
  refine failsWith_bind (failsWith_guard rfl) fun _ => ?_
  rw [Matrix.ofData]
  split
  · exact failsWith_ok _
  · exact failsWith_error rfl

end Checks

namespace Job

/-- The error says that the capacity or the dimension of the configuration is too large for the
header of a codec, and it is. -/
def Oversized (c : JobConfig) (e : JobError) : Prop :=
  (2 ^ 31 ≤ c.capacity ∧
    e = .quantization (.invalidParams (.tooLarge "max_elements" c.capacity))) ∨
  (c.capacity < 2 ^ 31 ∧ 2 ^ 31 ≤ c.dim ∧
    e = .quantization (.invalidParams (.tooLarge "dim" c.dim)))

variable {c : JobConfig}

theorem not_oversized {e : QuantError} (h : e.IsOther) : ¬ Oversized c (.quantization e) := by
  rintro (⟨-, he⟩ | ⟨-, -, he⟩)
  · cases he
    cases h
  · cases he
    cases h

theorem not_oversized_config (fault : ConfigFault) : ¬ Oversized c (.config fault) := by
  rintro (⟨-, he⟩ | ⟨-, -, he⟩) <;> cases he

theorem Oversized.large {e : JobError} (h : Oversized c e) :
    2 ^ 31 ≤ c.capacity ∨ 2 ^ 31 ≤ c.dim := by
  rcases h with ⟨h, -⟩ | ⟨-, h, -⟩
  · exact .inl h
  · exact .inr h

/-! ## The checks of the configuration -/

/-- Every pair of the configuration has passed the check of its options. -/
def PairsChecked (c : JobConfig) : Prop :=
  ∀ p ∈ c.codecPairs, (c.quantizerOptions p.1 p.2).check c.dim = .ok ()

theorem validateConstruct_eq_ok (h : c.validateConstruct = .ok ()) :
    (∃ directory, c.outputPath = .ok directory) ∧ PairsChecked c := by
  obtain ⟨directory, hdir, h⟩ := bind_eq_ok.1 h
  obtain ⟨u, -, h⟩ := bind_eq_ok.1 h
  obtain ⟨v, -, h⟩ := bind_eq_ok.1 h
  exact ⟨⟨directory, hdir⟩, fun p hp => JobResult.ofResult_eq_ok.1 (forM_eq_ok.1 h p hp)⟩

theorem failsWith_ofResult {α : Type} {r : Result α} (h : FailsWith QuantError.IsOther r) :
    FailsWith (fun e => ¬ Oversized c e) (JobResult.ofResult r) := by
  intro e he
  obtain ⟨e', he', rfl⟩ := JobResult.ofResult_eq_error.1 he
  exact not_oversized (h e' he')

theorem failsWith_outputPath (c : JobConfig) : FailsWith (fun e => ¬ Oversized c e) c.outputPath := by
  rw [JobConfig.outputPath]
  split
  · exact failsWith_ok _
  · exact failsWith_error (not_oversized_config _)

theorem failsWith_rotationPath (c : JobConfig) :
    FailsWith (fun e => ¬ Oversized c e) c.rotationPath := by
  rw [JobConfig.rotationPath]
  split
  · exact failsWith_ok _
  · exact failsWith_error (not_oversized_config _)

theorem failsWith_rotationOptions (c : JobConfig) :
    FailsWith (fun e => ¬ Oversized c e) c.rotationOptions := by
  rw [JobConfig.rotationOptions]
  split
  · exact failsWith_error (not_oversized_config _)
  · exact failsWith_error (not_oversized_config _)
  · exact failsWith_ok _

theorem failsWith_guard (condition : Bool) (fault : ConfigFault) :
    FailsWith (fun e => ¬ Oversized c e) (JobConfig.guard condition fault) := by
  rw [JobConfig.guard]
  split
  · exact failsWith_ok _
  · exact failsWith_error (not_oversized_config _)

theorem failsWith_validateConstruct (c : JobConfig) :
    FailsWith (fun e => ¬ Oversized c e) c.validateConstruct :=
  failsWith_bind (failsWith_outputPath c) fun _ => failsWith_bind (failsWith_guard _ _) fun _ =>
    failsWith_bind (failsWith_guard _ _) fun _ =>
      failsWith_forM fun _ => failsWith_ofResult (QuantizerOptions.failsWith_check _ _)

/-! ## Before the first write -/

section Reading

variable {d : Disk}

theorem ends_read (path : String) (cap : Option Nat) :
    Ends d (Dataset.read path cap) (fun _ d' => d'.toFiles = d.toFiles)
      fun _ d' => d'.toFiles = d.toFiles := by
  have hrest : ∀ (data : Matrix) (d' : Disk), d'.toFiles = d.toFiles →
      Ends d' (if data.rows = 0 then throw (.emptyDataset path) else pure data :
        ExceptT DatasetError (StateM Disk) Matrix) (fun _ d' => d'.toFiles = d.toFiles)
        fun _ d' => d'.toFiles = d.toFiles := by
    intro data d' hd'
    split
    · exact ends_throw hd'
    · exact ends_pure hd'
  refine ends_bind (ends_lift (fun format _ => ?_) fun _ _ => rfl)
  cases format with
  | tsv =>
    refine ends_bind ?_
    rw [Dataset.readText]
    split
    · refine ends_bind (ends_require (fun d' hd' => ?_) fun d' hd' => ?_)
      · exact ends_pure (hrest _ _ (files_isThere hd'))
      · exact files_isThere hd'
    · refine ends_bind ((ends_contents DatasetError.io path).mono (fun bytes d' hd' => ?_)
        fun _ _ hd' => hd'.2)
      exact ends_lift (fun data _ => hrest data d' hd') fun _ _ => hd'
  | fvecs =>
    refine ends_bind (ends_bind ?_)
    refine (ends_contents DatasetError.io path).mono (fun bytes d' hd' => ?_) fun _ _ hd' => hd'.2
    exact ends_lift (fun data _ => hrest data d' hd') fun _ _ => hd'

/-- Reading the dataset leaves the files alone. -/
theorem ends_loadDataset (c : JobConfig) :
    Ends d (loadDataset c) (fun data d' => d'.toFiles = d.toFiles ∧ data.cols = c.dim)
      fun e d' => ¬ Oversized c e ∧ d'.toFiles = d.toFiles := by
  refine ends_bind (ends_adapt ((ends_read _ _).mono (fun data d' hd' => ?_) fun e d' hd' => ?_))
  · split
    · rename_i hcols
      exact ends_pure ⟨hd', hcols⟩
    · exact ends_throw ⟨not_oversized_config _, hd'⟩
  · refine ⟨?_, hd'⟩
    rintro (⟨-, he⟩ | ⟨-, -, he⟩) <;> cases he

/-- The rotation is square, and of the dimension of the configuration. -/
def SquareRotation (c : JobConfig) (rotation : Option Matrix) : Prop :=
  ∀ r, rotation = some r → r.rows = c.dim ∧ r.cols = c.dim

theorem square_of_ofBytes {bytes : List UInt8} {dim : Nat} {r : Matrix}
    (h : RotationFile.ofBytes bytes dim = .ok r) : r.rows = dim ∧ r.cols = dim := by
  obtain ⟨u, -, h⟩ := bind_eq_ok.1 h
  rw [Result.ofMatrix_eq_ok, Matrix.ofData] at h
  split at h
  · cases h
    exact ⟨rfl, rfl⟩
  · cases h

/-- Reading the rotation leaves the files alone. -/
theorem ends_storedRotation (c : JobConfig) :
    Ends d (storedRotation c) (fun rotation d' => d'.toFiles = d.toFiles ∧ SquareRotation c rotation)
      fun e d' => ¬ Oversized c e ∧ d'.toFiles = d.toFiles := by
  rw [storedRotation]
  split
  · refine ends_bind (ends_lift (fun path _ => ?_) fun e he => ⟨failsWith_rotationPath c e he, rfl⟩)
    refine ends_bind (ends_adapt (ends_bind ?_))
    refine (ends_contents QuantError.io path).mono (fun bytes d' hd' => ?_) fun e d' hd' => ?_
    · refine ends_lift (fun r hr => ends_pure ⟨hd', ?_⟩) fun e he => ?_
      · rintro r' ⟨⟩
        exact square_of_ofBytes hr
      · exact ⟨not_oversized (RotationFile.failsWith_ofBytes bytes c.dim e he), hd'⟩
    · exact ⟨hd'.1 ▸ not_oversized rfl, hd'.2⟩
  · refine ends_pure ⟨rfl, ?_⟩
    rintro r ⟨⟩

end Reading

/-! ## Training the rotation -/

section Rotation

variable {d : Disk} {data : Matrix}

theorem cols_sampleRows {σ : Type} [RandomSource σ] (data : Matrix) (size : Nat) (s : σ) :
    (sampleRows data size s).1.cols = data.cols := by
  rw [sampleRows]
  split <;> rfl

theorem square_of_computeRotation {options : RotationOptions} {r : Matrix}
    (h : computeRotation c options data = .ok r) : r.rows = data.cols ∧ r.cols = data.cols := by
  rw [computeRotation] at h
  simp only [map_eq_ok] at h
  obtain ⟨q, hq, rfl⟩ := h
  have hsquare := RotationTraining.square_of_train hq
  rwa [cols_sampleRows] at hsquare

theorem failsWith_computeRotation (c : JobConfig) (options : RotationOptions) (data : Matrix) :
    FailsWith QuantError.IsOther (computeRotation c options data) := fun e h =>
  RotationTraining.failsWith_train _ _ _ e (map_eq_error.1 h)

/-- Only when the rotation has been trained is anything written, and then the configuration is not to
blame any more. -/
theorem ends_trainRotation (hcols : data.cols = c.dim) :
    Ends d (trainRotation c data) (fun rotation _ => SquareRotation c rotation)
      fun e d' => e.isConfiguration = true → ¬ Oversized c e ∧ d'.toFiles = d.toFiles := by
  rw [trainRotation]
  split
  · refine ends_bind (ends_lift (fun options _ => ?_) fun e he _ =>
      ⟨failsWith_rotationOptions c e he, rfl⟩)
    refine ends_bind (ends_lift (fun path _ => ?_) fun e he _ => ⟨failsWith_rotationPath c e he, rfl⟩)
    refine ends_bind (ends_lift (fun r hr => ?_) fun e he _ =>
      ⟨failsWith_ofResult (failsWith_computeRotation c options data) e he, rfl⟩)
    obtain ⟨hrows, hc⟩ := square_of_computeRotation (JobResult.ofResult_eq_ok.1 hr)
    refine ends_bind (ends_adapt ((ends_publish path _).mono (fun _ d' _ => ?_) fun e d' he => ?_))
    · refine ends_pure ?_
      rintro r' ⟨⟩
      exact ⟨hrows.trans hcols, hc.trans hcols⟩
    · rcases he with rfl | he
      · intro h
        cases h
      · simp [RotationFile.toBytes, RotationFile.checkSquare, hrows, hc] at he
  · refine ends_pure ?_
    rintro r ⟨⟩

end Rotation

/-! ## Building the codecs -/

section Codecs

variable {d : Disk} {data : Matrix} {subspaces bits : Nat}

/-- A codec that has been trained can be written: its header has room for the numbers, and describes
the codebook. -/
theorem computeCodec_eq_ok (hcols : data.cols = c.dim)
    (hcheck : (c.quantizerOptions subspaces bits).check c.dim = .ok ()) {h : CodecHeader}
    {codebook : Codebook} {x : Float}
    (hx : computeCodec c data subspaces bits = .ok (h, codebook, x)) :
    (c.capacity < 2 ^ 31 ∧ c.dim < 2 ^ 31) ∧ h.checkDescribes codebook = .ok () := by
  obtain ⟨⟨codebook', table⟩, htrain, hx⟩ := bind_eq_ok.1 hx
  obtain ⟨error, -, hx⟩ := bind_eq_ok.1 hx
  obtain ⟨h', hh, hx⟩ := bind_eq_ok.1 hx
  cases hx
  obtain ⟨clusterings, hlen, ha⟩ := Codebook.assembled_of_train htrain
  obtain ⟨-, ⟨hpos, hle⟩, -⟩ := QuantizerOptions.check_eq_ok.1 hcheck
  obtain ⟨⟨hcapacity, hdim, -⟩, -⟩ := CodecHeader.ofSizes_eq_ok.1 hh
  have hsubspaces : codebook.subspaces = subspaces := ha.codebook.subspaces_eq.trans hlen
  rw [← hcols, ← ha.dim_eq, ← hsubspaces] at hh
  exact ⟨⟨hcapacity, hdim⟩,
    Codec.checkDescribes_ofSizes ha.codebook.wellFormed ha.size_eq hpos hle hh⟩

/-- Training a codec fails for want of points or of a buffer, or because the header has no room for
the numbers. -/
theorem computeCodec_eq_error (hcols : data.cols = c.dim)
    (hcheck : (c.quantizerOptions subspaces bits).check c.dim = .ok ()) {e : QuantError}
    (he : computeCodec c data subspaces bits = .error e) :
    e = .degenerateInput data.rows (wordValues bits) ∨ e = .outOfBounds ∨
      Oversized c (.quantization e) := by
  rcases bind_eq_error.1 he with he | ⟨⟨codebook, table⟩, htrain, he⟩
  · exact .inl (Codebook.train_eq_error (hcols ▸ hcheck) he)
  · obtain ⟨clusterings, -, ha⟩ := Codebook.assembled_of_train htrain
    refine .inr ?_
    rcases bind_eq_error.1 he with he | ⟨x, -, he⟩
    · exact .inl (ha.meanSquaredError_eq_error he)
    rcases bind_eq_error.1 he with he | ⟨h, -, he⟩
    · obtain ⟨hsplit, ⟨-, hle⟩, -⟩ := QuantizerOptions.check_eq_ok.1 hcheck
      have hsubspaces : subspaces ≤ c.dim := Nat.le_of_dvd (Nat.pos_of_ne_zero hsplit.dim_ne_zero)
        (Nat.dvd_of_mod_eq_zero hsplit.mod_eq_zero)
      have hbits : bits < 2 ^ 31 := Nat.lt_of_le_of_lt hle (by decide)
      refine .inr ?_
      rcases CodecHeader.ofSizes_eq_error hsubspaces hbits he with ⟨h, rfl⟩ | ⟨h, h', rfl⟩
      · exact .inl ⟨h, rfl⟩
      · exact .inr ⟨h, h', rfl⟩
    · cases he

/-- A codec is built only if the header has room for the numbers; if the configuration is to blame,
nothing has been written for this codec. -/
theorem ends_buildCodec (hcols : data.cols = c.dim) (directory : String)
    (hcheck : (c.quantizerOptions subspaces bits).check c.dim = .ok ()) :
    Ends d (buildCodec c data directory subspaces bits)
      (fun _ _ => c.capacity < 2 ^ 31 ∧ c.dim < 2 ^ 31)
      fun e d' => e.isConfiguration = true → Oversized c e ∧ d'.toFiles = d.toFiles := by
  refine ends_bind (ends_lift ?_ fun e he hconfig => ?_)
  · rintro ⟨h, codebook, x⟩ hx
    obtain ⟨hfits, hdescribes⟩ :=
      computeCodec_eq_ok hcols hcheck (JobResult.ofResult_eq_ok.1 hx)
    refine ends_bind (ends_adapt ((ends_publish _ _).mono (fun _ d' _ => ?_) fun e d' he => ?_))
    · exact ends_pure hfits
    · rcases he with rfl | he
      · intro hconfig
        cases hconfig
      · simp [Codec.toBytes, hdescribes] at he
  · obtain ⟨e', he', rfl⟩ := JobResult.ofResult_eq_error.1 he
    rcases computeCodec_eq_error hcols hcheck he' with rfl | rfl | hover
    · cases hconfig
    · cases hconfig
    · exact ⟨hover, rfl⟩

/-- The disk has the output directory, and is as it was otherwise. -/
def MadeDirectory (c : JobConfig) (d d' : Disk) : Prop :=
  ∃ directory, c.outputPath = .ok directory ∧ (Disk.makeDirectories directory d).1 = true ∧
    d'.toFiles = (Disk.makeDirectories directory d).2.toFiles

/-- **Building codecs fails over the configuration only if a number is too large**, and then nothing
has been written. -/
theorem ends_construct (hv : c.validateConstruct = .ok ()) (hcols : data.cols = c.dim)
    {rotation : Option Matrix} (hr : SquareRotation c rotation) :
    Ends d (construct c data rotation) (fun _ _ => True)
      fun e d' => e.isConfiguration = true → Oversized c e ∧ MadeDirectory c d d' := by
  obtain ⟨⟨directory, hdir⟩, hpairs⟩ := validateConstruct_eq_ok hv
  refine ends_bind (ends_lift (fun _ _ => ?_) fun e he => by rw [hv] at he; cases he)
  refine ends_bind (ends_lift (fun directory' hdir' => ?_) fun e he => by rw [hdir] at he; cases he)
  cases hdir.symm.trans hdir'
  refine ends_bind (ends_require (fun d' hd' => ?_) fun d' _ hconfig => by cases hconfig)
  obtain ⟨hmade, hfiles⟩ := files_makeDirectories hd'
  have hcodecs : ∀ data : Matrix, data.cols = c.dim →
      Ends d' (c.codecPairs.mapM fun (p : Nat × Nat) => buildCodec c data directory p.1 p.2)
        (fun _ _ => True)
        fun e d'' => e.isConfiguration = true → Oversized c e ∧ MadeDirectory c d d'' := by
    intro data hcols
    -- one codec that has been built shows that no number is too large for any of them
    refine (ends_mapM (P := fun d'' => ¬ (c.capacity < 2 ^ 31 ∧ c.dim < 2 ^ 31) →
      d''.toFiles = d'.toFiles) (fun p hp d₁ hd₁ => ?_) fun _ => rfl).mono (fun _ _ _ => trivial)
      fun e d'' h => h
    refine (ends_buildCodec hcols directory (hpairs p hp)).mono
      (fun _ _ hfits hlarge => absurd hfits hlarge) fun e d'' he hconfig => ?_
    obtain ⟨hover, hd''⟩ := he hconfig
    have hlarge : ¬ (c.capacity < 2 ^ 31 ∧ c.dim < 2 ^ 31) := fun hfits => by
      rcases hover.large with h | h
      · exact Nat.not_lt.2 h hfits.1
      · exact Nat.not_lt.2 h hfits.2
    exact ⟨hover, directory, hdir, hmade, (hd''.trans (hd₁ hlarge)).trans hfiles⟩
  cases rotation with
  | none => exact ends_bind (ends_pure (hcodecs data hcols))
  | some r =>
    obtain ⟨hrows, hc⟩ := hr r rfl
    obtain ⟨rotated, hrotated, hcols'⟩ :=
      exists_applyRotation (hrows.trans hcols.symm) (hc.trans hcols.symm)
    refine ends_bind (ends_lift (fun data' hdata' => ?_) fun e he => ?_)
    · rw [JobResult.ofResult_eq_ok, hrotated] at hdata'
      cases hdata'
      exact hcodecs rotated (hcols'.trans hcols)
    · rw [hrotated] at he
      cases he

end Codecs

/-! ## Whole jobs -/

section Jobs

variable {d d₁ d' : Disk}

/-- Only the files of a disk matter to what making a directory does. -/
theorem MadeDirectory.of_files (hd : d₁.toFiles = d.toFiles) (h : MadeDirectory c d₁ d') :
    MadeDirectory c d d' := by
  obtain ⟨directory, hdir, hmade, hfiles⟩ := h
  have hd₁ : d₁ = { d with mishaps := d₁.mishaps } := by
    cases d₁
    cases hd
    rfl
  rw [hd₁, Disk.makeDirectories_mishaps] at hmade hfiles
  exact ⟨directory, hdir, hmade, hfiles⟩

theorem ends_runConstruct (c : JobConfig) :
    Ends d (runConstruct c) (fun _ _ => True) fun e d' => e.isConfiguration = true →
      (¬ Oversized c e ∧ d'.toFiles = d.toFiles) ∨ (Oversized c e ∧ MadeDirectory c d d') := by
  refine ends_bind (ends_lift (fun _ hv => ?_) fun e he _ =>
    .inl ⟨failsWith_validateConstruct c e he, rfl⟩)
  refine ends_bind ((ends_loadDataset c).mono (fun data d₁ h₁ => ?_) fun e d₁ h₁ _ => .inl h₁)
  refine ends_bind ((ends_storedRotation c).mono (fun rotation d₂ h₂ => ?_) fun e d₂ h₂ _ => ?_)
  · refine (ends_construct hv h₁.2 h₂.2).mono (fun _ _ _ => trivial) fun e d₃ h₃ hconfig => ?_
    exact .inr ⟨(h₃ hconfig).1, (h₃ hconfig).2.of_files (h₂.1.trans h₁.1)⟩
  · exact .inl ⟨h₂.1, h₂.2.trans h₁.1⟩

theorem ends_runAll (c : JobConfig) :
    Ends d (runAll c) (fun _ _ => True) fun e d' => e.isConfiguration = true →
      (¬ Oversized c e ∧ d'.toFiles = d.toFiles) ∨ (Oversized c e ∧ ∃ rotation d₁,
        d.run (loadDataset c >>= trainRotation c) = (.ok rotation, d₁) ∧ MadeDirectory c d₁ d') := by
  refine ends_bind (ends_lift (fun _ hv => ?_) fun e he _ =>
    .inl ⟨failsWith_validateConstruct c e he, rfl⟩)
  refine ends_bind ((ends_loadDataset c).mono_run (fun data d₁ hload h₁ => ?_)
    fun e d₁ _ h₁ _ => .inl h₁)
  refine ends_bind ((ends_trainRotation h₁.2).mono_run (fun rotation d₂ htrain h₂ => ?_)
    fun e d₂ _ h₂ hconfig => ?_)
  · refine (ends_construct hv h₁.2 h₂).mono (fun _ _ _ => trivial) fun e d₃ h₃ hconfig => ?_
    refine .inr ⟨(h₃ hconfig).1, rotation, d₂, ?_, (h₃ hconfig).2⟩
    rw [run_bind, hload]
    exact htrain
  · exact .inl ⟨(h₂ hconfig).1, (h₂ hconfig).2.trans h₁.1⟩

/-- **A configuration error leaves the disk untouched, except over numbers that are too large.**  If
the second stage or both stages fail over the configuration, validated or not, then the files on the
disk are what they were, unless the header of a codec has no room for the capacity or the dimension.
In that case the output directory has been made, after the rotation has been trained and kept if both
stages were run, and nothing else has been done. -/
theorem configuration_error_effects (c : JobConfig) (d d' : Disk) (e : JobError)
    (he : e.isConfiguration = true) :
    (d.run (runConstruct c) = (.error e, d') →
      (¬ Oversized c e → d'.toFiles = d.toFiles) ∧ (Oversized c e → MadeDirectory c d d')) ∧
    (d.run (runAll c) = (.error e, d') →
      (¬ Oversized c e → d'.toFiles = d.toFiles) ∧
      (Oversized c e → ∃ rotation d₁, d.run (loadDataset c >>= trainRotation c) = (.ok rotation, d₁) ∧
        MadeDirectory c d₁ d')) := by
  constructor
  · intro h
    rcases (ends_runConstruct c).of_error h he with ⟨hno, hsame⟩ | ⟨hyes, hmade⟩
    · exact ⟨fun _ => hsame, fun hyes => absurd hyes hno⟩
    · exact ⟨fun hno => absurd hyes hno, fun _ => hmade⟩
  · intro h
    rcases (ends_runAll c).of_error h he with ⟨hno, hsame⟩ | ⟨hyes, hmade⟩
    · exact ⟨fun _ => hsame, fun hyes => absurd hyes hno⟩
    · exact ⟨fun hno => absurd hyes hno, fun _ => hmade⟩

end Jobs

/-! ## A capacity that is too large -/

/-- One codec for a dataset of dimension one, with the least capacity that is too large. -/
def largeCapacity : JobConfig where
  dataPath := "v.tsv"
  dim := 1
  capacity := 2147483648
  subspaceCounts := [1]
  codeWidths := [1]
  switch := 0
  rotationFile := none
  sampleSize := none
  rotationSubspaces := none
  rotationClusters := none
  rotationRounds := 10
  outputDir := some "out"
  seed := 0
  kmeans := ⟨1, 0, 0.0⟩

/-- A disk with two vectors of dimension one on it. -/
def twoVectors : Disk := ⟨⟨[(["data", "v.tsv"], .file [48, 10, 49, 10])], ["data"]⟩, []⟩

/-- The configuration is valid, the job fails over it, and the directory has been made. -/
theorem configuration_error_effects_capacity :
    largeCapacity.validate = .ok () ∧ ∃ d', twoVectors.run (runConstruct largeCapacity)
        = (.error (.quantization (.invalidParams (.tooLarge "max_elements" 2147483648))), d') ∧
      MadeDirectory largeCapacity twoVectors d' ∧ d'.toFiles ≠ twoVectors.toFiles := by
  have herror : (twoVectors.run (runConstruct largeCapacity)).1
      = .error (.quantization (.invalidParams (.tooLarge "max_elements" 2147483648))) := by
    decide +kernel
  have hrun := Disk.run_eq_of_fst herror
  have hmade := (configuration_error_effects largeCapacity twoVectors _ _ (by rfl)).1 hrun
  have hover : Oversized largeCapacity
      (.quantization (.invalidParams (.tooLarge "max_elements" 2147483648))) :=
    .inl ⟨by decide, rfl⟩
  refine ⟨by decide +kernel, _, hrun, hmade.2 hover, ?_⟩
  obtain ⟨directory, hdir, -, hfiles⟩ := hmade.2 hover
  cases hdir
  rw [hfiles]
  decide +kernel

end Job
end ProductQuantization
