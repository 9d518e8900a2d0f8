import ProductQuantization.Proofs.Job.ConfigurationErrors
import ProductQuantization.Proofs.Storage.Readers

/-!
# Running the stages one by one

The two stages of a job can be run together or one after the other, and then the dataset is read
twice and the rotation goes through its file.  Nothing comes of the difference.  The rotation is read
back from its file bit by bit (`RotationFile.ofBytes_toBytes`), and what the first stage writes is not
the dataset, so the dataset is found again as it was (`Published.entryAt?_of_ne`).

`separate_stages` says that the second stage then ends in the same reports on the same disk, with all
the files that there are.
-/

set_option autoImplicit false

namespace ProductQuantization

/-! ## The rotation file -/

namespace RotationFile

/-- The length of a file whose rotation can be held at all is computed without overflow. -/
theorem byteSize_eq {dim : Nat} (h : Matrix.fits (dim * dim) = true) :
    byteSize dim = dim * dim * 4 := by
  have hlt : dim * dim * 4 < wordValues 63 := of_decide_eq_true h
  have hword : wordValues 64 = 2 * wordValues 63 := rfl
  rw [byteSize, sizeProduct, sizeProduct, Nat.mod_eq_of_lt (a := dim * dim) (by omega),
    Nat.mod_eq_of_lt (by omega)]

/-- **A rotation is read back** from its file, bit by bit. -/
theorem ofBytes_toBytes {r : Matrix} {dim : Nat} {bytes : List UInt8} (hrows : r.rows = dim)
    (hcols : r.cols = dim) (hfits : Matrix.fits (dim * dim) = true) (h : toBytes r = .ok bytes) :
    ofBytes bytes dim = .ok r := by
  obtain ⟨u, -, h⟩ := bind_eq_ok.1 h
  cases h
  have hsize : r.data.size = dim * dim := by rw [r.size_eq, hrows, hcols]
  have hlength : (Word.bytesOfSingles r.data.toList).length = byteSize dim := by
    rw [Word.length_bytesOfSingles, Array.length_toList, hsize, byteSize_eq hfits]
  have hdata : Matrix.ofData dim dim r.data = .ok r := by
    rw [Matrix.ofData, dif_pos hsize, Except.ok.injEq]
    exact Matrix.eq_of_data_eq hrows.symm hcols.symm rfl
  simp only [ofBytes, hlength, decide_true, Result.guard_true, ok_bind,
    Word.takeSingles_bytesOfSingles, Array.toArray_toList, hdata, Result.ofMatrix_ok]

end RotationFile

/-- A buffer for the rotation is asked for before training begins. -/
theorem RotationTraining.fits_of_train {σ : Type} [RandomSource σ] {data : Matrix}
    {options : RotationOptions} {s : σ} {q : RotatedQuantizer}
    (h : (train data options s).1 = .ok q) : Matrix.fits (data.cols * data.cols) = true := by
  rw [train] at h
  split at h
  · cases h
  · rename_i hcheck
    obtain ⟨u, -, hfits⟩ := bind_eq_ok.1 hcheck
    exact Result.guard_eq_ok.1 hfits

namespace Job

variable {c : JobConfig} {data : Matrix} {d d₁ : Disk}

/-! ## What the first stage leaves behind -/

/-- The rotation, if there is one, is in its file and can be read from there; nothing else has
changed. -/
inductive Kept (c : JobConfig) (d : Disk) : Option Matrix → Disk → Prop where
  | off (hoff : c.rotates = false) : Kept c d none d
  | on {path : String} {r : Matrix} {bytes : List UInt8} {d₁ : Disk} (hon : c.rotates = true)
      (hpath : c.rotationPath = .ok path) (hbytes : RotationFile.ofBytes bytes c.dim = .ok r)
      (hpublished : Published path bytes d d₁) : Kept c d (some r) d₁

theorem fits_of_computeRotation {options : RotationOptions} {r : Matrix}
    (h : computeRotation c options data = .ok r) : Matrix.fits (data.cols * data.cols) = true := by
  rw [computeRotation] at h
  simp only [map_eq_ok] at h
  obtain ⟨q, hq, -⟩ := h
  have hfits := RotationTraining.fits_of_train hq
  rwa [cols_sampleRows] at hfits

/-- Training keeps the rotation. -/
theorem ends_trainRotation_kept (hcols : data.cols = c.dim) :
    Ends d (trainRotation c data) (Kept c d) fun _ _ => True := by
  rw [trainRotation]
  split
  · rename_i hon
    refine ends_bind (ends_lift (fun options _ => ?_) fun _ _ => trivial)
    refine ends_bind (ends_lift (fun path hpath => ?_) fun _ _ => trivial)
    refine ends_bind (ends_lift (fun r hr => ?_) fun _ _ => trivial)
    rw [JobResult.ofResult_eq_ok] at hr
    obtain ⟨hrows, hc⟩ := square_of_computeRotation hr
    have hfits := fits_of_computeRotation hr
    rw [hcols] at hrows hc hfits
    refine ends_bind (ends_adapt ((ends_publish_published path _ d).mono ?_ fun _ _ _ => trivial))
    rintro - d₁ ⟨bytes, hbytes, hpublished⟩
    exact ends_pure (.on hon hpath (RotationFile.ofBytes_toBytes hrows hc hfits hbytes) hpublished)
  · rename_i hoff
    exact ends_pure (.off (Bool.not_eq_true _ ▸ hoff))

/-- The second stage finds the rotation of the first. -/
theorem run_storedRotation {rotation : Option Matrix} (hkept : Kept c d rotation d₁)
    (hd : d₁.Calm) : d₁.run (storedRotation c) = (.ok rotation, d₁) := by
  cases hkept with
  | off hoff =>
    rw [storedRotation, hoff]
    rfl
  | @on path r _ _ hon hpath hbytes hpublished =>
    have hread : d₁.run (overQuantization (RotationFile.read path c.dim)) = (.ok r, d₁) := by
      have hrun := run_contents hd hpublished.entryAt?_self QuantError.io
      have hread : d₁.run (RotationFile.read path c.dim) = (.ok r, d₁) :=
        run_bind_eq_ok.2 ⟨_, d₁, hrun, run_lift_eq_ok.2 ⟨hbytes, rfl⟩⟩
      exact congrArg (fun p : Result Matrix × Disk => (p.1.mapError JobError.quantization, p.2)) hread
    rw [storedRotation, hon]
    refine run_bind_eq_ok.2 ⟨_, d₁, run_lift_eq_ok.2 ⟨hpath, rfl⟩, ?_⟩
    exact run_bind_eq_ok.2 ⟨_, d₁, hread, rfl⟩

theorem Kept.calm {rotation : Option Matrix} (hkept : Kept c d rotation d₁) (hd : d.Calm) :
    d₁.Calm := by
  cases hkept with
  | off => exact hd
  | on _ _ _ hpublished => exact List.suffix_nil.1 (hd ▸ hpublished.mishaps)

/-! ## The dataset -/

/-- The dataset is neither the file of the rotation nor the temporary file beside it, whatever their
paths look like. -/
def DataApart (c : JobConfig) (d : Disk) : Prop :=
  ∀ path, c.rotates = true → c.rotationPath = .ok path →
    d.place c.dataPath ≠ d.place path ∧
      d.place c.dataPath ≠ d.place (Storage.temporaryPath path)

theorem reads_loadDataset (c : JobConfig) :
    Reads c.dataPath (loadDataset c : ExceptT JobError (StateM Disk) Matrix) := by
  refine reads_bind (reads_adapt _ (reads_dataset _ _)) fun data => ?_
  split
  · exact reads_pure data
  · exact reads_throw _

theorem Kept.entryAt?_dataPath {rotation : Option Matrix} (hkept : Kept c d rotation d₁)
    (hapart : DataApart c d) : d₁.entryAt? c.dataPath = d.entryAt? c.dataPath := by
  cases hkept with
  | off => rfl
  | on hon hpath _ hpublished =>
    obtain ⟨hplace, htemporary⟩ := hapart _ hon hpath
    exact hpublished.entryAt?_of_ne hplace htemporary

/-! ## Both ways -/

/-- **The stages one after the other do what they do together.**  If nothing fails by mishap and the
dataset is not where the rotation is written, then whatever both stages together end in, the first
stage on its own succeeds, and after it the second stage ends in the same reports, with the same
errors to the bit, on the same disk, down to each byte of each file. -/
theorem separate_stages (c : JobConfig) (d d' : Disk) (reports : List CodecReport) (hd : d.Calm)
    (hapart : DataApart c d) (h : d.run (runAll c) = (.ok reports, d')) :
    ∃ rotation d₁, d.run (runRotation c) = (.ok rotation, d₁) ∧
      d₁.run (runConstruct c) = (.ok reports, d') := by
  rw [runAll] at h
  obtain ⟨u, d₀, hcheck, hjob⟩ := run_bind_eq_ok.1 h
  obtain ⟨hvalid, rfl⟩ := run_lift_eq_ok.1 hcheck
  obtain ⟨data, d₀', hload, hstages⟩ := run_bind_eq_ok.1 hjob
  obtain ⟨rotation, d₁, htrain, hconstruct⟩ := run_bind_eq_ok.1 hstages
  -- reading the dataset leaves the disk as it is
  obtain ⟨-, hcols⟩ := (ends_loadDataset c).of_ok hload
  obtain ⟨r, hload₀, -⟩ := reads_loadDataset c d₀ d₀ hd hd rfl
  cases hload₀.symm.trans hload
  have hkept : Kept c d₀ rotation d₁ := (ends_trainRotation_kept hcols).of_ok htrain
  have hd₁ : d₁.Calm := hkept.calm hd
  refine ⟨rotation, d₁, ?_, ?_⟩
  · rw [runRotation]
    split
    · exact run_bind_eq_ok.2 ⟨data, d₀, hload, htrain⟩
    · rename_i hoff
      cases hkept with
      | off => rfl
      | on hon => exact absurd hon hoff
  · obtain ⟨r, hload₀, hload₁⟩ :=
      reads_loadDataset c d₀ d₁ hd hd₁ (hkept.entryAt?_dataPath hapart)
    cases hload₀.symm.trans hload
    rw [runConstruct]
    refine run_bind_eq_ok.2 ⟨u, d₁, run_lift_eq_ok.2 ⟨hvalid, rfl⟩, ?_⟩
    refine run_bind_eq_ok.2 ⟨data, d₁, hload₁, ?_⟩
    exact run_bind_eq_ok.2 ⟨rotation, d₁, run_storedRotation hkept hd₁, hconstruct⟩

/-- One codec for a dataset of dimension one under an absolute path, with a rotation that is solved
for once. -/
def rotatedJob : JobConfig where
  dataPath := "/data/v.tsv"
  dim := 1
  capacity := 2
  subspaceCounts := [1]
  codeWidths := [1]
  switch := 1
  rotationFile := some "r"
  sampleSize := none
  rotationSubspaces := some 1
  rotationClusters := some 1
  rotationRounds := 1
  outputDir := some "out"
  seed := 0
  kmeans := ⟨1, 0, 0.0⟩

/-- What there is when the job is done: its codec in the output directory, its rotation, and the
dataset. -/
def rotatedJobDone : Disk where
  tree := [
    (["data", "out", "encoded_data_1_2_1_1"],
      .file [2, 0, 0, 0, 1, 0, 0, 0, 1, 0, 0, 0, 1, 0, 0, 0, 0, 0, 128, 63, 0, 0, 0, 0]),
    (["data", "out"], .directory),
    (["data", "r"], .file [0, 0, 128, 63]),
    (["data", "v.tsv"], .file [48, 10, 49, 10])]
  here := ["data"]
  mishaps := []

/-- The two stages of the job, together and one after the other. -/
theorem separate_stages_rotated : DataApart rotatedJob twoVectors ∧
    twoVectors.run (runAll rotatedJob)
      = (.ok [⟨1, 1, "out/encoded_data_1_2_1_1", 0.0⟩], rotatedJobDone) ∧
    ∃ rotation d₁, twoVectors.run (runRotation rotatedJob) = (.ok rotation, d₁) ∧
      d₁.run (runConstruct rotatedJob)
        = (.ok [⟨1, 1, "out/encoded_data_1_2_1_1", 0.0⟩], rotatedJobDone) := by
  have hapart : DataApart rotatedJob twoVectors := by
    intro path _ hpath
    have hr : rotatedJob.rotationPath = .ok "r" := by decide +kernel
    cases hr.symm.trans hpath
    exact ⟨by decide +kernel, by decide +kernel⟩
  have hall : twoVectors.run (runAll rotatedJob)
      = (.ok [⟨1, 1, "out/encoded_data_1_2_1_1", 0.0⟩], rotatedJobDone) := by
    decide +kernel
  exact ⟨hapart, hall, separate_stages rotatedJob twoVectors _ _ rfl hapart hall⟩

end Job
end ProductQuantization
