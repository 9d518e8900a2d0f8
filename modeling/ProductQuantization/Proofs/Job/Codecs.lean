import ProductQuantization.Proofs.Job.SeparateStages

/-!
# Codecs do not depend on each other

The codecs of a job are built one after the other on one disk, so they could get in each other's way
through their files.  They do not, because of how the files are named: a name tells which pair it
belongs to (`codecFileName_inj`), and it is never the name of a temporary file
(`codecFileName_ne_temporaryPath`).

* `Built` says what is reported about a pair and which bytes its file has, for the data and the pair
  alone, and `Built.unique` that this settles both.
* `InPlace` says that the file is there, and `ends_buildCodec_inPlace` that building a codec puts its
  own file in place and leaves those that are there already.
* `codecs_independent` is the result for whole jobs: every codec is `InPlace` in the end, and a pair
  comes out the same whatever the other pairs are.
-/

set_option autoImplicit false

namespace ProductQuantization

/-! ## The names of the files -/

namespace JobConfig

theorem isDigit_of_mem_toString {n : Nat} {ch : Char} (h : ch ∈ (toString n).toList) :
    ch.isDigit = true := by
  rw [Nat.toString_eq_repr, Nat.toList_repr] at h
  exact Nat.isDigit_of_mem_toDigits (by decide) (by decide) h

theorem toString_nat_inj {m n : Nat} (h : (toString m).toList = (toString n).toList) : m = n := by
  rw [Nat.toString_eq_repr, Nat.toString_eq_repr, Nat.toList_repr, Nat.toList_repr] at h
  have hvalue := congrArg (fun digits => Nat.ofDigitChars 10 digits 0) h
  rwa [Nat.ofDigitChars_toDigits (by decide) (by decide),
    Nat.ofDigitChars_toDigits (by decide) (by decide)] at hvalue

variable (c : JobConfig)

theorem toList_codecFileName (subspaces bits : Nat) :
    (c.codecFileName subspaces bits).toList = "encoded_data_".toList ++ ((toString c.switch).toList ++
      '_' :: ((toString c.capacity).toList ++
        '_' :: ((toString subspaces).toList ++ '_' :: (toString bits).toList))) := by
  have h : c.codecFileName subspaces bits = "encoded_data_" ++ toString c.switch ++ "_"
      ++ toString c.capacity ++ "_" ++ toString subspaces ++ "_" ++ toString bits := rfl
  have hu : "_".toList = ['_'] := rfl
  rw [h]
  simp only [String.toList_append, hu, List.append_assoc, List.cons_append, List.nil_append]

/-- **The name of a file tells which pair it belongs to.** -/
theorem codecFileName_inj {subspaces subspaces' bits bits' : Nat}
    (h : c.codecFileName subspaces bits = c.codecFileName subspaces' bits') :
    subspaces = subspaces' ∧ bits = bits' := by
  have hlist := congrArg String.toList h
  rw [toList_codecFileName, toList_codecFileName, List.append_cancel_left_eq,
    List.append_cancel_left_eq, List.cons.injEq, List.append_cancel_left_eq, List.cons.injEq] at hlist
  have hcut : ∀ n : Nat, '_' ∉ (toString n).toList := fun n hmem =>
    absurd (isDigit_of_mem_toString hmem) (by decide)
  -- the two numbers are cut apart at the bar between them
  have hpieces := congrArg (Text.splitAt '_') hlist.2.2
  rw [Text.splitAt_append, Text.splitAt_append, Text.splitAt_of_not_mem (hcut _),
    Text.splitAt_of_not_mem (hcut _), Text.splitAt_of_not_mem (hcut _),
    Text.splitAt_of_not_mem (hcut _)] at hpieces
  simp only [List.cons_append, List.nil_append, List.cons.injEq, and_true] at hpieces
  exact ⟨toString_nat_inj hpieces.1, toString_nat_inj hpieces.2⟩

/-- The characters that names are made of. -/
theorem mem_codecFileName {subspaces bits : Nat} {ch : Char}
    (h : ch ∈ (c.codecFileName subspaces bits).toList) :
    ch.isDigit = true ∨ ch ∈ "encoded_data_".toList := by
  have hbar : '_' ∈ "encoded_data_".toList := by decide
  rw [toList_codecFileName] at h
  simp only [List.mem_append, List.mem_cons] at h
  rcases h with h | h | rfl | h | rfl | h | rfl | h
  · exact .inr h
  · exact .inl (isDigit_of_mem_toString h)
  · exact .inr hbar
  · exact .inl (isDigit_of_mem_toString h)
  · exact .inr hbar
  · exact .inl (isDigit_of_mem_toString h)
  · exact .inr hbar
  · exact .inl (isDigit_of_mem_toString h)

theorem not_mem_codecFileName (subspaces bits : Nat) {ch : Char} (hdigit : ch.isDigit = false)
    (hletter : ch ∉ "encoded_data_".toList) : ch ∉ (c.codecFileName subspaces bits).toList := by
  intro h
  rcases c.mem_codecFileName h with h | h
  · rw [hdigit] at h
    cases h
  · exact hletter h

/-- **The name of a file is not the name of a temporary one**: there is no dot in it. -/
theorem codecFileName_ne_temporaryPath (subspaces subspaces' bits bits' : Nat) :
    c.codecFileName subspaces bits ≠ Storage.temporaryPath (c.codecFileName subspaces' bits') := by
  intro h
  have hdot : '.' ∉ (c.codecFileName subspaces bits).toList :=
    c.not_mem_codecFileName subspaces bits (by decide) (by decide)
  refine hdot ?_
  rw [h, Storage.temporaryPath, String.toList_append]
  exact List.mem_append_right _ (by decide)

/-- A name that begins as the names of the files do. -/
theorem isName_append (subspaces bits : Nat) {extension : String}
    (h : '/' ∉ extension.toList) : Path.IsName (c.codecFileName subspaces bits ++ extension) := by
  have hfirst : (c.codecFileName subspaces bits ++ extension).toList.head? = some 'e' := by
    rw [String.toList_append, toList_codecFileName]
    rfl
  refine ⟨?_, ?_, ?_, ?_⟩
  · intro hname
    rw [hname] at hfirst
    cases hfirst
  · intro hname
    rw [hname] at hfirst
    exact absurd hfirst (by decide)
  · intro hname
    rw [hname] at hfirst
    exact absurd hfirst (by decide)
  · rw [String.toList_append, List.mem_append, not_or]
    exact ⟨c.not_mem_codecFileName subspaces bits (by decide) (by decide), h⟩

theorem isName_codecFileName (subspaces bits : Nat) :
    Path.IsName (c.codecFileName subspaces bits) := by
  have h : Path.IsName (c.codecFileName subspaces bits ++ "") :=
    c.isName_append subspaces bits (by decide)
  rwa [String.append_empty] at h

/-- The same configuration with other pairs. -/
def withPairs (subspaceCounts codeWidths : List Nat) : JobConfig :=
  { c with subspaceCounts, codeWidths }

end JobConfig

namespace Job

variable {c : JobConfig} {directory : String} {data : Matrix} {d d' : Disk}

/-- Where the codec of a pair goes. -/
theorem place_codec (d : Disk) (subspaces bits : Nat) :
    d.place (Path.join directory (c.codecFileName subspaces bits))
      = d.place directory ++ [c.codecFileName subspaces bits] :=
  d.place_join directory (c.isName_codecFileName subspaces bits)

/-- Where the temporary file of a codec is. -/
theorem place_temporary (d : Disk) (subspaces bits : Nat) :
    d.place (Storage.temporaryPath (Path.join directory (c.codecFileName subspaces bits)))
      = d.place directory ++ [Storage.temporaryPath (c.codecFileName subspaces bits)] := by
  rw [Path.temporaryPath_join]
  exact d.place_join directory (c.isName_append subspaces bits (by decide))

/-! ## One codec -/

/-- What is reported about a pair, and the bytes of its file: the codec is trained on the data with
the options for the pair and a source that begins with the seed, and nothing else matters. -/
structure Built (c : JobConfig) (directory : String) (data : Matrix) (p : Nat × Nat)
    (r : CodecReport) (bytes : List UInt8) : Prop where
  pair_eq : (r.subspaces, r.bits) = p
  path_eq : r.path = Path.join directory (c.codecFileName p.1 p.2)
  codec : ∃ codebook table header,
    (Codebook.train data (c.quantizerOptions p.1 p.2) (ChaCha.ofSeed c.seed)).1
      = .ok (codebook, table) ∧
    codebook.meanSquaredError data table = .ok r.error ∧
    CodecHeader.ofSizes c.capacity c.dim p.1 p.2 = .ok header ∧
    Codec.toBytes header codebook = .ok bytes

/-- There is only one report and one file for a pair. -/
theorem Built.unique {p : Nat × Nat} {r r' : CodecReport} {bytes bytes' : List UInt8}
    (h : Built c directory data p r bytes) (h' : Built c directory data p r' bytes') :
    r = r' ∧ bytes = bytes' := by
  obtain ⟨codebook, table, header, htrain, herror, hheader, hbytes⟩ := h.codec
  obtain ⟨codebook', table', header', htrain', herror', hheader', hbytes'⟩ := h'.codec
  cases htrain.symm.trans htrain'
  cases hheader.symm.trans hheader'
  have hpair := h.pair_eq.trans h'.pair_eq.symm
  rw [Prod.mk.injEq] at hpair
  have hreport : r.error = r'.error := Except.ok.inj (herror.symm.trans herror')
  refine ⟨?_, Except.ok.inj (hbytes.symm.trans hbytes')⟩
  cases r
  cases r'
  rw [CodecReport.mk.injEq]
  exact ⟨hpair.1, hpair.2, h.path_eq.trans h'.path_eq.symm, hreport⟩

/-- The codec of a pair has been built, and is in its file. -/
def InPlace (c : JobConfig) (directory : String) (data : Matrix) (p : Nat × Nat) (r : CodecReport)
    (d : Disk) : Prop :=
  ∃ bytes, Built c directory data p r bytes ∧ d.entryAt? r.path = some (.file bytes)

/-- Publishing the codec of a pair leaves the codecs of all pairs in place. -/
theorem InPlace.published {p q : Nat × Nat} {r s : CodecReport} {bytes : List UInt8}
    (h : InPlace c directory data p r d) (hbuilt : Built c directory data q s bytes)
    (hpublished : Published s.path bytes d d') : InPlace c directory data p r d' := by
  obtain ⟨bytes', hbuilt', hentry⟩ := h
  refine ⟨bytes', hbuilt', ?_⟩
  by_cases hpq : p = q
  · subst hpq
    obtain ⟨rfl, rfl⟩ := hbuilt'.unique hbuilt
    exact hpublished.entryAt?_self
  · rw [← hentry]
    refine hpublished.entryAt?_of_ne ?_ ?_
    · rw [hbuilt'.path_eq, hbuilt.path_eq, place_codec, place_codec, Ne,
        List.append_cancel_left_eq, List.cons.injEq]
      rintro ⟨hname, -⟩
      obtain ⟨hsubspaces, hbits⟩ := c.codecFileName_inj hname
      exact hpq (Prod.ext hsubspaces hbits)
    · rw [hbuilt'.path_eq, hbuilt.path_eq, place_codec, place_temporary, Ne,
        List.append_cancel_left_eq, List.cons.injEq]
      rintro ⟨hname, -⟩
      exact c.codecFileName_ne_temporaryPath _ _ _ _ hname

/-- **Building a codec puts it in place, and leaves the others in place.** -/
theorem ends_buildCodec_inPlace (p : Nat × Nat) :
    Ends d (buildCodec c data directory p.1 p.2)
      (fun r d' => InPlace c directory data p r d' ∧
        ∀ q s, InPlace c directory data q s d → InPlace c directory data q s d')
      fun _ _ => True := by
  refine ends_bind (ends_lift ?_ fun _ _ => trivial)
  rintro ⟨header, codebook, error⟩ hcodec
  obtain ⟨⟨codebook', table⟩, htrain, hcodec⟩ := bind_eq_ok.1 (JobResult.ofResult_eq_ok.1 hcodec)
  obtain ⟨error', herror, hcodec⟩ := bind_eq_ok.1 hcodec
  obtain ⟨header', hheader, hcodec⟩ := bind_eq_ok.1 hcodec
  cases hcodec
  refine ends_bind (ends_adapt ((ends_publish_published _ _ d).mono ?_ fun _ _ _ => trivial))
  rintro - d' ⟨bytes, hbytes, hpublished⟩
  have hbuilt : Built c directory data p ⟨p.1, p.2, _, error⟩ bytes :=
    ⟨rfl, rfl, codebook, table, header, htrain, herror, hheader, hbytes⟩
  refine ends_pure ⟨⟨bytes, hbuilt, hpublished.entryAt?_self⟩, fun q s hs => ?_⟩
  exact hs.published hbuilt hpublished

/-! ## All of them -/

/-- The data that codecs are trained on: the data as it is, or its product with the rotation. -/
def IsCodecData (data : Matrix) : Option Matrix → Matrix → Prop
  | none, data' => data' = data
  | some rotation, data' => data.mul rotation = .ok data'

theorem IsCodecData.unique {rotation : Option Matrix} {data₁ data₂ : Matrix}
    (h₁ : IsCodecData data rotation data₁) (h₂ : IsCodecData data rotation data₂) :
    data₁ = data₂ := by
  cases rotation with
  | none => exact h₁.trans h₂.symm
  | some r => exact Except.ok.inj (h₁.symm.trans h₂)

/-- Rotating is multiplying. -/
theorem isCodecData_of_applyRotation {r data' : Matrix} (h : applyRotation data r = .ok data') :
    IsCodecData data (some r) data' := by
  obtain ⟨-, -, h⟩ := bind_eq_ok.1 h
  exact Result.ofMatrix_eq_ok.1 h

/-- In the end, every codec is in place. -/
theorem ends_construct_inPlace (c : JobConfig) (data : Matrix) (rotation : Option Matrix) (d : Disk) :
    Ends d (construct c data rotation)
      (fun reports d' => ∃ directory data', c.outputPath = .ok directory ∧
        IsCodecData data rotation data' ∧
          List.Forall₂ (fun p r => InPlace c directory data' p r d') c.codecPairs reports)
      fun _ _ => True := by
  refine ends_bind (ends_lift (fun _ _ => ?_) fun _ _ => trivial)
  refine ends_bind (ends_lift (fun directory hdirectory => ?_) fun _ _ => trivial)
  refine ends_bind (ends_require (fun d₁ _ => ?_) fun _ _ => trivial)
  have hcodecs : ∀ data', IsCodecData data rotation data' →
      Ends d₁ (c.codecPairs.mapM fun (p : Nat × Nat) => buildCodec c data' directory p.1 p.2)
        (fun reports d' => ∃ directory data', c.outputPath = .ok directory ∧
          IsCodecData data rotation data' ∧
            List.Forall₂ (fun p r => InPlace c directory data' p r d') c.codecPairs reports)
        fun _ _ => True := by
    intro data' hdata'
    refine (ends_mapM_forall₂ fun p _ d => ends_buildCodec_inPlace p).mono ?_ fun _ _ h => h
    rintro reports d' ⟨hreports, -⟩
    exact ⟨directory, data', hdirectory, hdata', hreports⟩
  cases rotation with
  | none => exact ends_bind (ends_pure (hcodecs data rfl))
  | some r =>
    refine ends_bind (ends_lift (fun data' hdata' => ?_) fun _ _ => trivial)
    exact hcodecs data' (isCodecData_of_applyRotation (JobResult.ofResult_eq_ok.1 hdata'))

theorem exists_of_forall₂ {α β : Type} {R : α → β → Prop} {xs : List α} {ys : List β}
    (h : List.Forall₂ R xs ys) {y : β} (hy : y ∈ ys) : ∃ x, R x y := by
  obtain ⟨i, hi, rfl⟩ := List.getElem_of_mem hy
  obtain ⟨hlen, hall⟩ := List.forall₂_iff_get.1 h
  exact ⟨_, hall i (hlen ▸ hi) hi⟩

/-- Which other pairs there are makes no difference to what is built for a pair. -/
theorem built_withPairs {subspaceCounts codeWidths : List Nat} {p : Nat × Nat} {r : CodecReport}
    {bytes : List UInt8}
    (h : Built (c.withPairs subspaceCounts codeWidths) directory data p r bytes) :
    Built c directory data p r bytes :=
  ⟨h.pair_eq, h.path_eq, h.codec⟩

/-- **Every codec is built on its own.**  If building the codecs succeeds, the reports come in the
order of the pairs, and each of them is about the codec that has been trained for its pair from the
seed on the data, multiplied by the rotation if there is one; its file holds that codec in the end.
Different pairs have different names, none of which is the name of a temporary file.  So if the codecs
of any other pairs are built along with a pair, on whatever disk, its report and its file are the
same. -/
theorem codecs_independent (c : JobConfig) (data : Matrix) (rotation : Option Matrix) (d d' : Disk)
    (reports : List CodecReport) (h : d.run (construct c data rotation) = (.ok reports, d')) :
    (∃ directory data', c.outputPath = .ok directory ∧ IsCodecData data rotation data' ∧
      List.Forall₂ (fun p r => InPlace c directory data' p r d') c.codecPairs reports) ∧
    (∀ m b m' b', c.codecFileName m b = c.codecFileName m' b' → m = m' ∧ b = b') ∧
    (∀ m b m' b', c.codecFileName m b ≠ Storage.temporaryPath (c.codecFileName m' b')) ∧
    ∀ (subspaceCounts codeWidths : List Nat) (d₁ d₁' : Disk) (reports₁ : List CodecReport),
      d₁.run (construct (c.withPairs subspaceCounts codeWidths) data rotation)
        = (.ok reports₁, d₁') →
      ∀ r ∈ reports, ∀ r₁ ∈ reports₁, (r.subspaces, r.bits) = (r₁.subspaces, r₁.bits) →
        r = r₁ ∧ d'.entryAt? r.path = d₁'.entryAt? r.path := by
  have hbuilt := (ends_construct_inPlace c data rotation d).of_ok h
  refine ⟨hbuilt, fun m b m' b' => c.codecFileName_inj, fun m b m' b' =>
    c.codecFileName_ne_temporaryPath m m' b b', ?_⟩
  intro subspaceCounts codeWidths d₁ d₁' reports₁ h₁ r hr r₁ hr₁ hpair
  obtain ⟨directory, data', hdirectory, hdata', hreports⟩ := hbuilt
  obtain ⟨directory₁, data₁', hdirectory₁, hdata₁', hreports₁⟩ :=
    (ends_construct_inPlace _ data rotation d₁).of_ok h₁
  cases hdata'.unique hdata₁'
  cases hdirectory.symm.trans hdirectory₁
  obtain ⟨p, bytes, hp, hentry⟩ := exists_of_forall₂ hreports hr
  obtain ⟨p₁, bytes₁, hp₁, hentry₁⟩ := exists_of_forall₂ hreports₁ hr₁
  cases hp.pair_eq.symm.trans (hpair.trans hp₁.pair_eq)
  obtain ⟨rfl, rfl⟩ := hp.unique (built_withPairs hp₁)
  exact ⟨rfl, hentry.trans hentry₁.symm⟩

/-- Codecs with one subspace and with two, for vectors of dimension two. -/
def twoCodecs : JobConfig :=
  { rotatedJob with dim := 2, subspaceCounts := [1, 2], switch := 0 }

/-- Two points in the plane, also taken as the rotation that exchanges the coordinates. -/
def unitPoints : Matrix := .stack 2 [[.zero, .one], [.one, .zero]]

/-- The second codec of the job: its header, and the coordinates of the exchanged points. -/
def secondCodec : List UInt8 :=
  [2, 0, 0, 0, 2, 0, 0, 0, 2, 0, 0, 0, 1, 0, 0, 0,
    0, 0, 0, 0, 0, 0, 128, 63, 0, 0, 128, 63, 0, 0, 0, 0]

/-- What there is when both codecs have been built. -/
def twoCodecsDone : Disk where
  tree := [
    (["work", "out", "encoded_data_0_2_2_1"], .file secondCodec),
    (["work", "out", "encoded_data_0_2_1_1"],
      .file [2, 0, 0, 0, 2, 0, 0, 0, 1, 0, 0, 0, 1, 0, 0, 0,
        0, 0, 0, 0, 0, 0, 128, 63, 0, 0, 128, 63, 0, 0, 0, 0]),
    (["work", "out"], .directory)]
  here := ["work"]
  mishaps := []

/-- Two codecs for two points, on an empty disk, and the second of them alone, on another disk. -/
theorem codecs_independent_two_pairs : ∃ data' d₁',
    unitPoints.mul unitPoints = .ok data' ∧
    Disk.empty.run (construct twoCodecs unitPoints (some unitPoints))
      = (.ok [⟨1, 1, "out/encoded_data_0_2_1_1", 0.0⟩, ⟨2, 1, "out/encoded_data_0_2_2_1", 0.0⟩],
        twoCodecsDone) ∧
    InPlace twoCodecs "out" data' (1, 1) ⟨1, 1, "out/encoded_data_0_2_1_1", 0.0⟩ twoCodecsDone ∧
    InPlace twoCodecs "out" data' (2, 1) ⟨2, 1, "out/encoded_data_0_2_2_1", 0.0⟩ twoCodecsDone ∧
    twoCodecs.codecFileName 1 1 ≠ twoCodecs.codecFileName 2 1 ∧
    twoCodecs.codecFileName 1 1 ≠ Storage.temporaryPath (twoCodecs.codecFileName 2 1) ∧
    twoVectors.run (construct (twoCodecs.withPairs [2] [1]) unitPoints (some unitPoints))
      = (.ok [⟨2, 1, "out/encoded_data_0_2_2_1", 0.0⟩], d₁') ∧
    d₁'.entryAt? "out/encoded_data_0_2_2_1" = some (.file secondCodec) := by
  have hboth : Disk.empty.run (construct twoCodecs unitPoints (some unitPoints))
      = (.ok [⟨1, 1, "out/encoded_data_0_2_1_1", 0.0⟩, ⟨2, 1, "out/encoded_data_0_2_2_1", 0.0⟩],
        twoCodecsDone) := by
    decide +kernel
  have hreport : (twoVectors.run
      (construct (twoCodecs.withPairs [2] [1]) unitPoints (some unitPoints))).1
        = .ok [⟨2, 1, "out/encoded_data_0_2_2_1", 0.0⟩] := by
    decide +kernel
  have hone := Disk.run_eq_of_fst hreport
  obtain ⟨⟨directory, data', hdirectory, hdata', hplaces⟩, hnames, htemporary, hothers⟩ :=
    codecs_independent _ _ _ _ _ _ hboth
  have hout : twoCodecs.outputPath = .ok "out" := by decide +kernel
  cases hout.symm.trans hdirectory
  have hpairs : twoCodecs.codecPairs = [(1, 1), (2, 1)] := by decide
  rw [hpairs, List.forall₂_cons, List.forall₂_cons] at hplaces
  have hsecond : twoCodecsDone.entryAt? "out/encoded_data_0_2_2_1" = some (.file secondCodec) := by
    decide +kernel
  obtain ⟨-, hsame⟩ := hothers [2] [1] _ _ _ hone ⟨2, 1, "out/encoded_data_0_2_2_1", 0.0⟩
    (List.mem_cons_of_mem _ List.mem_cons_self) _ List.mem_cons_self rfl
  refine ⟨data', _, hdata', hboth, hplaces.1, hplaces.2.1, fun h => ?_, htemporary 1 1 2 1, hone,
    hsame.symm.trans hsecond⟩
  exact absurd (hnames 1 1 2 1 h).1 (by decide)

end Job
end ProductQuantization
