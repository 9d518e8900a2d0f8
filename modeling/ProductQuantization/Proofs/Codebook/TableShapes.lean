import ProductQuantization.Json.Parser
import ProductQuantization.Proofs.Codebook.Packing
import ProductQuantization.Proofs.Codebook.Projection
import ProductQuantization.Proofs.Json.Reading
import ProductQuantization.Proofs.Rotation.Rounds

/-!
# Where tables come from

A table is relied on to have a code for each vector and subspace.  There are six ways in which the
library computes one (`Computed`), and each of them sees to that, except that the number of codes is
compared as a sixty-four-bit word: a shape of `2 ^ 64` codes or more can be put on fewer (`size_codes`).
And there are two ways in which a table is read, alone and as a part of a rotated quantizer, and these
do not compare anything.

What a table is good for depends on the number of its codes alone.  If there are enough, nothing that
is looked up in it is missing, whatever the codebook; if not, the last row is (`complete_iff`).  Apart
from that, decoding needs a buffer for the decoded vectors.
-/

set_option autoImplicit false

namespace ProductQuantization

/-! ## Tables that are computed -/

namespace CodeTable

/-- The tables that the library computes: from codes, from clusterings, by encoding, by unpacking, and
by training. -/
inductive Computed : CodeTable → Prop where
  | codes {vectors subspaces : Nat} {codes : Array UInt16} {t : CodeTable}
    (h : ofCodes vectors subspaces codes = .ok t) : Computed t
  | clusterings {clusterings : List Clustering} {t : CodeTable}
    (h : ofClusterings clusterings = .ok t) : Computed t
  | encoded {c : Codebook} {data : Matrix} {t : CodeTable} (h : c.encode data = .ok t) : Computed t
  | unpacked {bytes : List UInt8} {vectors subspaces bits : Nat} {t : CodeTable}
    (h : unpack bytes vectors subspaces bits = .ok t) : Computed t
  | trained {σ : Type} [RandomSource σ] {data : Matrix} {options : QuantizerOptions} {s : σ}
    {c : Codebook} {t : CodeTable} (h : (Codebook.train data options s).1 = .ok (c, t)) : Computed t
  | trainedRotation {σ : Type} [RandomSource σ] {data : Matrix} {options : RotationOptions} {s : σ}
    {q : RotatedQuantizer} (h : (RotationTraining.train data options s).1 = .ok q) : Computed q.table

theorem Holds.wellFormed {t : CodeTable} {clusterings : List Clustering} (h : t.Holds clusterings) :
    t.WellFormed := by
  have hsize := size_codes_of_flatMap h.codes_eq fun i _ => h.length_assignedCodes i
  rwa [List.length_range] at hsize

end CodeTable

namespace Codebook

variable {c : Codebook}

theorem length_filled? {count : Nat} {vectors : List Point} {codes : List UInt16}
    (h : c.filled? count vectors = some codes) : codes.length = count := by
  induction vectors generalizing count codes with
  | nil =>
    rw [filled?, Option.some_inj] at h
    rw [← h, List.length_replicate]
  | cons vector vectors ih =>
    rw [filled?, Option.bind_eq_bind, Option.bind_eq_some_iff] at h
    obtain ⟨first, hfirst, h⟩ := h
    obtain ⟨rest, hrest, h⟩ := Option.bind_eq_some_iff.1 h
    cases h
    have hlen := (mapM_eq_some.1 hfirst).length_eq
    rw [List.length_range] at hlen
    rw [List.length_append, ← hlen, ih hrest]
    omega

theorem length_codesAmong? {blocks : List (List Point)} {vector : Point} {codes : List UInt16}
    (h : c.codesAmong? blocks vector = some codes) : codes.length = blocks.length := by
  rw [← (mapM_eq_some.1 h).length_eq, List.length_zipIdx]

/-- The table of any matrix with any codebook. -/
theorem size_codes_of_encode {data : Matrix} {t : CodeTable} (h : c.encode data = .ok t) :
    t.WellFormed ∨ t.codes.size = sizeProduct t.vectors t.subspaces := by
  rw [encode] at h
  obtain ⟨-, -, h⟩ := bind_eq_ok.1 h
  obtain ⟨-, -, h⟩ := bind_eq_ok.1 h
  split at h
  · obtain ⟨-, -, h⟩ := bind_eq_ok.1 h
    obtain ⟨codes, hcodes, h⟩ := bind_eq_ok.1 h
    cases h
    exact .inr (length_filled? (Result.ofIndex_eq_ok.1 hcodes))
  · rename_i hfull
    obtain ⟨blocks, hblocks, h⟩ := bind_eq_ok.1 h
    obtain ⟨rows, hrows, h⟩ := bind_eq_ok.1 h
    cases h
    have hcols : data.cols ≠ 0 := fun h0 => hfull (by simp [Matrix.isEmpty, h0])
    have hwidth := (mapM_eq_some.1 (Result.ofIndex_eq_ok.1 hblocks)).length_eq
    have hrows := mapM_eq_some.1 (Result.ofIndex_eq_ok.1 hrows)
    rw [List.length_range] at hwidth
    have hrow : ∀ row ∈ rows, (id row).length = c.subspaces := by
      intro row hrow
      obtain ⟨i, hi, rfl⟩ := List.mem_iff_getElem.1 hrow
      rw [id, hwidth]
      exact length_codesAmong? ((List.forall₂_iff_get.1 hrows).2 i (hrows.length_eq ▸ hi) hi)
    have hlen := length_flatMap_of_length hrow
    rw [List.flatMap_id, ← hrows.length_eq, Matrix.length_toRows hcols] at hlen
    exact .inl hlen

end Codebook

namespace CodeTable

/-- **The number of codes** in a table that has been computed is that of its shape, or the same
sixty-four-bit word. -/
theorem size_codes {t : CodeTable} (h : Computed t) :
    t.WellFormed ∨ t.codes.size = sizeProduct t.vectors t.subspaces := by
  induction h with
  | codes h =>
    obtain ⟨hsize, rfl⟩ := ofCodes_eq_ok.1 h
    exact .inr hsize
  | clusterings h => exact .inl (holds_ofClusterings h).2.wellFormed
  | encoded h => exact Codebook.size_codes_of_encode h
  | unpacked h =>
    obtain ⟨-, -, codes, -, hsize, rfl⟩ := unpack_eq_ok.1 h
    exact .inr hsize
  | trained h =>
    obtain ⟨clusterings, -, ha⟩ := Codebook.assembled_of_train h
    exact .inl ha.table.wellFormed
  | @trainedRotation σ _ data options s q h =>
    rw [RotationTraining.train] at h
    split at h
    · cases h
    · split at h
      · cases h
      · obtain ⟨st, -, h⟩ := bind_eq_ok.1 h
        obtain ⟨st', -, h⟩ := bind_eq_ok.1 h
        obtain ⟨⟨c, t⟩, ha, h⟩ := bind_eq_ok.1 h
        cases h
        exact .inl (Codebook.holds_assemble ha).2.2.wellFormed

/-- A table is computed if the number of its codes is that of its shape as a word. -/
theorem computed_of_size {t : CodeTable} (h : t.codes.size = sizeProduct t.vectors t.subspaces) :
    Computed t :=
  .codes (ofCodes_eq_ok.2 ⟨h, rfl⟩)

/-- **Where the number of codes is a word**, the tables that are computed are the well-formed ones. -/
theorem computed_iff {t : CodeTable} (hfit : t.vectors * t.subspaces < wordValues 64) :
    Computed t ↔ t.WellFormed := by
  constructor
  · intro h
    rcases size_codes h with h | h
    · exact h
    · exact h.trans (sizeProduct_eq hfit)
  · intro h
    exact computed_of_size (h.trans (sizeProduct_eq hfit).symm)

/-- Where it is not, a table that has the same word of codes has not all of them. -/
theorem not_wellFormed_of_size {t : CodeTable} (hlarge : wordValues 64 ≤ t.vectors * t.subspaces)
    (h : t.codes.size = sizeProduct t.vectors t.subspaces) : ¬ t.WellFormed := by
  intro hwell
  have hlt : sizeProduct t.vectors t.subspaces < wordValues 64 :=
    Nat.mod_lt _ (Nat.pow_pos (by decide))
  rw [← h, hwell] at hlt
  omega

/-! ## What can be looked up -/

/-- Nothing that is looked up in the table is missing. -/
structure Complete (t : CodeTable) : Prop where
  get? : ∀ i m, i < t.vectors → m < t.subspaces → ∃ code, t.get? i m = some code
  row? : ∀ i, i < t.vectors → ∃ row, t.row? i = some row ∧ row.length = t.subspaces
  /-- Where there is a buffer for the decoded vectors. -/
  decode : ∀ c : Codebook, c.WellFormed → Matrix.fits (t.vectors * c.dim) = true →
    c.decode t ≠ .error .outOfBounds
  meanSquaredError : ∀ (c : Codebook) (data : Matrix), c.WellFormed →
    Matrix.fits (t.vectors * c.dim) = true → c.meanSquaredError data t ≠ .error .outOfBounds
  pack : ∀ bits, t.pack bits ≠ .error .outOfBounds

section Complete

variable {t : CodeTable}

/-- A row is there if there are codes enough. -/
theorem exists_row? {i : Nat} (h : (i + 1) * t.subspaces ≤ t.codes.size) :
    ∃ row, t.row? i = some row ∧ row.length = t.subspaces := by
  rw [Nat.succ_mul] at h
  refine ⟨_, if_pos h, ?_⟩
  rw [Array.length_toList, Array.size_extract]
  omega

theorem exists_row?_of_le (h : t.vectors * t.subspaces ≤ t.codes.size) {i : Nat}
    (hi : i < t.vectors) : ∃ row, t.row? i = some row ∧ row.length = t.subspaces :=
  exists_row? (Nat.le_trans (Nat.mul_le_mul_right _ hi) h)

theorem pack_ne_outOfBounds (h : t.vectors * t.subspaces ≤ t.codes.size) (bits : Nat) :
    FailsWith (· ≠ .outOfBounds) (t.pack bits) := by
  have hrows : ∃ rows, (List.range t.vectors).mapM t.row? = some rows := by
    refine exists_mapM_eq_some fun i hi => ?_
    obtain ⟨row, hrow, -⟩ := exists_row?_of_le h (List.mem_range.1 hi)
    exact ⟨row, hrow⟩
  obtain ⟨rows, hrows⟩ := hrows
  refine failsWith_bind (Result.failsWith_guard (by simp)) fun _ => ?_
  split
  · exact failsWith_error (by simp)
  · rw [hrows]
    split
    · exact failsWith_ok _
    · split <;> exact failsWith_ok _

end Complete
end CodeTable

namespace Codebook

variable {c : Codebook} {t : CodeTable}

theorem checkCodes_ne_outOfBounds (codes : List UInt16) :
    FailsWith (· ≠ .outOfBounds) (c.checkCodes codes) := by
  refine failsWith_bind (Result.failsWith_guard (by simp)) fun _ => ?_
  split
  · exact failsWith_error (by simp)
  · exact failsWith_ok ()

theorem checkedRow_eq_ok {i : Nat} {codes : List UInt16} (h : c.checkedRow t i = .ok codes) :
    c.IsCodeRow codes := by
  obtain ⟨codes', -, h⟩ := bind_eq_ok.1 h
  obtain ⟨u, hcheck, h⟩ := bind_eq_ok.1 h
  cases h
  exact checkCodes_eq_ok_iff.1 hcheck

theorem exists_decodedRow (hc : c.WellFormed) {codes : List UInt16} (hcodes : c.IsCodeRow codes) :
    ∃ row, c.decodedRow codes = .ok row := by
  obtain ⟨clusterings, h⟩ := hc.exists_holds
  exact ⟨_, decodedRow_eq_ok h hcodes⟩

theorem decode_ne_outOfBounds (hc : c.WellFormed) (h : t.vectors * t.subspaces ≤ t.codes.size)
    (hfits : Matrix.fits (t.vectors * c.dim) = true) :
    FailsWith (· ≠ .outOfBounds) (c.decode t) := by
  refine failsWith_bind (Result.failsWith_guard (by simp)) fun _ => ?_
  rw [hfits, Result.guard_true]
  split
  · exact failsWith_ok _
  · intro e he
    rcases bind_eq_error.1 he with he | ⟨rows, hrows, he⟩
    · refine failsWith_mapM (P := (· ≠ .outOfBounds)) (fun i hi => ?_) e he
      obtain ⟨row, hrow, -⟩ := CodeTable.exists_row?_of_le h (List.mem_range.1 hi)
      rw [checkedRow, hrow, Result.ofIndex_some, ok_bind]
      exact failsWith_bind (checkCodes_ne_outOfBounds row) fun _ => failsWith_ok row
    · have hdecoded : ∃ decoded, rows.mapM c.decodedRow = .ok decoded := by
        refine exists_mapM_eq_ok fun codes hmem => ?_
        obtain ⟨k, hk, rfl⟩ := List.mem_iff_getElem.1 hmem
        have hall := List.forall₂_iff_get.1 (mapM_eq_ok.1 hrows)
        exact exists_decodedRow hc (checkedRow_eq_ok (hall.2 k (hall.1 ▸ hk) hk))
      obtain ⟨decoded, hdecoded⟩ := hdecoded
      rw [hdecoded, ok_bind] at he
      split at he <;> cases he

theorem meanSquaredError_ne_outOfBounds (hc : c.WellFormed)
    (h : t.vectors * t.subspaces ≤ t.codes.size) (hfits : Matrix.fits (t.vectors * c.dim) = true)
    (data : Matrix) : FailsWith (· ≠ .outOfBounds) (c.meanSquaredError data t) := by
  refine failsWith_bind (Result.failsWith_guard (by simp)) fun _ => ?_
  split
  · exact failsWith_ok _
  · exact failsWith_bind (decode_ne_outOfBounds hc h hfits) fun _ =>
      failsWith_bind (Result.ofMatrix_ne_outOfBounds _) fun _ => failsWith_ok _

end Codebook

namespace CodeTable

/-- **A table is complete exactly if it has codes enough.** -/
theorem complete_iff {t : CodeTable} : t.Complete ↔ t.vectors * t.subspaces ≤ t.codes.size := by
  constructor
  · intro h
    rcases Nat.eq_zero_or_pos t.vectors with h0 | hpos
    · simp [h0]
    · obtain ⟨row, hrow, -⟩ := h.row? (t.vectors - 1) (by omega)
      have hin : (t.vectors - 1) * t.subspaces + t.subspaces ≤ t.codes.size := by
        by_contra hout
        rw [row?, if_neg hout] at hrow
        cases hrow
      rwa [← Nat.succ_mul, Nat.succ_eq_add_one, Nat.sub_add_cancel hpos] at hin
  · intro h
    refine ⟨fun i m hi hm => ?_, fun i hi => exists_row?_of_le h hi, fun c hc hfits herr => ?_,
      fun c data hc hfits herr => ?_, fun bits herr => ?_⟩
    · obtain ⟨row, hrow, hlen⟩ := exists_row?_of_le h hi
      exact ⟨row[m], by rw [get?_of_row? hrow hm, List.getElem?_eq_getElem (hlen ▸ hm)]⟩
    · exact Codebook.decode_ne_outOfBounds hc h hfits _ herr rfl
    · exact Codebook.meanSquaredError_ne_outOfBounds hc h hfits data _ herr rfl
    · exact pack_ne_outOfBounds h bits _ herr rfl

/-- **Tables and their shapes.**  The tables that are computed are those that have as many codes as
their shape says, as long as that is fewer than `2 ^ 64`; of a larger shape, tables are computed that
have fewer.  The tables that are read, alone as well as in a rotated quantizer, are all those whose
sizes are words, whatever codes they have.  And nothing that is looked up in a table is missing exactly
if it has at least as many codes as its shape says. -/
theorem table_shapes (t : CodeTable) :
    (t.vectors * t.subspaces < wordValues 64 → (Computed t ↔ t.WellFormed)) ∧
    (wordValues 64 ≤ t.vectors * t.subspaces →
      t.codes.size = sizeProduct t.vectors t.subspaces → Computed t ∧ ¬ t.WellFormed) ∧
    ((∃ v, ofJson? v = some t) ↔ t.vectors < wordValues 64 ∧ t.subspaces < wordValues 64) ∧
    (∀ (r : Matrix) (c : Codebook) (ds : List Float),
      (∃ v, RotatedQuantizer.ofJson? v = some ⟨r, c, t, ds⟩) ↔
        (∃ v, Matrix.ofJson? v = some r) ∧ (∃ v, Codebook.ofJson? v = some c) ∧
          (t.vectors < wordValues 64 ∧ t.subspaces < wordValues 64) ∧
            ∃ v, Json.list? Json.float? v = some ds) ∧
    (t.Complete ↔ t.vectors * t.subspaces ≤ t.codes.size) := by
  refine ⟨computed_iff, fun hlarge h => ⟨computed_of_size h, not_wellFormed_of_size hlarge h⟩,
    exists_ofJson?_iff, fun r c ds => ?_, complete_iff⟩
  rw [RotatedQuantizer.exists_ofJson?_iff, exists_ofJson?_iff]

/-- A table that is read has one vector in one subspace and no codes, so that its only code is not
there; and no codes at all are taken for `2 ^ 63` vectors in two subspaces. -/
theorem table_shapes_no_codes :
    Json.parse? "\x7b\"num_vectors\":1,\"num_subspaces\":1,\"codes\":[]\x7d" >>= ofJson?
        = some ⟨1, 1, #[]⟩ ∧
      ¬ Computed ⟨1, 1, #[]⟩ ∧ ¬ CodeTable.Complete ⟨1, 1, #[]⟩ ∧
      CodeTable.get? ⟨1, 1, #[]⟩ 0 0 = none ∧
      Codebook.decode ⟨1, 1, 1, 1, #[.zero]⟩ ⟨1, 1, #[]⟩ = .error .outOfBounds ∧
      CodeTable.pack ⟨1, 1, #[]⟩ 4 = .error .outOfBounds ∧
      ofCodes (2 ^ 63) 2 #[] = .ok ⟨2 ^ 63, 2, #[]⟩ ∧
      ¬ CodeTable.WellFormed ⟨2 ^ 63, 2, #[]⟩ ∧ ¬ CodeTable.Complete ⟨2 ^ 63, 2, #[]⟩ := by
  obtain ⟨hcomputed, -, -, -, hcomplete⟩ := table_shapes ⟨1, 1, #[]⟩
  obtain ⟨-, hlarge, -, -, hcomplete'⟩ := table_shapes ⟨2 ^ 63, 2, #[]⟩
  refine ⟨by decide +kernel, fun h => ?_, fun h => ?_, rfl, rfl, rfl, rfl, ?_, fun h => ?_⟩
  · exact absurd ((hcomputed (by decide)).1 h) (by decide)
  · exact absurd (hcomplete.1 h) (by decide)
  · exact (hlarge (by decide) (by decide)).2
  · exact absurd (hcomplete'.1 h) (by decide)

end CodeTable
end ProductQuantization
