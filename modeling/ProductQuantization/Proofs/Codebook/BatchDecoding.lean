import ProductQuantization.Proofs.Codebook.TableShapes
import ProductQuantization.Proofs.Rotation.Rounds

/-!
# Decoding many vectors and decoding one

A table is decoded as its rows are decoded one by one: that is `decode_eq_mapM`, and what can be said
about a table follows from it (`BatchDecoded`).  The two are computed differently.  For a single row
the codes are checked and the centroids put side by side; for a table the codes of all rows are
checked before anything is decoded, and the centroids are then copied into a matrix of zeros, each to
its place.  Because the check is all that can fail in a row, it makes no difference that it comes
first.  The matrix needs a buffer, though, and a table can be too long for that
(`decode_of_too_long`).

The training of a rotation has a third way, from the clusterings themselves.  It agrees with the other
two as long as all assignments are to centroids (`batch_decoding`).
-/

set_option autoImplicit false

namespace ProductQuantization
namespace Codebook

variable {c : Codebook} {t : CodeTable}

/-! ## One row -/

/-- The first code of a row that names no centroid, and its subspace. -/
structure FirstInvalid (c : Codebook) (codes : List UInt16) (m : Nat) (code : UInt16) : Prop where
  getElem?_eq : codes[m]? = some code
  size_le : c.size ≤ code.toNat
  before : ∀ j other, j < m → codes[j]? = some other → other.toNat < c.size

theorem checkCodes_eq_error_iff {codes : List UInt16} (hlen : codes.length = c.subspaces)
    {e : QuantError} : c.checkCodes codes = .error e ↔
      ∃ m code, c.FirstInvalid codes m code ∧ e = .invalidCode m code.toNat := by
  have hguard : Result.guard (codes.length = c.subspaces)
      (.invalidParams (.codeCount c.subspaces codes.length)) = .ok () := by simp [hlen]
  have hfind := @find?_zipIdx_eq_some _ (fun code : UInt16 => decide (c.size ≤ code.toNat)) codes
  simp only [decide_eq_true_eq, decide_eq_false_iff_not, Nat.not_le] at hfind
  rw [checkCodes, hguard, ok_bind]
  constructor
  · intro h
    split at h
    · rename_i code m hsome
      cases h
      obtain ⟨hm, hle, hbefore⟩ := hfind.1 hsome
      exact ⟨m, code, ⟨hm, hle, hbefore⟩, rfl⟩
    · cases h
  · rintro ⟨m, code, h, rfl⟩
    have hsome := hfind.2 ⟨h.getElem?_eq, h.size_le, h.before⟩
    split
    · rename_i found hfound
      cases hfound.symm.trans hsome
      rfl
    · rename_i hnone
      cases hnone.symm.trans hsome

/-- The vector that row `i` of a table stands for. -/
def decodeAt (c : Codebook) (t : CodeTable) (i : Nat) : Result Point :=
  Result.ofIndex (t.row? i) >>= c.decodeVector

/-- The check is all that can fail. -/
theorem decodeAt_eq {clusterings : List Clustering} (h : c.Holds clusterings) (t : CodeTable)
    (i : Nat) : c.decodeAt t i
      = (c.checkedRow t i).map fun codes => (namedCentroids clusterings codes).flatten := by
  rw [decodeAt, checkedRow]
  cases t.row? i with
  | none => rfl
  | some codes =>
    rw [Result.ofIndex_some, ok_bind, ok_bind]
    cases hcheck : c.checkCodes codes with
    | error e => rw [decodeVector, hcheck]; rfl
    | ok u => rw [decodeVector_eq h (checkCodes_eq_ok_iff.1 hcheck)]; rfl

/-! ## All rows -/

/-- **A table is decoded row by row**, and there must be a buffer for the rows. -/
theorem decode_eq_mapM (hc : c.WellFormed) (hs : t.subspaces = c.subspaces) :
    c.decode t = (List.range t.vectors).mapM (c.decodeAt t) >>= fun vs =>
      (Matrix.stack c.dim vs).buffered := by
  obtain ⟨clusterings, h⟩ := hc.exists_holds
  have hs0 : c.subspaces ≠ 0 := Nat.pos_iff_ne_zero.1 hc.subspaces_pos
  have hd0 : c.dim ≠ 0 := Nat.pos_iff_ne_zero.1 hc.dim_pos
  rw [funext (decodeAt_eq h t), mapM_map_right]
  simp only [decode, hs, hs0, hd0, decide_true, Result.guard_true, ok_bind, if_false]
  cases hrows : (List.range t.vectors).mapM (c.checkedRow t) with
  | error e => rfl
  | ok rows =>
    have hlen : rows.length = t.vectors := (mapM_range_eq_ok.1 hrows).1
    have hdecoded : rows.mapM c.decodedRow
        = .ok (rows.map fun codes => (namedCentroids clusterings codes).flatten) := by
      refine mapM_eq_ok_map fun codes hmem => decodedRow_eq_ok h ?_
      obtain ⟨k, hk, rfl⟩ := List.mem_iff_getElem.1 hmem
      have hall := List.forall₂_iff_get.1 (mapM_eq_ok.1 hrows)
      exact checkedRow_eq_ok (hall.2 k (hall.1 ▸ hk) hk)
    simp only [ok_bind, hdecoded, Except.map, Matrix.buffered, Matrix.rows_stack,
      Matrix.cols_stack, List.length_map, hlen]

/-- What is decoded has the width of the codebook. -/
theorem length_of_decodeAt (hc : c.WellFormed) {i : Nat} {v : Point}
    (hv : c.decodeAt t i = .ok v) : v.length = c.dim := by
  obtain ⟨clusterings, h⟩ := hc.exists_holds
  rw [decodeAt_eq h, map_eq_ok] at hv
  obtain ⟨codes, hcodes, rfl⟩ := hv
  exact length_flatten_namedCentroids h (checkedRow_eq_ok hcodes)

/-- A row can be decoded if its codes are there and name centroids. -/
theorem exists_decodeAt (hc : c.WellFormed) (hs : t.subspaces = c.subspaces) (ht : t.WellFormed)
    (hcodes : ∀ code ∈ t.codes, code.toNat < c.size) {i : Nat} (hi : i < t.vectors) :
    ∃ v, c.decodeAt t i = .ok v := by
  obtain ⟨clusterings, h⟩ := hc.exists_holds
  obtain ⟨row, hrow, hlen⟩ := CodeTable.exists_row?_of_le (Nat.le_of_eq ht.symm) hi
  have hcheck : c.checkCodes row = .ok () := checkCodes_eq_ok_iff.2
    ⟨hlen.trans hs, fun code hcode => hcodes code (CodeTable.mem_of_row? hrow hcode)⟩
  rw [decodeAt_eq h, checkedRow, hrow, Result.ofIndex_some, ok_bind, hcheck]
  exact ⟨_, rfl⟩

/-- Row `i` of a table is the first that cannot be decoded, and this is its error. -/
structure FirstFailure (c : Codebook) (t : CodeTable) (i : Nat) (e : QuantError) : Prop where
  lt : i < t.vectors
  decodeAt_eq : c.decodeAt t i = .error e
  before : ∀ j, j < i → ∃ v, c.decodeAt t j = .ok v

/-- How the decoding of a table and that of its rows go together. -/
structure BatchDecoded (c : Codebook) (t : CodeTable) : Prop where
  ok_iff : Matrix.fits (t.vectors * c.dim) = true →
    ((∃ out, c.decode t = .ok out) ↔ ∀ i, i < t.vectors → ∃ v, c.decodeAt t i = .ok v)
  /-- The rows of the result are the rows that are decoded one by one. -/
  rows : ∀ out, c.decode t = .ok out → out.rows = t.vectors ∧ out.cols = c.dim ∧
    ∀ (i : Nat) (hi : i < out.rows), c.decodeAt t i = .ok (out.rowAt ⟨i, hi⟩)
  error_iff : Matrix.fits (t.vectors * c.dim) = true →
    ∀ e, c.decode t = .error e ↔ ∃ i, c.FirstFailure t i e
  /-- The first row that cannot be decoded is found before a buffer is asked for. -/
  error_of_failure : ∀ i e, c.FirstFailure t i e → c.decode t = .error e
  /-- A table of which every row can be decoded, but which is too long for a buffer.  Beyond
  sixty-four bits there is no such shape to ask a buffer for. -/
  too_long : Matrix.fits (t.vectors * c.dim) = false → t.vectors * c.dim < wordValues 64 →
    (∀ i, i < t.vectors → ∃ v, c.decodeAt t i = .ok v) → c.decode t = .error .outOfBounds
  /-- The error of a row is its first code that names no centroid. -/
  invalid_iff : ∀ i codes e, t.row? i = some codes → (c.decodeAt t i = .error e ↔
    ∃ m code, c.FirstInvalid codes m code ∧ e = .invalidCode m code.toNat)
  /-- A table with as many codes as its shape says has all its rows. -/
  exists_row : t.WellFormed → ∀ i, i < t.vectors → ∃ codes, t.row? i = some codes

theorem decodeAt_eq_error_iff (hc : c.WellFormed) (hs : t.subspaces = c.subspaces) {i : Nat}
    {codes : List UInt16} (hrow : t.row? i = some codes) {e : QuantError} :
    c.decodeAt t i = .error e ↔
      ∃ m code, c.FirstInvalid codes m code ∧ e = .invalidCode m code.toNat := by
  obtain ⟨clusterings, h⟩ := hc.exists_holds
  have hlen : codes.length = c.subspaces := (CodeTable.length_of_row? hrow).trans hs
  rw [decodeAt_eq h, map_eq_error, checkedRow, hrow, Result.ofIndex_some, ok_bind,
    ← checkCodes_eq_error_iff hlen]
  cases c.checkCodes codes <;> simp

/-- The rows of a table can be decoded, or there is a first one that cannot. -/
theorem mapM_decodeAt_eq_error {e : QuantError} :
    (List.range t.vectors).mapM (c.decodeAt t) = .error e ↔ ∃ i, c.FirstFailure t i e := by
  rw [mapM_range_eq_error]
  constructor
  · rintro ⟨i, hlt, herror, hbefore⟩
    exact ⟨i, hlt, herror, hbefore⟩
  · rintro ⟨i, h⟩
    exact ⟨i, h.lt, h.decodeAt_eq, h.before⟩

theorem exists_mapM_decodeAt : (∃ vs, (List.range t.vectors).mapM (c.decodeAt t) = .ok vs) ↔
    ∀ i, i < t.vectors → ∃ v, c.decodeAt t i = .ok v := by
  constructor
  · rintro ⟨vs, hvs⟩ i hi
    obtain ⟨hlen, hall⟩ := mapM_range_eq_ok.1 hvs
    exact ⟨_, hall i (hlen ▸ hi)⟩
  · exact fun hall => exists_mapM_eq_ok fun i hi => hall i (List.mem_range.1 hi)

/-- A table whose rows are all decoded needs a buffer for them. -/
theorem decode_of_rows (hc : c.WellFormed) (hs : t.subspaces = c.subspaces) {vs : List Point}
    (hvs : (List.range t.vectors).mapM (c.decodeAt t) = .ok vs) :
    c.decode t = if Matrix.fits (t.vectors * c.dim) then .ok (.stack c.dim vs)
      else .error .outOfBounds := by
  rw [decode_eq_mapM hc hs, hvs, ok_bind, Matrix.buffered, Matrix.rows_stack, Matrix.cols_stack,
    (mapM_range_eq_ok.1 hvs).1]
  cases Matrix.fits (t.vectors * c.dim) <;> rfl

/-- What a table is decoded to are its rows, decoded one by one. -/
theorem exists_rows_of_decode (hc : c.WellFormed) (hs : t.subspaces = c.subspaces) {out : Matrix}
    (hout : c.decode t = .ok out) : ∃ vs,
      (List.range t.vectors).mapM (c.decodeAt t) = .ok vs ∧ out = .stack c.dim vs := by
  rw [decode_eq_mapM hc hs] at hout
  obtain ⟨vs, hvs, hbuffered⟩ := bind_eq_ok.1 hout
  exact ⟨vs, hvs, (Matrix.buffered_eq_ok.1 hbuffered).2.symm⟩

/-- A row that cannot be decoded is noticed before the buffer is asked for. -/
theorem decode_of_failure (hc : c.WellFormed) (hs : t.subspaces = c.subspaces) {i : Nat}
    {e : QuantError} (h : c.FirstFailure t i e) : c.decode t = .error e := by
  rw [decode_eq_mapM hc hs, mapM_decodeAt_eq_error.2 ⟨i, h⟩]
  rfl

/-- **Decoding a table is decoding its rows**, and having a buffer for them. -/
theorem batchDecoded (hc : c.WellFormed) (hs : t.subspaces = c.subspaces) : c.BatchDecoded t := by
  constructor
  case ok_iff =>
    intro hfits
    rw [← exists_mapM_decodeAt]
    constructor
    · rintro ⟨out, hout⟩
      obtain ⟨vs, hvs, -⟩ := exists_rows_of_decode hc hs hout
      exact ⟨vs, hvs⟩
    · rintro ⟨vs, hvs⟩
      exact ⟨_, (decode_of_rows hc hs hvs).trans (if_pos hfits)⟩
  case rows =>
    intro out hout
    obtain ⟨vs, hvs, rfl⟩ := exists_rows_of_decode hc hs hout
    obtain ⟨hlen, hall⟩ := mapM_range_eq_ok.1 hvs
    refine ⟨hlen, rfl, fun i hi => ?_⟩
    have hrow := hall i hi
    have hfit : (Matrix.stack c.dim vs).rowAt ⟨i, hi⟩ = vs[i] :=
      (Matrix.rowAt_stack hi).trans (Matrix.fitTo_eq_self (length_of_decodeAt hc hrow))
    rw [hfit, hrow]
  case error_iff =>
    intro hfits e
    constructor
    · intro he
      cases hrows : (List.range t.vectors).mapM (c.decodeAt t) with
      | ok vs =>
        rw [decode_of_rows hc hs hrows, if_pos hfits] at he
        cases he
      | error found =>
        obtain ⟨i, hi⟩ := mapM_decodeAt_eq_error.1 hrows
        cases (decode_of_failure hc hs hi).symm.trans he
        exact ⟨i, hi⟩
    · rintro ⟨i, hi⟩
      exact decode_of_failure hc hs hi
  case error_of_failure => exact fun i e => decode_of_failure hc hs
  case too_long =>
    intro hfits _ hall
    obtain ⟨vs, hvs⟩ := exists_mapM_decodeAt.2 hall
    rw [decode_of_rows hc hs hvs, hfits]
    rfl
  case invalid_iff => exact fun i codes e hrow => decodeAt_eq_error_iff hc hs hrow
  case exists_row =>
    intro ht i hi
    obtain ⟨row, hrow, -⟩ := CodeTable.exists_row?_of_le (Nat.le_of_eq ht.symm) hi
    exact ⟨row, hrow⟩

/-! ## Three ways to decode -/

/-- **Batch decoding, single decoding and reconstruction agree.**  If there is a buffer for its rows, a
table for a well-formed codebook is decoded exactly if each of them is, to the matrix of the decoded
rows.  With or without a buffer, the error is that of the first row that is not decoded.  For
clusterings that are accepted as a codebook and as a table, with all assignments to centroids, it
is decoded to what the training of a rotation makes of them. -/
theorem batch_decoding :
    (∀ (c : Codebook) (t : CodeTable), c.WellFormed → t.subspaces = c.subspaces →
      c.BatchDecoded t) ∧
    (∀ (dim : Nat) (clusterings : List Clustering) (c : Codebook) (t : CodeTable),
      ofClusterings dim clusterings = .ok c → CodeTable.ofClusterings clusterings = .ok t →
      Assigned c.size clusterings →
        (∀ x ∈ clusterings, x.assignments.size = t.vectors) ∧
          c.decode t = RotationTraining.reconstruct clusterings t.vectors dim ∧
          (Matrix.fits (t.vectors * dim) = true → ∃ out, c.decode t = .ok out)) := by
  refine ⟨fun c t => batchDecoded, fun dim clusterings c t hc ht ha => ?_⟩
  obtain ⟨rfl, hholds⟩ := holds_ofClusterings hc
  obtain ⟨-, ht⟩ := CodeTable.holds_ofClusterings ht
  rw [decode_eq hholds ht ha, RotationTraining.reconstruct_eq (spans_of_holds hholds ht ha)]
  refine ⟨ht.size_eq, rfl, fun hfits => ⟨_, Matrix.buffered_eq_ok.2 ⟨?_, rfl⟩⟩⟩
  rwa [rows_decoded, cols_decoded]

/-- Two subspaces with the centroids 0, 1 and 1, 0, and three points. -/
def twoSubspaces : List Clustering :=
  [⟨.stack 1 [[.zero], [.one]], #[0, 1, 1], 0.0⟩, ⟨.stack 1 [[.one], [.zero]], #[1, 1, 0], 0.0⟩]

/-- Their table is decoded to what they stand for; a table with a wrong code in its second row, and
another one in its third, is not decoded because of the former. -/
theorem batch_decoding_two : ∃ c t out, ofClusterings 2 twoSubspaces = .ok c ∧
    CodeTable.ofClusterings twoSubspaces = .ok t ∧ c.decode t = .ok out ∧
    RotationTraining.reconstruct twoSubspaces 3 2 = .ok out ∧
    c.BatchDecoded ⟨3, 2, #[0, 1, 0, 3, 2, 0]⟩ ∧
    c.decode ⟨3, 2, #[0, 1, 0, 3, 2, 0]⟩ = .error (.invalidCode 1 3) := by
  have hwf : WellFormed ⟨2, 2, 2, 1, #[.zero, .one, .one, .zero]⟩ := ⟨by decide, by decide, rfl, rfl⟩
  have hassigned : Assigned 2 twoSubspaces := by simp [Assigned, twoSubspaces]
  have hc : ofClusterings 2 twoSubspaces = .ok ⟨2, 2, 2, 1, #[.zero, .one, .one, .zero]⟩ := by
    decide +kernel
  have ht : CodeTable.ofClusterings twoSubspaces = .ok ⟨3, 2, #[0, 1, 1, 1, 1, 0]⟩ := by
    decide +kernel
  have hbatch : BatchDecoded ⟨2, 2, 2, 1, #[.zero, .one, .one, .zero]⟩
      ⟨3, 2, #[0, 1, 0, 3, 2, 0]⟩ := batch_decoding.1 _ _ hwf rfl
  obtain ⟨-, hsame, hdecoded⟩ := batch_decoding.2 2 twoSubspaces _ _ hc ht hassigned
  obtain ⟨out, hout⟩ := hdecoded (by decide)
  refine ⟨_, _, out, hc, ht, hout, hsame.symm.trans hout, hbatch,
    hbatch.error_of_failure 1 _ ⟨by decide, by decide +kernel, fun j hj => ?_⟩⟩
  obtain rfl : j = 0 := Nat.lt_one_iff.1 hj
  exact ⟨[.zero, .zero], by decide +kernel⟩

/-- One subspace with a single centroid, and a table of nothing but its code: every row is decoded,
but the table is not if there is no buffer for so many rows. -/
theorem decode_of_too_long {vectors dim : Nat} (hdim : 0 < dim)
    (hfits : Matrix.fits (vectors * dim) = false) (hword : vectors * dim < wordValues 64) :
    WellFormed ⟨1, 1, dim, dim, Array.replicate dim .zero⟩ ∧
      CodeTable.WellFormed ⟨vectors, 1, Array.replicate vectors 0⟩ ∧
      (∀ i, i < vectors → ∃ v, decodeAt ⟨1, 1, dim, dim, Array.replicate dim .zero⟩
        ⟨vectors, 1, Array.replicate vectors 0⟩ i = .ok v) ∧
      decode ⟨1, 1, dim, dim, Array.replicate dim .zero⟩ ⟨vectors, 1, Array.replicate vectors 0⟩
        = .error .outOfBounds := by
  have hc : WellFormed ⟨1, 1, dim, dim, Array.replicate dim .zero⟩ :=
    ⟨hdim, Nat.one_pos, (Nat.one_mul dim).symm, by simp⟩
  have ht : CodeTable.WellFormed ⟨vectors, 1, Array.replicate vectors 0⟩ :=
    Array.size_replicate.trans (Nat.mul_one vectors).symm
  have hrows : ∀ i, i < vectors → ∃ v, decodeAt ⟨1, 1, dim, dim, Array.replicate dim .zero⟩
      ⟨vectors, 1, Array.replicate vectors 0⟩ i = .ok v := fun i hi => by
    refine exists_decodeAt hc rfl ht (fun code hcode => ?_) hi
    rw [(Array.mem_replicate.1 hcode).2]
    exact Nat.one_pos
  exact ⟨hc, ht, hrows, (batchDecoded hc rfl).too_long hfits hword hrows⟩

/-- Without the buffer it is not enough that the rows are decoded, as `2 ^ 31` vectors of dimension
`2 ^ 30` show; and where codes are missing, as for two vectors in `2 ^ 63` subspaces, no row has an
error to be returned. -/
theorem batch_decoding_limits :
    (¬ ∀ (c : Codebook) (t : CodeTable), c.WellFormed → t.WellFormed → t.subspaces = c.subspaces →
      ((∃ out, c.decode t = .ok out) ↔ ∀ i, i < t.vectors → ∃ v, c.decodeAt t i = .ok v)) ∧
    ¬ ∀ (c : Codebook) (vectors subspaces : Nat) (codes : Array UInt16) (t : CodeTable),
      c.WellFormed → CodeTable.ofCodes vectors subspaces codes = .ok t →
        t.subspaces = c.subspaces → c.decode t ≠ .error .outOfBounds := by
  constructor
  · intro h
    obtain ⟨hc, ht, hrows, herror⟩ :=
      @decode_of_too_long (2 ^ 31) (2 ^ 30) (by decide) (by decide) (by decide)
    obtain ⟨out, hout⟩ := (h _ _ hc ht rfl).2 hrows
    rw [herror] at hout
    cases hout
  · intro h
    exact h ⟨2 ^ 63, 0, 2 ^ 63, 1, #[]⟩ 2 (2 ^ 63) #[] ⟨2, 2 ^ 63, #[]⟩
      ⟨by decide, by decide, by decide, by decide⟩ (by decide +kernel) rfl (by rfl)

end Codebook
end ProductQuantization
