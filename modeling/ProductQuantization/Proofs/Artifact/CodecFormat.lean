import Mathlib.Algebra.Group.Int.Defs
import ProductQuantization.Artifact.Codec
import ProductQuantization.Proofs.Artifact.Words
import ProductQuantization.Proofs.Codebook.Layout

/-!
# The codec format

The writer checks that a header describes a codebook, and the reader checks that a header describes a
codebook that can exist.  These are two checks, written apart and on different numbers: the writer
compares signed fields with sizes as sixty-four-bit words, the reader looks at the fields alone.
`codec_roundtrip` says that they mean the same.  What is written is read back as it was, what is read
is written back as it was, and `WellFormedFile` is exactly what is read.

Both directions go through `ofBytes_eq_ok`, which says what reading finds in terms of the header and
the bytes after it.
-/

set_option autoImplicit false

namespace ProductQuantization

/-- The fields fit together, said by division. -/
theorem Codebook.wellFormed_iff {c : Codebook} :
    c.WellFormed ↔ 0 < c.dim ∧ 0 < c.subspaces ∧ c.subspaces ∣ c.dim ∧
      c.subspaceDim = c.dim / c.subspaces ∧
        c.centroids.size = c.subspaces * c.size * c.subspaceDim := by
  constructor
  · rintro ⟨hd, hs, hdim, hsize⟩
    refine ⟨hd, hs, ⟨_, hdim⟩, ?_, hsize⟩
    rw [hdim, Nat.mul_div_cancel_left _ hs]
  · rintro ⟨hd, hs, hdvd, hwidth, hsize⟩
    exact ⟨hd, hs, by rw [hwidth, Nat.mul_div_cancel' hdvd], hsize⟩

/-! ## The header -/

namespace CodecHeader

/-- A header that describes a codebook that can exist. -/
structure Loadable (h : CodecHeader) : Prop where
  maxElements_nonneg : 0 ≤ h.maxElements.toInt
  dim_pos : 0 < h.dim.toInt
  subspaces_pos : 0 < h.subspaces.toInt
  dvd : h.subspaces.toInt ∣ h.dim.toInt
  bits_pos : 0 < h.bits.toInt
  bits_le : h.bits.toInt ≤ 16

/-- The codebook described by a header. -/
def described (h : CodecHeader) : CodecShape :=
  ⟨h.dim.toInt.toNat, h.subspaces.toInt.toNat, wordValues h.bits.toInt.toNat⟩

theorem shape_eq_ok {h : CodecHeader} {s : CodecShape} :
    h.shape = .ok s ↔ h.Loadable ∧ s = h.described := by
  simp only [shape, bind_eq_ok, Result.guard_eq_ok, Bool.and_eq_true, decide_eq_true_eq, exists_const,
    Except.ok.injEq]
  constructor
  · rintro ⟨hm, ⟨⟨hd, hs⟩, hdvd⟩, ⟨hb, hb'⟩, rfl⟩
    exact ⟨⟨hm, hd, hs, Int.dvd_of_emod_eq_zero hdvd, hb, hb'⟩, rfl⟩
  · rintro ⟨⟨hm, hd, hs, hdvd, hb, hb'⟩, rfl⟩
    exact ⟨hm, ⟨⟨hd, hs⟩, Int.emod_eq_zero_of_dvd hdvd⟩, ⟨hb, hb'⟩, rfl⟩

theorem field_eq_ok {name : String} {value : Nat} {x : Int32} :
    field name value = .ok x ↔ value < 2 ^ 31 ∧ x = Int32.ofNat value := by
  rw [field, show wordValues 31 = 2 ^ 31 from rfl]
  by_cases h : value < 2 ^ 31
  · rw [if_pos h, Except.ok.injEq]
    exact ⟨fun hx => ⟨h, hx.symm⟩, fun hx => hx.2.symm⟩
  · rw [if_neg h]
    exact ⟨fun hx => (by cases hx), fun hx => absurd hx.1 h⟩

theorem field_eq_error {name : String} {value : Nat} {e : QuantError} :
    field name value = .error e ↔ 2 ^ 31 ≤ value ∧ e = .invalidParams (.tooLarge name value) := by
  rw [field, show wordValues 31 = 2 ^ 31 from rfl]
  by_cases h : value < 2 ^ 31
  · rw [if_pos h]
    exact ⟨fun he => (by cases he), fun he => absurd h (Nat.not_lt.2 he.1)⟩
  · rw [if_neg h, Except.error.injEq]
    exact ⟨fun he => ⟨Nat.le_of_not_lt h, he.symm⟩, fun he => he.2.symm⟩

/-- A header has room for numbers of less than thirty-two bits. -/
theorem ofSizes_eq_ok {maxElements dim subspaces bits : Nat} {h : CodecHeader} :
    ofSizes maxElements dim subspaces bits = .ok h ↔
      (maxElements < 2 ^ 31 ∧ dim < 2 ^ 31 ∧ subspaces < 2 ^ 31 ∧ bits < 2 ^ 31) ∧
        h = ⟨.ofNat maxElements, .ofNat dim, .ofNat subspaces, .ofNat bits⟩ := by
  simp only [ofSizes, bind_eq_ok, field_eq_ok, Except.ok.injEq]
  constructor
  · rintro ⟨a, ⟨ha, rfl⟩, b, ⟨hb, rfl⟩, c, ⟨hc, rfl⟩, d, ⟨hd, rfl⟩, rfl⟩
    exact ⟨⟨ha, hb, hc, hd⟩, rfl⟩
  · rintro ⟨⟨ha, hb, hc, hd⟩, rfl⟩
    exact ⟨_, ⟨ha, rfl⟩, _, ⟨hb, rfl⟩, _, ⟨hc, rfl⟩, _, ⟨hd, rfl⟩, rfl⟩

/-- The first of the numbers that the header has no room for is what is wrong. -/
theorem ofSizes_eq_error {maxElements dim subspaces bits : Nat} {e : QuantError}
    (hs : subspaces ≤ dim) (hb : bits < 2 ^ 31)
    (h : ofSizes maxElements dim subspaces bits = .error e) :
    (2 ^ 31 ≤ maxElements ∧ e = .invalidParams (.tooLarge "max_elements" maxElements)) ∨
      (maxElements < 2 ^ 31 ∧ 2 ^ 31 ≤ dim ∧ e = .invalidParams (.tooLarge "dim" dim)) := by
  rcases bind_eq_error.1 h with h | ⟨a, ha, h⟩
  · exact .inl (field_eq_error.1 h)
  · rcases bind_eq_error.1 h with h | ⟨b, hdim, h⟩
    · exact .inr ⟨(field_eq_ok.1 ha).1, field_eq_error.1 h⟩
    · have hdim := (field_eq_ok.1 hdim).1
      rcases bind_eq_error.1 h with h | ⟨c, hc, h⟩
      · have hbig := (field_eq_error.1 h).1
        omega
      · rcases bind_eq_error.1 h with h | ⟨d, hd, h⟩
        · have hbig := (field_eq_error.1 h).1
          omega
        · cases h

theorem shape_ne_outOfBounds (h : CodecHeader) : h.shape ≠ .error .outOfBounds := by
  intro he
  rcases bind_eq_error.1 he with he | ⟨u, -, he⟩
  · cases (Result.guard_eq_error.1 he).2
  · rcases bind_eq_error.1 he with he | ⟨v, -, he⟩
    · cases (Result.guard_eq_error.1 he).2
    · rcases bind_eq_error.1 he with he | ⟨w, -, he⟩
      · cases (Result.guard_eq_error.1 he).2
      · cases he

/-! ## The bytes of the header -/

/-- The header is read off the front of its bytes. -/
theorem take?_toBytes (h : CodecHeader) (rest : List UInt8) :
    take? (h.toBytes ++ rest) = some (h, rest) := by
  simp only [toBytes, wordBytes, take?, List.append_assoc, Word.ofBytes?_toBytes,
    Option.bind_eq_bind, Option.bind_some]
  rfl

/-- What was read off the front are the bytes of the header. -/
theorem eq_of_take? {bytes rest : List UInt8} {h : CodecHeader} (hb : take? bytes = some (h, rest)) :
    bytes = h.toBytes ++ rest := by
  obtain ⟨⟨a, rest₁⟩, ha, hb⟩ := Option.bind_eq_some_iff.1 hb
  obtain ⟨⟨b, rest₂⟩, hb', hb⟩ := Option.bind_eq_some_iff.1 hb
  obtain ⟨⟨c, rest₃⟩, hc, hb⟩ := Option.bind_eq_some_iff.1 hb
  obtain ⟨⟨d, rest₄⟩, hd, hb⟩ := Option.bind_eq_some_iff.1 hb
  cases hb
  rw [Word.eq_of_ofBytes? ha, Word.eq_of_ofBytes? hb', Word.eq_of_ofBytes? hc,
    Word.eq_of_ofBytes? hd]
  simp only [toBytes, wordBytes, List.append_assoc, UInt32.toUInt32_toInt32]

theorem exists_take? {bytes : List UInt8} (hlen : 16 ≤ bytes.length) :
    ∃ h, take? bytes = some (h, bytes.drop 16) := by
  have hleft : ∀ n ≤ 12, 4 ≤ (bytes.drop n).length := fun n hn => by
    rw [List.length_drop]
    omega
  obtain ⟨a, ha⟩ := Word.exists_ofBytes? (hleft 0 (by decide))
  obtain ⟨b, hb⟩ := Word.exists_ofBytes? (hleft 4 (by decide))
  obtain ⟨c, hc⟩ := Word.exists_ofBytes? (hleft 8 (by decide))
  obtain ⟨d, hd⟩ := Word.exists_ofBytes? (hleft 12 (by decide))
  rw [List.drop_drop] at ha hb hc hd
  exact ⟨_, Option.bind_eq_some_iff.2 ⟨_, ha, Option.bind_eq_some_iff.2 ⟨_, hb,
    Option.bind_eq_some_iff.2 ⟨_, hc, Option.bind_eq_some_iff.2 ⟨_, hd, rfl⟩⟩⟩⟩⟩

theorem ofBytes_eq_ok {bytes rest : List UInt8} {h : CodecHeader} :
    ofBytes bytes = .ok (h, rest) ↔ bytes = h.toBytes ++ rest := by
  rw [ofBytes]
  constructor
  · intro hb
    split at hb
    · rename_i found hfound
      cases hb
      exact eq_of_take? hfound
    · cases hb
  · rintro rfl
    rw [take?_toBytes]

theorem ofBytes_ne_outOfBounds (bytes : List UInt8) : ofBytes bytes ≠ .error .outOfBounds := by
  intro h
  rw [ofBytes] at h
  split at h <;> cases h

@[simp] theorem length_toBytes (h : CodecHeader) : h.toBytes.length = 16 := rfl

end CodecHeader

/-! ## The fields in the file -/

/-- The number that the byte at a place is. -/
def byteAt (bytes : List UInt8) (i : Nat) : Nat := (bytes.getD i 0).toNat

/-- The signed number that the four bytes from place `i` on make, the lowest first. -/
def fieldAt (bytes : List UInt8) (i : Nat) : Int :=
  Int.bmod (byteAt bytes i + byteAt bytes (i + 1) * 2 ^ 8 + byteAt bytes (i + 2) * 2 ^ 16
    + byteAt bytes (i + 3) * 2 ^ 24 : Nat) (2 ^ 32)

/-- The number that a word stands for when it is signed. -/
theorem toInt_ofBytes (b0 b1 b2 b3 : UInt8) : (Word.ofBytes b0 b1 b2 b3).toInt32.toInt
    = Int.bmod (b0.toNat + b1.toNat * 2 ^ 8 + b2.toNat * 2 ^ 16 + b3.toNat * 2 ^ 24 : Nat)
        (2 ^ 32) := by
  rw [← Word.toNat_ofBytes]
  exact BitVec.toInt_eq_toNat_bmod _

theorem byteAt_append (front rest : List UInt8) (i : Nat) :
    byteAt (front ++ rest) (front.length + i) = byteAt rest i := by
  rw [byteAt, List.getD_eq_getElem?_getD, List.getElem?_append_right (Nat.le_add_right _ _),
    Nat.add_sub_cancel_left, ← List.getD_eq_getElem?_getD, byteAt]

theorem fieldAt_append (front rest : List UInt8) (i : Nat) :
    fieldAt (front ++ rest) (front.length + i) = fieldAt rest i := by
  have h0 := byteAt_append front rest i
  have h1 := byteAt_append front rest (i + 1)
  have h2 := byteAt_append front rest (i + 2)
  have h3 := byteAt_append front rest (i + 3)
  rw [← Nat.add_assoc] at h1 h2 h3
  unfold fieldAt
  rw [h0, h1, h2, h3]

theorem fieldAt_wordBytes (x : Int32) (rest : List UInt8) :
    fieldAt (CodecHeader.wordBytes x ++ rest) 0 = x.toInt := by
  have hx := toInt_ofBytes x.toUInt32.toUInt8 (x.toUInt32 >>> 8).toUInt8
    (x.toUInt32 >>> 16).toUInt8 (x.toUInt32 >>> 24).toUInt8
  rw [Word.ofBytes_bytes] at hx
  exact hx.symm

/-- The fields of a header are the numbers in its bytes. -/
theorem fieldAt_toBytes (h : CodecHeader) (rest : List UInt8) :
    fieldAt (h.toBytes ++ rest) 0 = h.maxElements.toInt ∧
      fieldAt (h.toBytes ++ rest) 4 = h.dim.toInt ∧
        fieldAt (h.toBytes ++ rest) 8 = h.subspaces.toInt ∧
          fieldAt (h.toBytes ++ rest) 12 = h.bits.toInt := by
  rw [CodecHeader.toBytes, List.append_assoc, List.append_assoc, List.append_assoc]
  have hskip : ∀ (x : Int32) (rest : List UInt8) (i : Nat),
      fieldAt (CodecHeader.wordBytes x ++ rest) (4 + i) = fieldAt rest i := fun x rest i =>
    fieldAt_append (CodecHeader.wordBytes x) rest i
  refine ⟨fieldAt_wordBytes _ _, ?_, ?_, ?_⟩
  · exact (hskip _ _ 0).trans (fieldAt_wordBytes _ _)
  · exact (hskip _ _ 4).trans ((hskip _ _ 0).trans (fieldAt_wordBytes _ _))
  · exact (hskip _ _ 8).trans ((hskip _ _ 4).trans ((hskip _ _ 0).trans (fieldAt_wordBytes _ _)))

/-! ## The file -/

namespace CodecHeader

variable {h : CodecHeader}

/-- The codebook that a header and the bytes after it make. -/
def codebook (h : CodecHeader) (rest : List UInt8) : Codebook where
  subspaces := h.described.subspaces
  size := h.described.size
  dim := h.described.dim
  subspaceDim := h.described.dim / h.described.subspaces
  centroids := (Word.takeSingles rest).toArray

namespace Loadable

theorem dim_eq (hl : h.Loadable) : (h.described.dim : Int) = h.dim.toInt :=
  Int.toNat_of_nonneg (Int.le_of_lt hl.dim_pos)

theorem subspaces_eq (hl : h.Loadable) : (h.described.subspaces : Int) = h.subspaces.toInt :=
  Int.toNat_of_nonneg (Int.le_of_lt hl.subspaces_pos)

theorem dim_lt (hl : h.Loadable) : h.described.dim < 2 ^ 31 := by
  have hlt := h.dim.toInt_lt
  have hd := hl.dim_eq
  omega

theorem size_le (hl : h.Loadable) : h.described.size ≤ 2 ^ 16 := by
  have hb := hl.bits_le
  exact Nat.pow_le_pow_right (by decide) (by omega)

theorem described_pos (hl : h.Loadable) : 0 < h.described.dim ∧ 0 < h.described.subspaces := by
  have hd := hl.dim_eq
  have hs := hl.subspaces_eq
  have hd' := hl.dim_pos
  have hs' := hl.subspaces_pos
  exact ⟨by omega, by omega⟩

theorem subspaces_dvd (hl : h.Loadable) : h.described.subspaces ∣ h.described.dim := by
  rw [← Int.natCast_dvd_natCast, hl.dim_eq, hl.subspaces_eq]
  exact hl.dvd

/-- The subspaces side by side are the whole space. -/
theorem mul_div (hl : h.Loadable) :
    h.described.subspaces * (h.described.dim / h.described.subspaces) = h.described.dim :=
  Nat.mul_div_cancel' hl.subspaces_dvd

theorem count_eq (hl : h.Loadable) :
    h.described.subspaces * h.described.size * (h.described.dim / h.described.subspaces)
      = h.described.size * h.described.dim := by
  rw [Nat.mul_comm h.described.subspaces, Nat.mul_assoc, hl.mul_div]

/-- A codebook that a header describes never is too large for a buffer. -/
theorem exists_zeros (hl : h.Loadable) :
    Codebook.zeros h.described.dim h.described.subspaces h.described.size = .ok
      ⟨h.described.subspaces, h.described.size, h.described.dim,
        h.described.dim / h.described.subspaces,
        Array.replicate (h.described.size * h.described.dim) .zero⟩ := by
  obtain ⟨hd, hs⟩ := hl.described_pos
  have hfits : Matrix.fits (h.described.size * h.described.dim) = true := by
    have hcount : h.described.size * h.described.dim ≤ 2 ^ 16 * 2 ^ 31 :=
      Nat.mul_le_mul hl.size_le (Nat.le_of_lt hl.dim_lt)
    have hword : wordValues 63 = 2 ^ 63 := rfl
    rw [Matrix.fits, decide_eq_true_eq, hword]
    omega
  rw [Codebook.zeros, Codebook.ofShape_eq_ok.2
    ⟨⟨Nat.pos_iff_ne_zero.1 hs, Nat.pos_iff_ne_zero.1 hd,
      Nat.mod_eq_zero_of_dvd hl.subspaces_dvd⟩, rfl⟩]
  simp only [ok_bind, Codebook.centroidCount, hl.count_eq, hfits, Result.guard_true]

end Loadable
end CodecHeader

namespace Codec

/-- **What reading finds**: a header that describes a codebook that can exist, and exactly its
centroids. -/
theorem ofBytes_eq_ok {bytes : List UInt8} {h : CodecHeader} {c : Codebook} :
    ofBytes bytes = .ok (h, c) ↔ ∃ rest, bytes = h.toBytes ++ rest ∧ h.Loadable ∧
      rest.length = h.described.size * h.described.dim * 4 ∧ c = h.codebook rest := by
  rw [ofBytes, bind_eq_ok]
  constructor
  · rintro ⟨⟨h', rest⟩, hb, hok⟩
    obtain ⟨s, hs, hok⟩ := bind_eq_ok.1 hok
    obtain ⟨hl, rfl⟩ := CodecHeader.shape_eq_ok.1 hs
    obtain ⟨u, hlen, hok⟩ := bind_eq_ok.1 hok
    rw [hl.exists_zeros] at hok
    cases hok
    have hbytes := CodecHeader.ofBytes_eq_ok.1 hb
    rw [Result.guard_eq_ok, decide_eq_true_eq, hbytes, List.length_append,
      CodecHeader.length_toBytes, CodecHeader.byteSize, CodecShape.tableByteSize] at hlen
    exact ⟨rest, hbytes, hl, Nat.add_left_cancel hlen, rfl⟩
  · rintro ⟨rest, rfl, hl, hlen, rfl⟩
    refine ⟨(h, rest), CodecHeader.ofBytes_eq_ok.2 rfl, ?_⟩
    have hlen' : (h.toBytes ++ rest).length
        = CodecHeader.byteSize + h.described.tableByteSize := by
      rw [List.length_append, CodecHeader.length_toBytes, hlen, CodecHeader.byteSize,
        CodecShape.tableByteSize]
    simp only [CodecHeader.shape_eq_ok.2 ⟨hl, rfl⟩, ok_bind, hlen', decide_true, Result.guard_true,
      hl.exists_zeros]
    rfl

/-- Reading a file never leaves a buffer, and never asks for one that is too large. -/
theorem ofBytes_ne_outOfBounds (bytes : List UInt8) : ofBytes bytes ≠ .error .outOfBounds := by
  intro he
  rcases bind_eq_error.1 he with he | ⟨⟨h, rest⟩, -, he⟩
  · exact CodecHeader.ofBytes_ne_outOfBounds bytes he
  · rcases bind_eq_error.1 he with he | ⟨s, hs, he⟩
    · exact CodecHeader.shape_ne_outOfBounds h he
    · obtain ⟨hl, rfl⟩ := CodecHeader.shape_eq_ok.1 hs
      rcases bind_eq_error.1 he with he | ⟨u, -, he⟩
      · cases (Result.guard_eq_error.1 he).2
      · rw [hl.exists_zeros] at he
        cases he

/-- What is read fits together. -/
theorem wellFormed_codebook {h : CodecHeader} (hl : h.Loadable) {rest : List UInt8}
    (hlen : rest.length = h.described.size * h.described.dim * 4) :
    (h.codebook rest).WellFormed := by
  refine ⟨hl.described_pos.1, hl.described_pos.2, hl.mul_div.symm, ?_⟩
  show (Word.takeSingles rest).toArray.size
    = h.described.subspaces * h.described.size * (h.described.dim / h.described.subspaces)
  rw [List.size_toArray, Word.length_takeSingles hlen, hl.count_eq]

/-! ## The two checks -/

/-- What a file must be to be read, in terms of its bytes. -/
structure WellFormedFile (bytes : List UInt8) : Prop where
  header : 16 ≤ bytes.length
  maxElements_nonneg : 0 ≤ fieldAt bytes 0
  dim_pos : 0 < fieldAt bytes 4
  subspaces_pos : 0 < fieldAt bytes 8
  dvd : fieldAt bytes 8 ∣ fieldAt bytes 4
  bits_pos : 1 ≤ fieldAt bytes 12
  bits_le : fieldAt bytes 12 ≤ 16
  length_eq : (bytes.length : Int) = 16 + 4 * 2 ^ (fieldAt bytes 12).toNat * fieldAt bytes 4

/-- The bytes of a file say what its header says. -/
theorem wellFormedFile_append {h : CodecHeader} {rest : List UInt8} :
    WellFormedFile (h.toBytes ++ rest) ↔
      h.Loadable ∧ rest.length = h.described.size * h.described.dim * 4 := by
  obtain ⟨hm, hd, hs, hb⟩ := fieldAt_toBytes h rest
  have hsize : (h.described.size : Int) = 2 ^ h.bits.toInt.toNat := by
    show ((2 ^ h.bits.toInt.toNat : Nat) : Int) = _
    rw [Int.natCast_pow]
    rfl
  have hlen : ((h.toBytes ++ rest).length : Int) = 16 + rest.length := by
    rw [List.length_append, CodecHeader.length_toBytes, Int.natCast_add]
    rfl
  constructor
  · rintro ⟨-, h1, h2, h3, h4, h5, h6, h7⟩
    rw [hm] at h1
    rw [hd] at h2 h4 h7
    rw [hs] at h3 h4
    rw [hb] at h5 h6 h7
    have hl : h.Loadable := ⟨h1, h2, h3, h4, h5, h6⟩
    refine ⟨hl, Int.ofNat_inj.1 ?_⟩
    rw [hlen, ← hl.dim_eq, ← hsize, Int.mul_assoc] at h7
    rw [Int.natCast_mul, Int.natCast_mul, Int.mul_comm _ ((4 : Nat) : Int)]
    exact Int.add_left_cancel h7
  · rintro ⟨hl, hrest⟩
    refine ⟨by rw [List.length_append, CodecHeader.length_toBytes]; exact Nat.le_add_right _ _,
      hm ▸ hl.maxElements_nonneg, hd ▸ hl.dim_pos, hs ▸ hl.subspaces_pos, ?_, hb ▸ hl.bits_pos,
      hb ▸ hl.bits_le, ?_⟩
    · rw [hd, hs]
      exact hl.dvd
    · rw [hlen, hd, hb, ← hl.dim_eq, ← hsize, hrest, Int.natCast_mul, Int.natCast_mul,
        Int.mul_comm _ ((4 : Nat) : Int), Int.mul_assoc]
      rfl

/-- Signed fields and sizes that are not too large are the same words only if they are equal. -/
theorem sameWord_iff (x : Int32) {n : Nat} (hn : n < 2 ^ 63) :
    sameWord x.toInt n = true ↔ (n : Int) = x.toInt := by
  have hlt := x.toInt_lt
  have hle := x.le_toInt
  have hword : ((wordValues 64 : Nat) : Int) = 2 ^ 64 := rfl
  rw [sameWord, decide_eq_true_eq, hword]
  omega

/-- What the writer checks, for a codebook whose fields fit together. -/
theorem checkDescribes_eq_ok {h : CodecHeader} {c : Codebook} (hc : c.WellFormed)
    (hd : c.dim < 2 ^ 63) :
    h.checkDescribes c = .ok () ↔ (c.dim : Int) = h.dim.toInt ∧
      (c.subspaces : Int) = h.subspaces.toInt ∧ (0 < h.bits.toInt ∧ h.bits.toInt ≤ 16) ∧
        c.size = h.described.size := by
  have hs : c.subspaces < 2 ^ 63 := Nat.lt_of_le_of_lt
    (Nat.le_of_dvd hc.dim_pos ⟨_, hc.dim_eq⟩) hd
  have hbits : ((maxBits : Nat) : Int) = 16 := rfl
  simp only [CodecHeader.checkDescribes, Result.guard_eq_ok, Bool.and_eq_true, sameWord_iff _ hd,
    sameWord_iff _ hs, decide_eq_true_eq, hbits, CodecHeader.described, eq_comm (a := c.size)]
  constructor
  · rintro ⟨⟨⟨⟨h1, h2⟩, h3⟩, h4⟩, h5⟩
    exact ⟨h1, h2, ⟨h3, h4⟩, h5⟩
  · rintro ⟨h1, h2, ⟨h3, h4⟩, h5⟩
    exact ⟨⟨⟨⟨h1, h2⟩, h3⟩, h4⟩, h5⟩

/-- A header with the numbers of a codebook describes it. -/
theorem checkDescribes_ofSizes {maxElements bits : Nat} {c : Codebook} {h : CodecHeader}
    (hc : c.WellFormed) (hsize : c.size = wordValues bits) (hpos : bits ≠ 0) (hle : bits ≤ maxBits)
    (hh : CodecHeader.ofSizes maxElements c.dim c.subspaces bits = .ok h) :
    h.checkDescribes c = .ok () := by
  obtain ⟨⟨-, hd, hs, hb⟩, rfl⟩ := CodecHeader.ofSizes_eq_ok.1 hh
  have hbits : (Int32.ofNat bits).toInt = bits := Int32.toInt_ofNat_of_lt hb
  have hle' : bits ≤ 16 := hle
  refine (checkDescribes_eq_ok hc (Nat.lt_trans hd (by decide))).2
    ⟨(Int32.toInt_ofNat_of_lt hd).symm, (Int32.toInt_ofNat_of_lt hs).symm, ?_, ?_⟩
  · rw [hbits]
    omega
  · rw [CodecHeader.described, hbits, hsize]
    rfl

theorem toBytes_eq_ok {h : CodecHeader} {c : Codebook} {bytes : List UInt8} :
    toBytes h c = .ok bytes ↔ h.checkDescribes c = .ok () ∧
      bytes = h.toBytes ++ Word.bytesOfSingles c.centroids.toList := by
  rw [toBytes, bind_eq_ok]
  constructor
  · rintro ⟨u, hu, h⟩
    cases h
    exact ⟨hu, rfl⟩
  · rintro ⟨hu, rfl⟩
    exact ⟨(), hu, rfl⟩

/-! ## Round trips -/

/-- What was written is read back. -/
theorem ofBytes_of_toBytes {h : CodecHeader} {c : Codebook} {bytes : List UInt8}
    (hc : c.WellFormed) (hd : c.dim < 2 ^ 63) (hm : 0 ≤ h.maxElements.toInt)
    (hb : toBytes h c = .ok bytes) : ofBytes bytes = .ok (h, c) := by
  obtain ⟨hcheck, rfl⟩ := toBytes_eq_ok.1 hb
  obtain ⟨hdim, hsub, ⟨hpos, hle⟩, hsize⟩ := (checkDescribes_eq_ok hc hd).1 hcheck
  have hdpos := hc.dim_pos
  have hspos := hc.subspaces_pos
  have hdvd : h.subspaces.toInt ∣ h.dim.toInt := by
    rw [← hdim, ← hsub, Int.natCast_dvd_natCast]
    exact ⟨_, hc.dim_eq⟩
  have hl : h.Loadable := ⟨hm, by omega, by omega, hdvd, hpos, hle⟩
  have hdim' : c.dim = h.described.dim := Int.ofNat_inj.1 (hdim.trans hl.dim_eq.symm)
  have hsub' : c.subspaces = h.described.subspaces :=
    Int.ofNat_inj.1 (hsub.trans hl.subspaces_eq.symm)
  have hwidth : c.subspaceDim = h.described.dim / h.described.subspaces := by
    rw [← hdim', ← hsub', hc.dim_eq, Nat.mul_div_cancel_left _ hspos]
  have hcount : c.centroids.size = c.size * c.dim := by
    rw [hc.centroids_size, Nat.mul_comm c.subspaces, Nat.mul_assoc, ← hc.dim_eq]
  refine ofBytes_eq_ok.2 ⟨_, rfl, hl, ?_, ?_⟩
  · rw [Word.length_bytesOfSingles, Array.length_toList, hcount, hsize, hdim']
  · rw [CodecHeader.codebook, Word.takeSingles_bytesOfSingles, ← hwidth, ← hsub', ← hsize, ← hdim',
      Array.toArray_toList]

/-- What was read is written back. -/
theorem toBytes_of_ofBytes {h : CodecHeader} {c : Codebook} {bytes : List UInt8}
    (hb : ofBytes bytes = .ok (h, c)) :
    c.WellFormed ∧ c.dim < 2 ^ 63 ∧ toBytes h c = .ok bytes := by
  obtain ⟨rest, rfl, hl, hlen, rfl⟩ := ofBytes_eq_ok.1 hb
  have hc := wellFormed_codebook hl hlen
  have hd : (h.codebook rest).dim < 2 ^ 63 := Nat.lt_trans hl.dim_lt (by decide)
  refine ⟨hc, hd, toBytes_eq_ok.2 ⟨?_, ?_⟩⟩
  · exact (checkDescribes_eq_ok hc hd).2
      ⟨hl.dim_eq, hl.subspaces_eq, ⟨hl.bits_pos, hl.bits_le⟩, rfl⟩
  · rw [CodecHeader.codebook, List.toList_toArray, Word.bytesOfSingles_takeSingles hlen]

/-- What is read. -/
theorem exists_ofBytes_iff {bytes : List UInt8} :
    (∃ h c, ofBytes bytes = .ok (h, c)) ↔ WellFormedFile bytes := by
  constructor
  · rintro ⟨h, c, hb⟩
    obtain ⟨rest, rfl, hl, hlen, -⟩ := ofBytes_eq_ok.1 hb
    exact wellFormedFile_append.2 ⟨hl, hlen⟩
  · intro hw
    obtain ⟨h, hh⟩ := CodecHeader.exists_take? hw.header
    have hbytes := CodecHeader.eq_of_take? hh
    rw [hbytes] at hw ⊢
    obtain ⟨hl, hlen⟩ := wellFormedFile_append.1 hw
    exact ⟨h, _, ofBytes_eq_ok.2 ⟨_, rfl, hl, hlen, rfl⟩⟩

/-- **The writer and the reader are inverse to each other, on the whole format.**  What is written
for a codebook whose fields fit together is read back as it was.  Reading any bytes at all either
reports an error or succeeds, and succeeds exactly on a `WellFormedFile`; what it finds fits together
and is written back as those bytes. -/
theorem codec_roundtrip :
    (∀ (h : CodecHeader) (c : Codebook) (bytes : List UInt8), c.WellFormed → c.dim < 2 ^ 63 →
      0 ≤ h.maxElements.toInt → toBytes h c = .ok bytes → ofBytes bytes = .ok (h, c)) ∧
    (∀ bytes : List UInt8, ofBytes bytes ≠ .error .outOfBounds ∧
      ((∃ h c, ofBytes bytes = .ok (h, c)) ↔ WellFormedFile bytes) ∧
      ∀ h c, ofBytes bytes = .ok (h, c) →
        c.WellFormed ∧ c.dim < 2 ^ 63 ∧ toBytes h c = .ok bytes) :=
  ⟨fun _ _ _ hc hd hm hb => ofBytes_of_toBytes hc hd hm hb,
    fun bytes => ⟨ofBytes_ne_outOfBounds bytes, exists_ofBytes_iff, fun _ _ => toBytes_of_ofBytes⟩⟩

/-- One subspace of dimension one with two centroids, one of them not a number. -/
theorem codec_roundtrip_two :
    ofBytes [7, 0, 0, 0, 1, 0, 0, 0, 1, 0, 0, 0, 1, 0, 0, 0, 0, 0, 0xc0, 0x7f, 0, 0, 0x80, 0x3f]
        = .ok (⟨7, 1, 1, 1⟩, ⟨1, 2, 1, 1, #[.nan, .one]⟩) ∧
      toBytes ⟨7, 1, 1, 1⟩ ⟨1, 2, 1, 1, #[.nan, .one]⟩
        = .ok [7, 0, 0, 0, 1, 0, 0, 0, 1, 0, 0, 0, 1, 0, 0, 0,
            0, 0, 0xc0, 0x7f, 0, 0, 0x80, 0x3f] := by
  have hb : toBytes ⟨7, 1, 1, 1⟩ ⟨1, 2, 1, 1, #[.nan, .one]⟩
      = .ok [7, 0, 0, 0, 1, 0, 0, 0, 1, 0, 0, 0, 1, 0, 0, 0,
          0, 0, 0xc0, 0x7f, 0, 0, 0x80, 0x3f] := by
    decide +kernel
  exact ⟨codec_roundtrip.1 _ _ _ ⟨by decide, by decide, rfl, rfl⟩ (by decide) (by decide) hb, hb⟩

end Codec

end ProductQuantization
