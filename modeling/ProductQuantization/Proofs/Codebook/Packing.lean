import ProductQuantization.Codebook.Packing
import ProductQuantization.Proofs.Codebook.Layout

/-!
# Packing loses nothing

A table whose codes fit into four or eight bits is packed, and unpacking the bytes gives the table
back; of any other table packing names the first code that does not fit (`pack_lossless`).  The other
way round, bytes that can be unpacked are what packing their table gives, except that the unused half
bytes at the ends of the vectors are cleared.

Two codes in a byte are the case with something to prove.  It is done in three steps: for one byte by
looking at all of them, for the bytes of one vector along the recursion of `packPairs` and
`unpackPairs`, and for all vectors along that of `unpackRows`.
-/

set_option autoImplicit false

namespace ProductQuantization
namespace CodeTable

/-! ## One byte -/

section Byte

variable {low high : UInt16}

theorem forall_narrow {P : UInt16 → Prop} (h : ∀ n < 16, P (UInt16.ofNat n)) {code : UInt16}
    (hcode : code.toNat < 16) : P code := by
  have hp := h _ hcode
  rwa [UInt16.ofNat_toNat] at hp

theorem forall_byte {P : UInt8 → Prop} (h : ∀ n < 256, P (UInt8.ofNat n)) (b : UInt8) : P b := by
  have hp := h _ b.toNat_lt
  rwa [UInt8.ofNat_toNat] at hp

theorem low_single (hlow : low.toNat < 16) : (low.toUInt8 &&& 0x0f).toUInt16 = low :=
  forall_narrow (P := fun low => (low.toUInt8 &&& 0x0f).toUInt16 = low) (by decide) hlow

theorem halves_joined (hlow : low.toNat < 16) (hhigh : high.toNat < 16) :
    ((low.toUInt8 ||| high.toUInt8 <<< 4) &&& 0x0f).toUInt16 = low ∧
      ((low.toUInt8 ||| high.toUInt8 <<< 4) >>> 4).toUInt16 = high := by
  refine forall_narrow (P := fun low => ((low.toUInt8 ||| high.toUInt8 <<< 4) &&& 0x0f).toUInt16
    = low ∧ ((low.toUInt8 ||| high.toUInt8 <<< 4) >>> 4).toUInt16 = high) (fun n hn => ?_) hlow
  refine forall_narrow (P := fun high =>
    (((UInt16.ofNat n).toUInt8 ||| high.toUInt8 <<< 4) &&& 0x0f).toUInt16 = UInt16.ofNat n ∧
      (((UInt16.ofNat n).toUInt8 ||| high.toUInt8 <<< 4) >>> 4).toUInt16 = high) ?_ hhigh
  revert n
  decide +kernel

theorem joined_halves (b : UInt8) :
    (b &&& 0x0f).toUInt16.toUInt8 ||| (b >>> 4).toUInt16.toUInt8 <<< 4 = b :=
  forall_byte (P := fun b =>
    (b &&& 0x0f).toUInt16.toUInt8 ||| (b >>> 4).toUInt16.toUInt8 <<< 4 = b) (by decide +kernel) b

theorem low_toUInt8 (b : UInt8) : (b &&& 0x0f).toUInt16.toUInt8 = b &&& 0x0f :=
  forall_byte (P := fun b => (b &&& 0x0f).toUInt16.toUInt8 = b &&& 0x0f) (by decide +kernel) b

theorem low_lt (b : UInt8) : (b &&& 0x0f).toUInt16.toNat < 16 :=
  forall_byte (P := fun b => (b &&& 0x0f).toUInt16.toNat < 16) (by decide +kernel) b

theorem high_lt (b : UInt8) : (b >>> 4).toUInt16.toNat < 16 :=
  forall_byte (P := fun b => (b >>> 4).toUInt16.toNat < 16) (by decide +kernel) b

end Byte

/-! ## The bytes of one vector -/

theorem length_packPairs (codes : List UInt16) : (packPairs codes).length = (codes.length + 1) / 2 := by
  induction codes using packPairs.induct with
  | case1 => simp [packPairs]
  | case2 low => simp [packPairs]
  | case3 low high rest ih =>
    rw [packPairs, List.length_cons, ih, List.length_cons, List.length_cons]
    omega

/-- Code `m` stands in byte `m / 2`, in the low half if `m` is even and in the high half if it is
odd. -/
theorem getElem?_packPairs {codes : List UInt16} (h : ∀ code ∈ codes, code.toNat < 16) {m : Nat}
    {code : UInt16} (hm : codes[m]? = some code) : ∃ b, (packPairs codes)[m / 2]? = some b ∧
      (if m % 2 = 0 then b &&& 0x0f else b >>> 4).toUInt16 = code := by
  induction codes using packPairs.induct generalizing m with
  | case1 => cases hm
  | case2 low =>
    obtain rfl : m = 0 := by simpa using (List.getElem?_eq_some_iff.1 hm).1
    obtain rfl : low = code := by simpa using hm
    rw [packPairs]
    exact ⟨low.toUInt8, rfl, low_single (h _ List.mem_cons_self)⟩
  | case3 low high rest ih =>
    simp only [List.forall_mem_cons] at h
    obtain ⟨hlow, hhigh, hrest⟩ := h
    obtain ⟨hl, hh⟩ := halves_joined hlow hhigh
    rw [packPairs]
    match m with
    | 0 =>
      obtain rfl : low = code := by simpa using hm
      exact ⟨_, rfl, hl⟩
    | 1 =>
      obtain rfl : high = code := by simpa using hm
      exact ⟨_, rfl, hh⟩
    | m + 2 =>
      obtain ⟨b, hb, hcode⟩ := ih hrest hm
      have hhalf : (m + 2) / 2 = m / 2 + 1 := by omega
      have hparity : (m + 2) % 2 = m % 2 := by omega
      rw [hhalf, hparity]
      exact ⟨b, hb, hcode⟩

theorem unpackPairs_packPairs {codes : List UInt16} (h : ∀ code ∈ codes, code.toNat < 16) :
    unpackPairs codes.length (packPairs codes) = some codes := by
  induction codes using packPairs.induct with
  | case1 => rfl
  | case2 low => rw [packPairs, List.length_singleton, unpackPairs, low_single (h _ List.mem_cons_self)]
  | case3 low high rest ih =>
    simp only [List.forall_mem_cons] at h
    obtain ⟨hlow, hhigh, hrest⟩ := h
    obtain ⟨hl, hh⟩ := halves_joined hlow hhigh
    rw [packPairs, List.length_cons, List.length_cons, unpackPairs, ih hrest, hl, hh]
    rfl

/-- Clear the high half of the last byte. -/
def clearLast : List UInt8 → List UInt8
  | [] => []
  | [b] => [b &&& 0x0f]
  | b :: c :: rest => b :: clearLast (c :: rest)

theorem clearLast_cons {b : UInt8} {rest : List UInt8} (h : rest ≠ []) :
    clearLast (b :: rest) = b :: clearLast rest := by
  cases rest with
  | nil => exact absurd rfl h
  | cons c rest => rw [clearLast]

/-- Codes that have been unpacked fit into half a byte, and packing them gives the bytes again, except
for the unused half byte after an odd number of them. -/
theorem packPairs_of_unpackPairs {count : Nat} {bytes : List UInt8} {codes : List UInt16}
    (h : unpackPairs count bytes = some codes) (hlen : bytes.length = (count + 1) / 2) :
    codes.length = count ∧ (∀ code ∈ codes, code.toNat < 16) ∧
      packPairs codes = if count % 2 = 1 then clearLast bytes else bytes := by
  induction count, bytes using unpackPairs.induct generalizing codes with
  | case1 bytes =>
    obtain rfl : bytes = [] := List.eq_nil_of_length_eq_zero hlen
    rw [unpackPairs, Option.some_inj] at h
    subst h
    simp [packPairs]
  | case2 count hcount =>
    rw [List.length_nil] at hlen
    exact absurd (show count = 0 by omega) hcount
  | case3 b rest =>
    obtain rfl : rest = [] := List.eq_nil_of_length_eq_zero (by simpa using hlen)
    rw [unpackPairs, Option.some_inj] at h
    subst h
    simp only [List.length_singleton, List.mem_singleton, forall_eq, true_and, packPairs,
      low_toUInt8]
    exact ⟨low_lt b, rfl⟩
  | case4 count b rest ih =>
    rw [unpackPairs, Option.bind_eq_bind, Option.bind_eq_some_iff] at h
    obtain ⟨codes, hcodes, h⟩ := h
    cases h
    have hrest : rest.length = (count + 1) / 2 := by
      rw [List.length_cons] at hlen
      omega
    obtain ⟨hcount, hnarrow, hpack⟩ := ih hcodes hrest
    refine ⟨by rw [List.length_cons, List.length_cons, hcount], ?_, ?_⟩
    · simp only [List.forall_mem_cons]
      exact ⟨low_lt b, high_lt b, hnarrow⟩
    · have hparity : (count + 2) % 2 = count % 2 := by omega
      rw [packPairs, joined_halves, hpack, hparity]
      by_cases hodd : count % 2 = 1
      · have hsome : rest ≠ [] := fun h0 => by
          rw [h0, List.length_nil] at hrest
          omega
        rw [if_pos hodd, if_pos hodd, clearLast_cons hsome]
      · rw [if_neg hodd, if_neg hodd]

theorem length_clearLast (bytes : List UInt8) : (clearLast bytes).length = bytes.length := by
  induction bytes using clearLast.induct with
  | case1 => rfl
  | case2 b => rfl
  | case3 b c rest ih => rw [clearLast, List.length_cons, ih, ← List.length_cons]

theorem getElem_clearLast {bytes : List UInt8} {j : Nat} (hj : j < bytes.length)
    (hj' : j < (clearLast bytes).length) :
    (clearLast bytes)[j] = if j + 1 = bytes.length then bytes[j] &&& 0x0f else bytes[j] := by
  induction bytes using clearLast.induct generalizing j with
  | case1 => cases hj
  | case2 b =>
    obtain rfl : j = 0 := by simpa using hj
    rfl
  | case3 b c rest ih =>
    cases j with
    | zero => simp [clearLast]
    | succ j =>
      have hstep := ih (Nat.lt_of_succ_lt_succ hj)
        (by rw [length_clearLast]; exact Nat.lt_of_succ_lt_succ hj)
      simpa [clearLast] using hstep

/-- Unpacking needs bytes enough. -/
theorem le_length_of_unpackPairs {count : Nat} {bytes : List UInt8} {codes : List UInt16}
    (h : unpackPairs count bytes = some codes) : (count + 1) / 2 ≤ bytes.length := by
  induction count, bytes using unpackPairs.induct generalizing codes with
  | case1 => exact Nat.zero_le _
  | case2 count hcount =>
    rw [unpackPairs] at h
    · cases h
    · exact hcount
  | case3 b rest =>
    rw [List.length_cons]
    omega
  | case4 count b rest ih =>
    rw [unpackPairs, Option.bind_eq_bind, Option.bind_eq_some_iff] at h
    obtain ⟨codes, hcodes, -⟩ := h
    have hle := ih hcodes
    rw [List.length_cons]
    omega

/-! ## The bytes of all vectors -/

/-- Rows of so many codes, each of which fits into half a byte. -/
def NarrowRows (subspaces : Nat) (rows : List (List UInt16)) : Prop :=
  ∀ row ∈ rows, row.length = subspaces ∧ ∀ code ∈ row, code.toNat < 16

section Rows

variable {subspaces : Nat}

theorem unpackRows_nil (subspaces width vectors : Nat) :
    unpackRows subspaces width vectors [] = some [] := by
  cases vectors <;> simp [unpackRows]

/-- Unpacking rows that have been packed. -/
theorem unpackRows_packPairs (hpos : 0 < subspaces) {rows : List (List UInt16)}
    (h : NarrowRows subspaces rows) :
    unpackRows subspaces ((subspaces + 1) / 2) rows.length (rows.flatMap packPairs)
      = some rows.flatten := by
  induction rows with
  | nil => rw [List.length_nil, unpackRows, List.flatten_nil]
  | cons row rows ih =>
    obtain ⟨⟨hlen, hnarrow⟩, hrows⟩ := List.forall_mem_cons.1 h
    have hwidth : (packPairs row).length = (subspaces + 1) / 2 := by rw [length_packPairs, hlen]
    have hrow := unpackPairs_packPairs hnarrow
    rw [hlen] at hrow
    rw [List.flatMap_cons, List.length_cons, List.flatten_cons]
    obtain ⟨b, bytes, hcons⟩ : ∃ b bytes, packPairs row ++ rows.flatMap packPairs = b :: bytes := by
      cases hpack : packPairs row with
      | nil =>
        rw [hpack, List.length_nil] at hwidth
        omega
      | cons b bytes => exact ⟨b, _, rfl⟩
    rw [hcons, unpackRows, ← hcons, ← hwidth, List.take_left, List.drop_left, hwidth, hrow, ih hrows]
    rfl

/-- The bytes with the unused half bytes at the ends of the vectors cleared.  There are such where an
odd number of codes goes two to a byte. -/
def clearPadding (subspaces bits : Nat) (bytes : List UInt8) : List UInt8 :=
  if bits = 4 ∧ subspaces % 2 = 1 then
    bytes.mapIdx fun j b => if (j + 1) % ((subspaces + 1) / 2) = 0 then b &&& 0x0f else b
  else bytes

theorem clearPadding_row {bytes : List UInt8} (h : bytes.length = (subspaces + 1) / 2) :
    clearPadding subspaces 4 bytes = if subspaces % 2 = 1 then clearLast bytes else bytes := by
  simp only [clearPadding, true_and, ← h]
  split
  · refine List.ext_getElem (by rw [List.length_mapIdx, length_clearLast]) fun j h1 h2 => ?_
    have hj : j < bytes.length := by rwa [length_clearLast] at h2
    have hlast : (j + 1) % bytes.length = 0 ↔ j + 1 = bytes.length := by
      constructor
      · intro hmod
        by_contra hne
        rw [Nat.mod_eq_of_lt (by omega)] at hmod
        omega
      · intro heq
        rw [heq, Nat.mod_self]
    rw [List.getElem_mapIdx, getElem_clearLast hj h2]
    simp only [hlast]
  · rfl

theorem clearPadding_append {row bytes : List UInt8} (h : row.length = (subspaces + 1) / 2) :
    clearPadding subspaces 4 (row ++ bytes)
      = clearPadding subspaces 4 row ++ clearPadding subspaces 4 bytes := by
  have hplace : ∀ j, (j + row.length + 1) % ((subspaces + 1) / 2)
      = (j + 1) % ((subspaces + 1) / 2) := fun j => by
    rw [h, Nat.add_right_comm, Nat.add_mod_right]
  simp only [clearPadding, true_and, List.mapIdx_append, hplace]
  split <;> rfl

/-- Packing rows that have been unpacked. -/
theorem packPairs_of_unpackRows (hpos : 0 < subspaces) {vectors : Nat} {bytes : List UInt8}
    {codes : List UInt16}
    (h : unpackRows subspaces ((subspaces + 1) / 2) vectors bytes = some codes)
    (hlen : bytes.length = vectors * ((subspaces + 1) / 2)) :
    ∃ rows : List (List UInt16), rows.length = vectors ∧ rows.flatten = codes ∧
      NarrowRows subspaces rows ∧ rows.flatMap packPairs = clearPadding subspaces 4 bytes := by
  induction vectors generalizing bytes codes with
  | zero =>
    obtain rfl : bytes = [] := List.eq_nil_of_length_eq_zero (by simpa using hlen)
    rw [unpackRows, Option.some_inj] at h
    refine ⟨[], rfl, h, fun _ hrow => absurd hrow List.not_mem_nil, ?_⟩
    simp [clearPadding]
  | succ vectors ih =>
    rw [Nat.succ_mul] at hlen
    cases bytes with
    | nil =>
      rw [List.length_nil] at hlen
      omega
    | cons b bytes =>
      rw [unpackRows, Option.bind_eq_bind, Option.bind_eq_some_iff] at h
      obtain ⟨row, hrow, h⟩ := h
      obtain ⟨rest, hrest, h⟩ := Option.bind_eq_some_iff.1 h
      cases h
      have htake : ((b :: bytes).take ((subspaces + 1) / 2)).length = (subspaces + 1) / 2 := by
        rw [List.length_take, hlen]
        omega
      obtain ⟨hrowlen, hnarrow, hpack⟩ := packPairs_of_unpackPairs hrow htake
      obtain ⟨rows, hrowslen, hflatten, hrows, hpacks⟩ := ih hrest (by
        rw [List.length_drop, hlen, Nat.add_sub_cancel])
      refine ⟨row :: rows, by rw [List.length_cons, hrowslen], by rw [List.flatten_cons, hflatten],
        List.forall_mem_cons.2 ⟨⟨hrowlen, hnarrow⟩, hrows⟩, ?_⟩
      rw [List.flatMap_cons, hpack, hpacks, ← clearPadding_row htake, ← clearPadding_append htake,
        List.take_append_drop]

end Rows

/-! ## Packing a table -/

/-- Every code fits into so many bits. -/
def Narrow (t : CodeTable) (bits : Nat) : Prop :=
  ∀ code ∈ t.codes.toList, code.toNat < wordValues bits

/-- Vector `i` has, in subspace `m`, the first code in the table that does not fit into so many
bits. -/
structure FirstWide (t : CodeTable) (bits i m : Nat) (code : UInt16) : Prop where
  vector_lt : i < t.vectors
  subspace_lt : m < t.subspaces
  get?_eq : t.get? i m = some code
  wide : wordValues bits ≤ code.toNat
  earlier : ∀ k < i * t.subspaces + m, ∀ code', t.codes[k]? = some code' →
    code'.toNat < wordValues bits

section Pack

variable {t : CodeTable} {bits : Nat}

theorem checkPackable_eq_ok : checkPackable bits = .ok () ↔ bits = 4 ∨ bits = 8 := by
  simp [checkPackable]

/-- What packing does once the codes have been looked at. -/
theorem find?_wide_eq_none :
    (t.codes.toList.zipIdx.find? fun (code, _) => wordValues bits ≤ code.toNat) = none ↔
      t.Narrow bits := by
  have hfind := @find?_zipIdx_eq_none _ (fun code : UInt16 => decide (wordValues bits ≤ code.toNat))
    t.codes.toList
  simp only [decide_eq_false_iff_not, Nat.not_le] at hfind
  exact hfind

/-- A code that does not fit is named, the first one there is. -/
theorem pack_of_not_narrow (ht : t.WellFormed) (hbits : bits = 4 ∨ bits = 8) (h : ¬ t.Narrow bits) :
    ∃ i m code, t.FirstWide bits i m code ∧ t.pack bits = .error (.invalidCode m code.toNat) := by
  obtain ⟨⟨code, k⟩, hfind⟩ := Option.ne_none_iff_exists'.1 (mt find?_wide_eq_none.1 h)
  obtain ⟨hwide, k', hk', hcode, hearlier⟩ := List.find?_eq_some_iff_getElem.1 hfind
  rw [List.length_zipIdx, Array.length_toList] at hk'
  rw [List.getElem_zipIdx, Nat.zero_add, Prod.mk.injEq] at hcode
  obtain ⟨rfl, rfl⟩ := hcode
  have hsize : k' < t.vectors * t.subspaces := ht ▸ hk'
  have hpos : 0 < t.subspaces := Nat.pos_of_ne_zero fun h0 => by simp [h0] at hsize
  have hplace : k' / t.subspaces * t.subspaces + k' % t.subspaces = k' := Nat.div_add_mod' _ _
  refine ⟨k' / t.subspaces, k' % t.subspaces, t.codes.toList[k'],
    ⟨Nat.div_lt_of_lt_mul (Nat.mul_comm t.vectors _ ▸ hsize), Nat.mod_lt _ hpos, ?_, ?_, ?_⟩, ?_⟩
  · rw [get?, hplace, Array.getElem_toList, Array.getElem?_eq_getElem hk']
  · exact of_decide_eq_true hwide
  · intro j hj code hj'
    rw [hplace] at hj
    obtain ⟨hjlt, rfl⟩ := Array.getElem?_eq_some_iff.1 hj'
    have hnot := hearlier j hj
    rw [List.getElem_zipIdx, Bool.not_eq_true', decide_eq_false_iff_not, Nat.not_le] at hnot
    exact hnot
  · rw [pack, checkPackable_eq_ok.2 hbits, ok_bind, hfind]
    simp only [Nat.max_eq_left hpos]

/-- The rows of a table. -/
def rowList (t : CodeTable) : List (List UInt16) :=
  (List.range t.vectors).map fun i => (t.codes.toList.drop (i * t.subspaces)).take t.subspaces

theorem length_rowList (t : CodeTable) : t.rowList.length = t.vectors := by simp [rowList]

theorem flatten_rowList (ht : t.WellFormed) : t.rowList.flatten = t.codes.toList := by
  rw [rowList, ← List.flatMap_def]
  exact flatMap_slices (by rw [Array.length_toList, ht])

theorem narrowRows_rowList (ht : t.WellFormed) (h : t.Narrow 4) : NarrowRows t.subspaces t.rowList := by
  intro row hrow
  obtain ⟨i, hi, rfl⟩ := List.mem_map.1 hrow
  have hin : (i + 1) * t.subspaces ≤ t.codes.toList.length := by
    rw [Array.length_toList, ht]
    exact Nat.mul_le_mul_right _ (List.mem_range.1 hi)
  rw [Nat.succ_mul] at hin
  refine ⟨by rw [List.length_take, List.length_drop]; omega, fun code hcode => ?_⟩
  exact h code (List.mem_of_mem_drop (List.mem_of_mem_take hcode))

/-- Packing two codes to a byte. -/
theorem pack_four {rows : List (List UInt16)} (hrows : NarrowRows t.subspaces rows)
    (hlen : rows.length = t.vectors) (hcodes : t.codes.toList = rows.flatten) :
    t.pack 4 = .ok (rows.flatMap packPairs) := by
  have hnarrow : t.Narrow 4 := by
    intro code hcode
    rw [hcodes] at hcode
    obtain ⟨row, hrow, hmem⟩ := List.mem_flatten.1 hcode
    exact (hrows row hrow).2 code hmem
  have hlook : (List.range t.vectors).mapM t.row? = some rows := by
    refine mapM_eq_some_of_getElem (by rw [List.length_range, hlen]) fun i h1 h2 => ?_
    rw [List.getElem_range]
    exact row?_of_flatMap (f := id) (by rw [hcodes, List.flatMap_id])
      (fun row hrow => (hrows row hrow).1) h2
  rw [pack, checkPackable_eq_ok.2 (.inl rfl), ok_bind, find?_wide_eq_none.2 hnarrow]
  by_cases hs : t.subspaces = 0
  · have hnil : rows.flatMap packPairs = [] := by
      rw [List.flatMap_eq_nil_iff]
      intro row hrow
      rw [List.eq_nil_of_length_eq_zero ((hrows row hrow).1.trans hs), packPairs]
    simp [hs, hnil]
  · simp [hs, hlook]

/-- Packing a code to a byte. -/
theorem pack_eight (h : t.Narrow 8) : t.pack 8 = .ok (t.codes.toList.map UInt16.toUInt8) := by
  rw [pack, checkPackable_eq_ok.2 (.inr rfl), ok_bind, find?_wide_eq_none.2 h]
  rfl

theorem of_pack_eq_ok {bytes : List UInt8} (h : t.pack bits = .ok bytes) :
    (bits = 4 ∨ bits = 8) ∧ t.Narrow bits := by
  obtain ⟨u, hu, h⟩ := bind_eq_ok.1 h
  split at h
  · cases h
  · rename_i hnone
    exact ⟨checkPackable_eq_ok.1 hu, find?_wide_eq_none.1 hnone⟩

end Pack

/-! ## Unpacking bytes -/

section Unpack

variable {vectors subspaces bits : Nat} {bytes : List UInt8} {t : CodeTable}

theorem sizeProduct_eq {a b : Nat} (h : a * b < wordValues 64) : sizeProduct a b = a * b :=
  Nat.mod_eq_of_lt h

/-- The number of codes in a buffer is a word. -/
theorem lt_of_fits {count : Nat} (h : fits count) : count < wordValues 64 := by
  have hword : wordValues 64 = 2 * wordValues 63 := rfl
  have hlt := of_decide_eq_true h
  omega

/-- The codes in some bytes. -/
def unpackedCodes? (bytes : List UInt8) (vectors subspaces bits : Nat) : Option (List UInt16) :=
  if bits = 8 then some (bytes.map UInt8.toUInt16)
  else if fits (sizeProduct vectors subspaces) then
    unpackRows subspaces (max (packedRowLength subspaces bits) 1) vectors bytes
  else none

theorem unpack_eq : unpack bytes vectors subspaces bits = (do
    checkPackable bits
    Result.guard (bytes.length = sizeProduct vectors (packedRowLength subspaces bits))
      (.dimensionMismatch (sizeProduct vectors (packedRowLength subspaces bits)) bytes.length)
    let codes ← Result.ofIndex (unpackedCodes? bytes vectors subspaces bits)
    ofCodes vectors subspaces codes.toArray) := by
  by_cases hbits : bits = 8
  · simp [unpack, unpackedCodes?, hbits]
  · by_cases hfits : fits (sizeProduct vectors subspaces)
    · simp [unpack, unpackedCodes?, hbits, hfits]
    · simp [unpack, unpackedCodes?, hbits, hfits, Result.ofIndex]

theorem ofCodes_eq_ok {codes : Array UInt16} : ofCodes vectors subspaces codes = .ok t ↔
    codes.size = sizeProduct vectors subspaces ∧ t = ⟨vectors, subspaces, codes⟩ := by
  rw [ofCodes]
  split
  · rename_i h
    simp [h, eq_comm]
  · rename_i h
    simp [h]

/-- When bytes can be unpacked, and to what. -/
theorem unpack_eq_ok : unpack bytes vectors subspaces bits = .ok t ↔ (bits = 4 ∨ bits = 8) ∧
    bytes.length = sizeProduct vectors (packedRowLength subspaces bits) ∧ ∃ codes,
      unpackedCodes? bytes vectors subspaces bits = some codes ∧
        codes.length = sizeProduct vectors subspaces ∧ t = ⟨vectors, subspaces, codes.toArray⟩ := by
  rw [unpack_eq, bind_eq_ok]
  constructor
  · rintro ⟨u, hu, h⟩
    obtain ⟨v, hv, h⟩ := bind_eq_ok.1 h
    obtain ⟨codes, hcodes, h⟩ := bind_eq_ok.1 h
    obtain ⟨hsize, rfl⟩ := ofCodes_eq_ok.1 h
    exact ⟨checkPackable_eq_ok.1 hu, by simpa using hv, codes, Result.ofIndex_eq_ok.1 hcodes,
      by simpa using hsize, rfl⟩
  · rintro ⟨hbits, hlen, codes, hcodes, hsize, rfl⟩
    refine ⟨(), checkPackable_eq_ok.2 hbits, bind_eq_ok.2 ⟨(), by simpa using hlen, ?_⟩⟩
    refine bind_eq_ok.2 ⟨codes, Result.ofIndex_eq_ok.2 hcodes, ?_⟩
    exact ofCodes_eq_ok.2 ⟨by simpa using hsize, rfl⟩

/-- A vector of `subspaces` codes of four bits takes half as many bytes, rounded up. -/
theorem packedRowLength_four (h : subspaces * 4 < wordValues 64) :
    packedRowLength subspaces 4 = (subspaces + 1) / 2 := by
  rw [packedRowLength, sizeProduct_eq h]
  omega

theorem packedRowLength_eight (h : subspaces * 8 < wordValues 64) :
    packedRowLength subspaces 8 = subspaces := by
  rw [packedRowLength, sizeProduct_eq h]
  omega

/-- Unpacking what has been packed two codes to a byte. -/
theorem unpack_of_pack_four (ht : t.WellFormed) (h : t.Narrow 4) (hfits : fits t.codes.size)
    (hrow : t.subspaces * 4 < wordValues 64) :
    unpack (t.rowList.flatMap packPairs) t.vectors t.subspaces 4 = .ok t := by
  rw [ht] at hfits
  have hfit := lt_of_fits hfits
  have hrows := narrowRows_rowList ht h
  have hwidth := packedRowLength_four hrow
  have hlen : (t.rowList.flatMap packPairs).length = t.vectors * ((t.subspaces + 1) / 2) := by
    rw [length_flatMap_of_length fun row hr => by rw [length_packPairs, (hrows row hr).1],
      length_rowList]
  have hbytes : t.vectors * ((t.subspaces + 1) / 2) < wordValues 64 :=
    Nat.lt_of_le_of_lt (Nat.mul_le_mul_left _ (by omega)) hfit
  refine unpack_eq_ok.2 ⟨.inl rfl, by rw [hlen, hwidth, sizeProduct_eq hbytes], t.codes.toList, ?_,
    by rw [Array.length_toList, ht, sizeProduct_eq hfit], rfl⟩
  rw [unpackedCodes?, if_neg (by decide), sizeProduct_eq hfit, if_pos hfits, hwidth]
  by_cases hs : t.subspaces = 0
  · have hnone : t.rowList.flatMap packPairs = [] := List.eq_nil_of_length_eq_zero (by
      rw [hlen, hs, Nat.zero_add, Nat.mul_zero])
    have hempty : t.codes.toList = [] := List.eq_nil_of_length_eq_zero (by
      rw [Array.length_toList, ht, hs, Nat.mul_zero])
    rw [hnone, hempty, unpackRows_nil]
  · have hunpack := unpackRows_packPairs (Nat.pos_of_ne_zero hs) hrows
    rw [length_rowList, flatten_rowList ht] at hunpack
    rwa [Nat.max_eq_left (by omega)]

/-- Unpacking what has been packed a code to a byte. -/
theorem unpack_of_pack_eight (ht : t.WellFormed) (h : t.Narrow 8) (hfits : fits t.codes.size)
    (hrow : t.subspaces * 8 < wordValues 64) :
    unpack (t.codes.toList.map UInt16.toUInt8) t.vectors t.subspaces 8 = .ok t := by
  rw [ht] at hfits
  have hfit := lt_of_fits hfits
  have hcodes : (t.codes.toList.map UInt16.toUInt8).map UInt8.toUInt16 = t.codes.toList := by
    rw [List.map_map]
    refine (List.map_congr_left fun code hcode => ?_).trans (List.map_id _)
    have hlt := h code hcode
    refine UInt16.toNat_inj.1 ?_
    show code.toUInt8.toNat = code.toNat
    exact UInt16.toNat_toUInt8 code ▸ Nat.mod_eq_of_lt hlt
  refine unpack_eq_ok.2 ⟨.inr rfl, ?_, t.codes.toList, ?_,
    by rw [Array.length_toList, ht, sizeProduct_eq hfit], rfl⟩
  · rw [List.length_map, Array.length_toList, ht, packedRowLength_eight hrow, sizeProduct_eq hfit]
  · rw [unpackedCodes?, if_pos rfl, hcodes]

theorem narrow_of_bytes (bytes : List UInt8) : ∀ code ∈ bytes.map UInt8.toUInt16,
    code.toNat < wordValues 8 := by
  intro code hcode
  obtain ⟨b, -, rfl⟩ := List.mem_map.1 hcode
  exact b.toNat_lt

/-- Where rows of bytes have been read, a row has bytes enough for its codes. -/
theorem le_width_of_unpackRows {width : Nat} {codes : List UInt16}
    (h : unpackRows subspaces width vectors bytes = some codes) (hcodes : codes ≠ []) :
    (subspaces + 1) / 2 ≤ width := by
  cases vectors with
  | zero =>
    rw [unpackRows, Option.some_inj] at h
    exact absurd h.symm hcodes
  | succ vectors =>
    cases bytes with
    | nil =>
      rw [unpackRows_nil, Option.some_inj] at h
      exact absurd h.symm hcodes
    | cons b bytes =>
      rw [unpackRows, Option.bind_eq_bind, Option.bind_eq_some_iff] at h
      obtain ⟨row, hrow, -⟩ := h
      exact Nat.le_trans (le_length_of_unpackPairs hrow) (List.length_take_le _ _)

/-- Rows of four-bit codes have been read with their own length. -/
theorem width_of_unpackRows {codes : List UInt16} (hpos : 0 < subspaces)
    (hfit : vectors * subspaces < wordValues 64)
    (h : unpackRows subspaces (max (packedRowLength subspaces 4) 1) vectors bytes = some codes)
    (hlen : codes.length = vectors * subspaces) (hvectors : 0 < vectors) :
    packedRowLength subspaces 4 = (subspaces + 1) / 2 := by
  have hsome : codes ≠ [] := fun h0 => by
    rw [h0, List.length_nil] at hlen
    exact absurd hlen.symm (Nat.ne_of_gt (Nat.mul_pos hvectors hpos))
  have hwidth := le_width_of_unpackRows h hsome
  have hword : wordValues 64 = 18446744073709551616 := rfl
  have hsubspaces : subspaces < wordValues 64 :=
    Nat.lt_of_le_of_lt (Nat.le_mul_of_pos_left _ hvectors) hfit
  rw [packedRowLength, sizeProduct, hword] at hwidth ⊢
  omega

/-- Codes of four bits that have been unpacked come in rows. -/
theorem exists_rows_of_unpack {codes : List UInt16} (hfit : vectors * subspaces < wordValues 64)
    (hlen : bytes.length = sizeProduct vectors (packedRowLength subspaces 4))
    (hcodes : unpackRows subspaces (max (packedRowLength subspaces 4) 1) vectors bytes = some codes)
    (hsize : codes.length = vectors * subspaces) :
    ∃ rows : List (List UInt16), rows.length = vectors ∧ rows.flatten = codes ∧
      NarrowRows subspaces rows ∧ rows.flatMap packPairs = clearPadding subspaces 4 bytes := by
  by_cases hempty : vectors = 0 ∨ subspaces = 0
  · have hnobytes : bytes = [] := by
      refine List.eq_nil_of_length_eq_zero (hlen.trans ?_)
      rcases hempty with rfl | rfl <;> simp [sizeProduct, packedRowLength]
    have hnocodes : codes = [] := List.eq_nil_of_length_eq_zero
      (hsize.trans (Nat.mul_eq_zero.2 hempty))
    refine ⟨List.replicate vectors [], List.length_replicate, ?_, ?_, ?_⟩
    · rw [hnocodes, List.flatten_replicate_nil]
    · intro row hrow
      obtain ⟨hvectors, rfl⟩ := List.mem_replicate.1 hrow
      exact ⟨(hempty.resolve_left hvectors).symm, fun _ hcode => absurd hcode List.not_mem_nil⟩
    · simp [hnobytes, clearPadding, packPairs]
  · have hpos : 0 < vectors ∧ 0 < subspaces := by omega
    have hwidth := width_of_unpackRows hpos.2 hfit hcodes hsize hpos.1
    have hbytes : vectors * ((subspaces + 1) / 2) < wordValues 64 :=
      Nat.lt_of_le_of_lt (Nat.mul_le_mul_left _ (by omega)) hfit
    rw [hwidth, Nat.max_eq_left (by omega)] at hcodes
    rw [hwidth, sizeProduct_eq hbytes] at hlen
    exact packPairs_of_unpackRows hpos.2 hcodes hlen

/-- Packing bytes that have been taken for codes. -/
theorem pack_bytes (vectors subspaces : Nat) (bytes : List UInt8) :
    pack ⟨vectors, subspaces, (bytes.map UInt8.toUInt16).toArray⟩ 8 = .ok bytes := by
  have hback : (bytes.map UInt8.toUInt16).map UInt16.toUInt8 = bytes := by
    rw [List.map_map]
    exact (List.map_congr_left fun b _ => UInt8.toUInt8_toUInt16 b).trans (List.map_id _)
  rw [pack_eight (t := ⟨vectors, subspaces, _⟩) (narrow_of_bytes bytes)]
  exact congrArg Except.ok hback

/-- **Packing what has been unpacked** clears the unused half bytes. -/
theorem pack_of_unpack (hfit : vectors * subspaces < wordValues 64)
    (h : unpack bytes vectors subspaces bits = .ok t) :
    t.pack bits = .ok (clearPadding subspaces bits bytes) := by
  obtain ⟨hbits, hlen, codes, hcodes, hsize, rfl⟩ := unpack_eq_ok.1 h
  rw [sizeProduct_eq hfit] at hsize
  rcases hbits with rfl | rfl
  · rw [unpackedCodes?, if_neg (by decide), Option.ite_none_right_eq_some] at hcodes
    obtain ⟨rows, hvectors, hflatten, hnarrow, hbytes⟩ :=
      exists_rows_of_unpack hfit hlen hcodes.2 hsize
    rw [← hbytes]
    exact pack_four (t := ⟨vectors, subspaces, codes.toArray⟩) hnarrow hvectors hflatten.symm
  · rw [unpackedCodes?, if_pos rfl, Option.some_inj] at hcodes
    subst hcodes
    exact pack_bytes vectors subspaces bytes

end Unpack

/-! ## Both ways -/

/-- What packing a table gives: so many bytes to a vector, each code in its place, and what unpacks to
the table if its codes are a buffer that can be had and the bits of a vector can be counted. -/
structure Packed (t : CodeTable) (bits : Nat) (bytes : List UInt8) : Prop where
  length_eq : bytes.length = t.vectors * ((t.subspaces * bits + 7) / 8)
  half_byte : bits = 4 → ∀ i m code, i < t.vectors → m < t.subspaces → t.get? i m = some code →
    ∃ b, bytes[i * ((t.subspaces + 1) / 2) + m / 2]? = some b ∧
      (if m % 2 = 0 then b &&& 0x0f else b >>> 4).toUInt16 = code
  byte : bits = 8 → ∀ i m code, i < t.vectors → m < t.subspaces → t.get? i m = some code →
    bytes[i * t.subspaces + m]? = some code.toUInt8
  unpack_eq : fits t.codes.size → t.subspaces * bits < wordValues 64 →
    unpack bytes t.vectors t.subspaces bits = .ok t

section Both

variable {t : CodeTable} {bits : Nat}

theorem packed_four (ht : t.WellFormed) (h : t.Narrow 4) :
    t.Packed 4 (t.rowList.flatMap packPairs) := by
  have hrows := narrowRows_rowList ht h
  have hwidth : ∀ row ∈ t.rowList, (packPairs row).length = (t.subspaces + 1) / 2 := fun row hr => by
    rw [length_packPairs, (hrows row hr).1]
  refine ⟨?_, fun _ i m code hi hm hcode => ?_, fun h0 => absurd h0 (by decide),
    unpack_of_pack_four ht h⟩
  · have hhalf : (t.subspaces * 4 + 7) / 8 = (t.subspaces + 1) / 2 := by omega
    rw [length_flatMap_of_length hwidth, length_rowList, hhalf]
  · have hi' : i < t.rowList.length := by rwa [length_rowList]
    have hrow : t.row? i = some t.rowList[i] :=
      row?_of_flatMap (f := id) (by rw [List.flatMap_id, flatten_rowList ht])
        (fun row hr => (hrows row hr).1) hi'
    rw [get?_of_row? hrow hm] at hcode
    obtain ⟨b, hb, hhalf⟩ := getElem?_packPairs (hrows _ (List.getElem_mem hi')).2 hcode
    have hslice := slice_flatMap hwidth hi' (Nat.le_of_eq (Nat.zero_add ((t.subspaces + 1) / 2)))
    rw [Nat.add_zero, List.drop_zero,
      List.take_of_length_le (Nat.le_of_eq (hwidth _ (List.getElem_mem hi')))] at hslice
    rw [← hslice, List.getElem?_take_of_lt (by omega), List.getElem?_drop] at hb
    exact ⟨b, hb, hhalf⟩

theorem packed_eight (ht : t.WellFormed) (h : t.Narrow 8) :
    t.Packed 8 (t.codes.toList.map UInt16.toUInt8) := by
  refine ⟨?_, fun h0 => absurd h0 (by decide), fun _ i m code _ _ hcode => ?_,
    unpack_of_pack_eight ht h⟩
  · have hwhole : (t.subspaces * 8 + 7) / 8 = t.subspaces := by omega
    rw [List.length_map, Array.length_toList, ht, hwhole]
  · rw [get?, ← Array.getElem?_toList] at hcode
    rw [List.getElem?_map, hcode, Option.map_some]

/-- **Packing loses nothing.**  A table whose shape agrees with its codes is packed exactly if the
codes fit into four or eight bits; otherwise the first of them that does not fit is named with its
subspace.  The bytes have every code in its place, and unpacking them gives the table back.  And what
bytes are unpacked to is packed to these bytes again, but for the unused half bytes at the ends of
vectors with an odd number of codes. -/
theorem pack_lossless (bits : Nat) :
    (∀ t : CodeTable, t.WellFormed →
      ((∃ bytes, t.pack bits = .ok bytes) ↔ (bits = 4 ∨ bits = 8) ∧ t.Narrow bits) ∧
      (bits = 4 ∨ bits = 8 → ¬ t.Narrow bits → ∃ i m code, t.FirstWide bits i m code ∧
        t.pack bits = .error (.invalidCode m code.toNat)) ∧
      ∀ bytes, t.pack bits = .ok bytes → t.Packed bits bytes) ∧
    ∀ (bytes : List UInt8) (vectors subspaces : Nat) (t : CodeTable),
      vectors * subspaces < wordValues 64 → unpack bytes vectors subspaces bits = .ok t →
        t.pack bits = .ok (clearPadding subspaces bits bytes) := by
  refine ⟨fun t ht => ⟨⟨?_, ?_⟩, pack_of_not_narrow ht, ?_⟩, fun _ _ _ _ => pack_of_unpack⟩
  · rintro ⟨bytes, h⟩
    exact of_pack_eq_ok h
  · rintro ⟨rfl | rfl, h⟩
    · exact ⟨_, pack_four (narrowRows_rowList ht h) (length_rowList t) (flatten_rowList ht).symm⟩
    · exact ⟨_, pack_eight h⟩
  · intro bytes h
    obtain ⟨rfl | rfl, hnarrow⟩ := of_pack_eq_ok h
    · rw [pack_four (narrowRows_rowList ht hnarrow) (length_rowList t)
        (flatten_rowList ht).symm] at h
      cases h
      exact packed_four ht hnarrow
    · rw [pack_eight hnarrow] at h
      cases h
      exact packed_eight ht hnarrow

/-- Two vectors of three codes, packed, and unpacked from bytes with something in an unused half. -/
theorem pack_lossless_three :
    CodeTable.pack ⟨2, 3, #[1, 2, 3, 4, 5, 15]⟩ 4 = .ok [0x21, 0x03, 0x54, 0x0f] ∧
      CodeTable.Packed ⟨2, 3, #[1, 2, 3, 4, 5, 15]⟩ 4 [0x21, 0x03, 0x54, 0x0f] ∧
      unpack [0x21, 0xf3, 0x54, 0x0f] 2 3 4 = .ok ⟨2, 3, #[1, 2, 3, 4, 5, 15]⟩ ∧
      CodeTable.pack ⟨2, 3, #[1, 2, 3, 4, 5, 15]⟩ 4
        = .ok (clearPadding 3 4 [0x21, 0xf3, 0x54, 0x0f]) := by
  have hpack : CodeTable.pack ⟨2, 3, #[1, 2, 3, 4, 5, 15]⟩ 4 = .ok [0x21, 0x03, 0x54, 0x0f] := by
    decide +kernel
  have hunpack : unpack [0x21, 0xf3, 0x54, 0x0f] 2 3 4 = .ok ⟨2, 3, #[1, 2, 3, 4, 5, 15]⟩ := by
    decide +kernel
  obtain ⟨hforward, hback⟩ := pack_lossless 4
  exact ⟨hpack, (hforward ⟨2, 3, #[1, 2, 3, 4, 5, 15]⟩ rfl).2.2 _ hpack, hunpack,
    hback _ 2 3 _ (by decide) hunpack⟩

end Both
end CodeTable
end ProductQuantization
