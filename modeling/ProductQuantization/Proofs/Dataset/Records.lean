import ProductQuantization.Dataset.Fvecs
import ProductQuantization.Proofs.Artifact.Words
import ProductQuantization.Proofs.Matrix.Rows

/-!
# Binary vectors are read exactly

`recordOf` writes one vector as a record, and `encode` writes the rows of a matrix one after the
other.  Reading accepts what `encode` writes and nothing else, and gives back the matrix it was
written from; with a cap, as many records as the cap allows, whatever comes after them.  Everything
else is refused over the first record that is bad, and `BadRecord` says which errors a record can
have and which of them comes first.  `parse_exact` is all of that together.

One record is settled by `takeRecord_eq_ok` and `takeRecord_eq_error`.  A file is a run of good
records (`Front`) that ends at the end of the file, at the cap, or at a bad record
(`exists_front`), and reading it goes through that run (`readRecords_front`).
-/

set_option autoImplicit false

namespace ProductQuantization
namespace Fvecs

/-! ## Writing -/

/-- The greatest dimension that a record can have. -/
def maxDim : Nat := wordValues 31 - 1

theorem le_maxDim_iff {n : Nat} : n ≤ maxDim ↔ n < 2 ^ 31 := Nat.lt_succ_iff.symm

/-- A vector that a record can hold. -/
structure Recordable (x : Point) : Prop where
  length_pos : 0 < x.length
  length_le : x.length ≤ maxDim

theorem Recordable.toInt_length {x : Point} (h : Recordable x) :
    (Int32.ofNat x.length).toInt = x.length :=
  Int32.toInt_ofNat_of_lt (le_maxDim_iff.1 h.length_le)

/-- The record of a vector: its dimension as a signed word, and its components. -/
def recordOf (x : Point) : List UInt8 :=
  Word.toBytes (Int32.ofNat x.length).toUInt32 ++ Word.bytesOfSingles x

/-- The records of the rows of a matrix. -/
def encode (m : Matrix) : List UInt8 := m.toRows.flatMap recordOf

/-- A matrix that a file can hold, with at least one row. -/
structure Encodable (m : Matrix) : Prop where
  rows_pos : 0 < m.rows
  cols_pos : 0 < m.cols
  cols_le : m.cols ≤ maxDim

/-! ## What can be wrong with a record -/

/-- The bytes begin with a bad record, and what is wrong with it.  `record` is its number and
`width` the dimension of the first record, if it is not the first one itself.  Of two faults the one
that is named first here is reported. -/
inductive BadRecord (record : Nat) (width : Option Nat) : List UInt8 → DatasetError → Prop where
  /-- There are no four bytes for a dimension. -/
  | header {bytes : List UInt8} (h : bytes.length < 4) :
      BadRecord record width bytes (.truncated record 4 bytes.length)
  /-- The dimension is not positive. -/
  | sign {dim : Int32} {rest : List UInt8} (h : dim.toInt ≤ 0) :
      BadRecord record width (Word.toBytes dim.toUInt32 ++ rest) (.invalidRecord record dim.toInt)
  /-- The dimension is not that of the first record. -/
  | width {dim : Int32} {w : Nat} {rest : List UInt8} (hpos : 0 < dim.toInt) (hw : width = some w)
      (hne : dim.toInt ≠ w) :
      BadRecord record width (Word.toBytes dim.toUInt32 ++ rest)
        (.raggedRow record w dim.toInt.toNat)
  /-- There are not as many bytes as the components take up. -/
  | payload {dim : Int32} {rest : List UInt8} (hpos : 0 < dim.toInt)
      (hw : ∀ w, width = some w → dim.toInt = w) (hshort : rest.length < dim.toInt.toNat * 4) :
      BadRecord record width (Word.toBytes dim.toUInt32 ++ rest)
        (.truncated record (dim.toInt.toNat * 4) rest.length)

/-! ## One record -/

theorem checkDim_eq_ok {record n : Nat} {width : Option Nat} {dim : Int} :
    checkDim record width dim = .ok n ↔ 0 < dim ∧ dim = n ∧ ∀ w, width = some w → n = w := by
  rw [checkDim.eq_def]
  split
  · simp only [reduceCtorEq, false_iff]
    omega
  · rename_i hpos
    have htoNat : dim.toNat = n ↔ dim = n := by omega
    cases width with
    | none => simp [Int.not_le.1 hpos, htoNat]
    | some w =>
      simp only [Int.not_le.1 hpos, true_and, Option.some.injEq, forall_eq']
      split
      · simp only [Except.ok.injEq, htoNat]
        omega
      · simp only [reduceCtorEq, false_iff]
        omega

theorem checkDim_eq_error {record : Nat} {width : Option Nat} {dim : Int} {e : DatasetError} :
    checkDim record width dim = .error e ↔
      dim ≤ 0 ∧ e = .invalidRecord record dim ∨
        0 < dim ∧ ∃ w, width = some w ∧ dim ≠ w ∧ e = .raggedRow record w dim.toNat := by
  rw [checkDim.eq_def]
  split
  · rename_i hle
    simp [hle, Int.not_lt.2 hle, eq_comm]
  · rename_i hpos
    cases width with
    | none => simp [hpos]
    | some w =>
      have hwidth : dim.toNat = w ↔ dim = w := by omega
      simp only [hpos, Int.not_le.1 hpos, hwidth, false_and, false_or, true_and, Option.some.injEq,
        exists_eq_left']
      split
      · simp [*]
      · simp [*, eq_comm]

theorem takeVector_eq (record dim : Nat) (bytes : List UInt8) :
    takeVector record dim bytes =
      if (bytes.take (dim * 4)).length = dim * 4 then
        .ok (Word.takeSingles (bytes.take (dim * 4)), bytes.drop (dim * 4))
      else .error (.truncated record (dim * 4) bytes.length) := rfl

theorem takeVector_eq_ok {record dim : Nat} {bytes rest : List UInt8} {x : Point} :
    takeVector record dim bytes = .ok (x, rest) ↔
      x.length = dim ∧ bytes = Word.bytesOfSingles x ++ rest := by
  rw [takeVector_eq]
  constructor
  · intro h
    split at h
    · rename_i hlen
      cases h
      refine ⟨Word.length_takeSingles hlen, ?_⟩
      rw [Word.bytesOfSingles_takeSingles hlen, List.take_append_drop]
    · cases h
  · rintro ⟨rfl, rfl⟩
    have hlen := Word.length_bytesOfSingles x
    rw [List.take_left' hlen, List.drop_left' hlen, if_pos hlen, Word.takeSingles_bytesOfSingles]

theorem takeVector_eq_error {record dim : Nat} {bytes : List UInt8} {e : DatasetError} :
    takeVector record dim bytes = .error e ↔
      bytes.length < dim * 4 ∧ e = .truncated record (dim * 4) bytes.length := by
  rw [takeVector_eq, List.length_take]
  split
  · simp only [reduceCtorEq, false_iff]
    omega
  · have hshort : bytes.length < dim * 4 := by omega
    simp [hshort, eq_comm]

/-- The dimension at the front of a record. -/
theorem takeRecord_dim (record : Nat) (width : Option Nat) (dim : Int32) (rest : List UInt8) :
    takeRecord record width (Word.toBytes dim.toUInt32 ++ rest)
      = checkDim record width dim.toInt >>= fun n => takeVector record n rest := by
  rw [takeRecord, Word.ofBytes?_toBytes]
  rfl

/-- Bytes begin with a dimension, unless there are too few of them. -/
theorem exists_dim (bytes : List UInt8) :
    Word.ofBytes? bytes = none ∧ bytes.length < 4 ∨
      ∃ (dim : Int32) (rest : List UInt8), bytes = Word.toBytes dim.toUInt32 ++ rest := by
  cases h : Word.ofBytes? bytes with
  | none =>
    refine .inl ⟨rfl, Nat.not_le.1 fun hlen => ?_⟩
    obtain ⟨w, hw⟩ := Word.exists_ofBytes? hlen
    cases h.symm.trans hw
  | some found => exact .inr ⟨found.1.toInt32, found.2, Word.eq_of_ofBytes? h⟩

/-- **A record is taken exactly if it is the record of a vector**, and of the right width. -/
theorem takeRecord_eq_ok {record : Nat} {width : Option Nat} {bytes rest : List UInt8} {x : Point} :
    takeRecord record width bytes = .ok (x, rest) ↔
      Recordable x ∧ (∀ w, width = some w → x.length = w) ∧ bytes = recordOf x ++ rest := by
  constructor
  · intro h
    rcases exists_dim bytes with ⟨hnone, -⟩ | ⟨dim, rest', rfl⟩
    · rw [takeRecord, hnone] at h
      cases h
    · rw [takeRecord_dim] at h
      obtain ⟨n, hn, h⟩ := bind_eq_ok.1 h
      obtain ⟨hpos, hdim, hwidth⟩ := checkDim_eq_ok.1 hn
      obtain ⟨rfl, rfl⟩ := takeVector_eq_ok.1 h
      have hlt := dim.toInt_lt
      refine ⟨⟨by omega, le_maxDim_iff.2 (by omega)⟩, hwidth, ?_⟩
      have hword : Int32.ofNat x.length = dim := by
        rw [← Int32.ofInt_eq_ofNat, ← hdim, Int32.ofInt_toInt]
      rw [recordOf, hword, List.append_assoc]
  · rintro ⟨hx, hwidth, rfl⟩
    rw [recordOf, List.append_assoc, takeRecord_dim, hx.toInt_length]
    refine bind_eq_ok.2 ⟨x.length, checkDim_eq_ok.2 ⟨?_, rfl, hwidth⟩,
      takeVector_eq_ok.2 ⟨rfl, rfl⟩⟩
    exact_mod_cast hx.length_pos

/-- **A record is refused exactly if it is bad**, and for the first thing that is wrong with it. -/
theorem takeRecord_eq_error {record : Nat} {width : Option Nat} {bytes : List UInt8}
    {e : DatasetError} :
    takeRecord record width bytes = .error e ↔ BadRecord record width bytes e := by
  constructor
  · intro h
    rcases exists_dim bytes with ⟨hnone, hlen⟩ | ⟨dim, rest, rfl⟩
    · rw [takeRecord, hnone] at h
      cases h
      exact .header hlen
    · rw [takeRecord_dim] at h
      rcases bind_eq_error.1 h with h | ⟨n, hn, h⟩
      · rcases checkDim_eq_error.1 h with ⟨hle, rfl⟩ | ⟨hpos, w, hw, hne, rfl⟩
        · exact .sign hle
        · exact .width hpos hw hne
      · obtain ⟨hpos, hdim, hwidth⟩ := checkDim_eq_ok.1 hn
        obtain ⟨hshort, rfl⟩ := takeVector_eq_error.1 h
        obtain rfl : dim.toInt.toNat = n := by omega
        exact .payload hpos (fun w hw => by rw [← hwidth w hw]; exact hdim) hshort
  · intro h
    cases h with
    | header hlen =>
      rcases exists_dim bytes with ⟨hnone, -⟩ | ⟨dim, rest, rfl⟩
      · rw [takeRecord, hnone]
      · rw [List.length_append, Word.length_toBytes] at hlen
        omega
    | sign hle =>
      rw [takeRecord_dim]
      exact bind_eq_error.2 (.inl (checkDim_eq_error.2 (.inl ⟨hle, rfl⟩)))
    | width hpos hw hne =>
      rw [takeRecord_dim]
      exact bind_eq_error.2 (.inl (checkDim_eq_error.2 (.inr ⟨hpos, _, hw, hne, rfl⟩)))
    | @payload dim rest hpos hw hshort =>
      have hdim : dim.toInt = dim.toInt.toNat := by omega
      rw [takeRecord_dim]
      refine bind_eq_error.2 (.inr ⟨dim.toInt.toNat, checkDim_eq_ok.2 ⟨hpos, hdim, ?_⟩, ?_⟩)
      · intro w h
        have := hw w h
        omega
      · exact takeVector_eq_error.2 ⟨hshort, rfl⟩

/-- A record of another dimension is bad whatever comes after it: the dimension is looked at before
any component is. -/
theorem BadRecord.recordOf_append {record w : Nat} {width : Option Nat} {x : Point}
    (hx : Recordable x) (hw : width = some w) (hne : x.length ≠ w) (rest : List UInt8) :
    BadRecord record width (recordOf x ++ rest) (.raggedRow record w x.length) := by
  have hdim := hx.toInt_length
  have hpos := hx.length_pos
  have hbad : BadRecord record width
      (Word.toBytes (Int32.ofNat x.length).toUInt32 ++ (Word.bytesOfSingles x ++ rest))
      (.raggedRow record w (Int32.ofNat x.length).toInt.toNat) :=
    .width (by omega) hw (by omega)
  rwa [hdim, Int.toNat_natCast, ← List.append_assoc] at hbad

/-! ## Runs of records -/

/-- What the first record says of the dimension of the next one, after the given vectors have been
read. -/
def widthAfter (width : Option Nat) (rows : List Point) : Option Nat :=
  width.or (rows.head?.map List.length)

theorem widthAfter_nil (width : Option Nat) : widthAfter width [] = width := by
  cases width <;> rfl

theorem widthAfter_cons (width : Option Nat) (x : Point) (rows : List Point) :
    widthAfter width (x :: rows) = widthAfter (some (width.getD x.length)) rows := by
  cases width <;> rfl

/-- Vectors that are read one after the other from record number `record` on, all of one dimension
and no more of them than the cap allows. -/
structure Front (cap : Option Nat) (record : Nat) (width : Option Nat) (rows : List Point) :
    Prop where
  recordable : ∀ x ∈ rows, Recordable x
  width_eq : ∀ x ∈ rows, widthAfter width rows = some x.length
  room : ∀ c, cap = some c → record + rows.length ≤ c

section Runs

variable {cap : Option Nat} {record : Nat} {width : Option Nat} {bytes rest : List UInt8}
  {x : Point} {rows : List Point} {e : DatasetError}

theorem front_nil : Front cap record width [] ↔ ∀ c, cap = some c → record ≤ c :=
  ⟨fun h => h.room, fun h => ⟨by simp, by simp, h⟩⟩

/-- The first vector of a run, and the run after it. -/
theorem front_cons : Front cap record width (x :: rows) ↔
    Recordable x ∧ (∀ w, width = some w → x.length = w) ∧
      Front cap (record + 1) (some (width.getD x.length)) rows := by
  have hroom : record + (x :: rows).length = record + 1 + rows.length := by
    rw [List.length_cons]
    omega
  constructor
  · rintro ⟨hx, heq, hr⟩
    rw [widthAfter_cons] at heq
    rw [List.forall_mem_cons] at hx heq
    refine ⟨hx.1, ?_, hx.2, heq.2, hroom ▸ hr⟩
    rintro w rfl
    exact (Option.some.inj heq.1).symm
  · rintro ⟨hx, hw, hrows, heq, hr⟩
    refine ⟨List.forall_mem_cons.2 ⟨hx, hrows⟩, ?_, hroom ▸ hr⟩
    rw [widthAfter_cons, List.forall_mem_cons]
    refine ⟨?_, heq⟩
    cases width with
    | none => rfl
    | some w => exact congrArg some (hw w rfl).symm

theorem recordOf_ne_nil (x : Point) : recordOf x ≠ [] := by
  simp [recordOf, Word.toBytes]

/-! ### One step of the reader -/

theorem readRecords_stop (h : bytes = [] ∨ cap = some record) :
    readRecords cap record width bytes = .ok [] := by
  rw [readRecords, if_pos h]

theorem readRecords_bad (h : ¬ (bytes = [] ∨ cap = some record))
    (he : takeRecord record width bytes = .error e) :
    readRecords cap record width bytes = .error e := by
  rw [readRecords, if_neg h]
  split
  · rename_i he'
    cases he.symm.trans he'
    rfl
  · rename_i hx
    cases he.symm.trans hx

theorem readRecords_good (h : ¬ (bytes = [] ∨ cap = some record))
    (hx : takeRecord record width bytes = .ok (x, rest)) :
    readRecords cap record width bytes
      = (readRecords cap (record + 1) (some (width.getD x.length)) rest).map (x :: ·) := by
  rw [readRecords, if_neg h]
  split
  · rename_i he
    cases hx.symm.trans he
  · rename_i hx'
    cases hx.symm.trans hx'
    rfl

/-! ### The whole run -/

/-- **Reading goes through a run of good records** and takes up what is after it. -/
theorem readRecords_front (h : Front cap record width rows) (rest : List UInt8) :
    readRecords cap record width (rows.flatMap recordOf ++ rest)
      = (readRecords cap (record + rows.length) (widthAfter width rows) rest).map (rows ++ ·) := by
  induction rows generalizing record width with
  | nil =>
    have hid : (fun xs : List Point => [] ++ xs) = id := rfl
    rw [hid, Except.map_id, widthAfter_nil]
    rfl
  | cons x rows ih =>
    obtain ⟨hx, hw, hrows⟩ := front_cons.1 h
    have hgo : ¬ ((x :: rows).flatMap recordOf ++ rest = [] ∨ cap = some record) := by
      rintro (hnil | hcap)
      · rw [List.flatMap_cons, List.append_assoc, List.append_eq_nil_iff] at hnil
        exact recordOf_ne_nil x hnil.1
      · have hroom := h.room record hcap
        rw [List.length_cons] at hroom
        omega
    have htake : takeRecord record width ((x :: rows).flatMap recordOf ++ rest)
        = .ok (x, rows.flatMap recordOf ++ rest) :=
      takeRecord_eq_ok.2 ⟨hx, hw, by rw [List.flatMap_cons, List.append_assoc]⟩
    rw [readRecords_good hgo htake, ih hrows, ← widthAfter_cons, List.length_cons, Nat.add_assoc,
      Nat.add_comm 1]
    cases readRecords cap _ _ rest <;> rfl

/-- **Every file is a run of good records** up to its end, to the cap, or to a bad record. -/
theorem exists_front (width : Option Nat) (bytes : List UInt8)
    (hcap : ∀ c, cap = some c → record ≤ c) :
    ∃ rows rest, Front cap record width rows ∧ bytes = rows.flatMap recordOf ++ rest ∧
      ((rest = [] ∨ cap = some (record + rows.length)) ∨
        ¬ (rest = [] ∨ cap = some (record + rows.length)) ∧
          ∃ e, BadRecord (record + rows.length) (widthAfter width rows) rest e) := by
  induction hn : bytes.length using Nat.strongRecOn generalizing bytes record width with
  | ind n ih =>
    by_cases hstop : bytes = [] ∨ cap = some record
    · exact ⟨[], bytes, front_nil.2 hcap, rfl, .inl hstop⟩
    · cases htake : takeRecord record width bytes with
      | error e =>
        exact ⟨[], bytes, front_nil.2 hcap, rfl,
          .inr ⟨hstop, e, (widthAfter_nil width).symm ▸ takeRecord_eq_error.1 htake⟩⟩
      | ok found =>
        obtain ⟨x, rest⟩ := found
        obtain ⟨hx, hw, hbytes⟩ := takeRecord_eq_ok.1 htake
        have hcap' : ∀ c, cap = some c → record + 1 ≤ c := by
          rintro c rfl
          have hle := hcap c rfl
          have hne : record ≠ c := fun h => hstop (.inr (by rw [h]))
          omega
        obtain ⟨rows, rest', hfront, hrest, hend⟩ := ih rest.length
          (hn ▸ length_takeRecord htake) (some (width.getD x.length)) rest hcap' rfl
        refine ⟨x :: rows, rest', front_cons.2 ⟨hx, hw, hfront⟩, ?_, ?_⟩
        · rw [hbytes, hrest, List.flatMap_cons, List.append_assoc]
        · rwa [← widthAfter_cons, Nat.add_assoc, Nat.add_comm 1, ← List.length_cons (a := x)] at hend

theorem readRecords_eq_ok (hcap : ∀ c, cap = some c → record ≤ c) :
    readRecords cap record width bytes = .ok rows ↔ Front cap record width rows ∧
      ∃ rest, bytes = rows.flatMap recordOf ++ rest ∧
        (rest = [] ∨ cap = some (record + rows.length)) := by
  constructor
  · intro h
    obtain ⟨rows', rest, hfront, rfl, hend⟩ := exists_front width bytes hcap
    rw [readRecords_front hfront] at h
    rcases hend with hstop | ⟨hgo, e, he⟩
    · rw [readRecords_stop hstop] at h
      cases h
      simp only [List.append_nil]
      exact ⟨hfront, rest, rfl, hstop⟩
    · rw [readRecords_bad hgo (takeRecord_eq_error.2 he)] at h
      cases h
  · rintro ⟨hfront, rest, rfl, hstop⟩
    rw [readRecords_front hfront, readRecords_stop hstop]
    exact congrArg Except.ok (List.append_nil rows)

theorem readRecords_eq_error (hcap : ∀ c, cap = some c → record ≤ c) :
    readRecords cap record width bytes = .error e ↔ ∃ rows rest, Front cap record width rows ∧
      bytes = rows.flatMap recordOf ++ rest ∧ ¬ (rest = [] ∨ cap = some (record + rows.length)) ∧
        BadRecord (record + rows.length) (widthAfter width rows) rest e := by
  constructor
  · intro h
    obtain ⟨rows', rest, hfront, rfl, hend⟩ := exists_front width bytes hcap
    rw [readRecords_front hfront] at h
    rcases hend with hstop | ⟨hgo, e', he⟩
    · rw [readRecords_stop hstop] at h
      cases h
    · rw [readRecords_bad hgo (takeRecord_eq_error.2 he)] at h
      cases h
      exact ⟨rows', rest, hfront, rfl, hgo, he⟩
  · rintro ⟨rows, rest, hfront, rfl, hgo, he⟩
    rw [readRecords_front hfront, readRecords_bad hgo (takeRecord_eq_error.2 he)]
    rfl

/-- **What comes after the last record asked for does not matter**, whether the records before it
are of one dimension or not. -/
theorem readRecords_append_congr (record : Nat) (width : Option Nat)
    (h : ∀ x ∈ rows, Recordable x) (rest rest' : List UInt8) :
    readRecords (some (record + rows.length)) record width (rows.flatMap recordOf ++ rest)
      = readRecords (some (record + rows.length)) record width
          (rows.flatMap recordOf ++ rest') := by
  induction rows generalizing record width with
  | nil => exact (readRecords_stop (.inr rfl)).trans (readRecords_stop (.inr rfl)).symm
  | cons x rows ih =>
    obtain ⟨hx, hrows⟩ := List.forall_mem_cons.1 h
    have hlen : record + (x :: rows).length = record + 1 + rows.length := by
      rw [List.length_cons]
      omega
    have hgo (tail : List UInt8) : ¬ (recordOf x ++ tail = []
        ∨ some (record + (x :: rows).length) = some record) := by
      simp [recordOf_ne_nil]
    rw [List.flatMap_cons, List.append_assoc, List.append_assoc]
    by_cases hw : ∀ w, width = some w → x.length = w
    · rw [readRecords_good (hgo _) (takeRecord_eq_ok.2 ⟨hx, hw, rfl⟩),
        readRecords_good (hgo _) (takeRecord_eq_ok.2 ⟨hx, hw, rfl⟩), hlen, ih _ _ hrows]
    · push Not at hw
      obtain ⟨w, hsome, hne⟩ := hw
      rw [readRecords_bad (hgo _) (takeRecord_eq_error.2 (.recordOf_append hx hsome hne _)),
        readRecords_bad (hgo _) (takeRecord_eq_error.2 (.recordOf_append hx hsome hne _))]

end Runs

/-! ## Files -/

section Files

variable {cap : Option Nat} {bytes : List UInt8} {rows : List Point} {m : Matrix}

theorem parse_eq_map (bytes : List UInt8) (cap : Option Nat) :
    parse bytes cap = (readRecords cap 0 none bytes).map fun rows =>
      .stack ((rows.head?.map List.length).getD 0) rows := by
  rw [parse]
  cases readRecords cap 0 none bytes <;> rfl

theorem eq_stack_nil_iff : m = .stack 0 [] ↔ m.rows = 0 ∧ m.cols = 0 := by
  constructor
  · rintro rfl
    exact ⟨rfl, rfl⟩
  · rintro ⟨hr, hc⟩
    refine Matrix.eq_of_data_eq hr hc (Array.eq_empty_of_size_eq_zero ?_)
    rw [m.size_eq, hr, Nat.zero_mul]

/-- A run of records fills a matrix. -/
theorem Front.encodable (h : Front cap 0 none rows) (hne : rows ≠ []) :
    Encodable (.stack ((rows.head?.map List.length).getD 0) rows) ∧
      (Matrix.stack ((rows.head?.map List.length).getD 0) rows).toRows = rows := by
  obtain ⟨x, rest, rfl⟩ := List.exists_cons_of_ne_nil hne
  have hx := h.recordable x List.mem_cons_self
  have hwidth : ∀ y ∈ x :: rest, y.length = x.length := fun y hy =>
    (Option.some.inj (h.width_eq y hy)).symm
  exact ⟨⟨Nat.succ_pos _, hx.length_pos, hx.length_le⟩,
    Matrix.toRows_stack (Nat.ne_of_gt hx.length_pos) hwidth⟩

/-- The rows of a matrix are a run of records. -/
theorem Encodable.front (h : Encodable m) (hcap : ∀ c, cap = some c → m.rows ≤ c) :
    Front cap 0 none m.toRows ∧ .stack ((m.toRows.head?.map List.length).getD 0) m.toRows = m := by
  have hc : m.cols ≠ 0 := Nat.ne_of_gt h.cols_pos
  have hlen := Matrix.length_toRows hc
  have hhead : m.toRows.head?.map List.length = some m.cols := by
    cases hrows : m.toRows with
    | nil =>
      rw [hrows] at hlen
      exact absurd hlen.symm (Nat.ne_of_gt h.rows_pos)
    | cons x rest =>
      have hx : x ∈ m.toRows := hrows ▸ List.mem_cons_self
      exact congrArg some (Matrix.length_of_mem_toRows hx)
  refine ⟨⟨fun x hx => ?_, fun x hx => ?_, fun c hsome => ?_⟩, ?_⟩
  · have hx := Matrix.length_of_mem_toRows hx
    exact ⟨hx ▸ h.cols_pos, hx ▸ h.cols_le⟩
  · rw [Matrix.length_of_mem_toRows hx]
    exact hhead
  · rw [Nat.zero_add, hlen]
    exact hcap c hsome
  · rw [hhead]
    exact Matrix.stack_toRows hc

theorem parse_eq_ok : parse bytes cap = .ok m ↔
    (m.rows = 0 ∧ m.cols = 0) ∧ (bytes = [] ∨ cap = some 0) ∨
      Encodable m ∧ (∀ c, cap = some c → m.rows ≤ c) ∧
        ∃ rest, bytes = encode m ++ rest ∧ (rest = [] ∨ cap = some m.rows) := by
  rw [parse_eq_map, map_eq_ok]
  constructor
  · rintro ⟨rows, hrows, rfl⟩
    obtain ⟨hfront, rest, rfl, hend⟩ := (readRecords_eq_ok fun c _ => Nat.zero_le c).1 hrows
    rw [Nat.zero_add] at hend
    by_cases hnil : rows = []
    · subst hnil
      exact .inl ⟨⟨rfl, rfl⟩, hend⟩
    · obtain ⟨hm, hback⟩ := hfront.encodable hnil
      refine .inr ⟨hm, fun c hc => ?_, rest, ?_, hend⟩
      · have hroom := hfront.room c hc
        rwa [Nat.zero_add] at hroom
      · rw [encode, hback]
  · rintro (⟨hempty, hend⟩ | ⟨hm, hcap, rest, rfl, hend⟩)
    · exact ⟨[], readRecords_stop hend, (eq_stack_nil_iff.2 hempty).symm⟩
    · obtain ⟨hfront, hstack⟩ := hm.front hcap
      refine ⟨m.toRows, (readRecords_eq_ok fun c _ => Nat.zero_le c).2 ⟨hfront, rest, rfl, ?_⟩,
        hstack⟩
      rwa [Nat.zero_add, Matrix.length_toRows (Nat.ne_of_gt hm.cols_pos)]

/-- The file begins with records of one dimension, fewer than are asked for, and the record after
them is bad. -/
inductive Refused (cap : Option Nat) : List UInt8 → DatasetError → Prop where
  | mk {rows : List Point} {rest : List UInt8} {e : DatasetError}
      (recordable : ∀ x ∈ rows, Recordable x)
      (width_eq : ∀ x ∈ rows, rows.head?.map List.length = some x.length)
      (room : ∀ c, cap = some c → rows.length < c) (rest_ne_nil : rest ≠ [])
      (bad : BadRecord rows.length (rows.head?.map List.length) rest e) :
      Refused cap (rows.flatMap recordOf ++ rest) e

theorem parse_eq_error {e : DatasetError} : parse bytes cap = .error e ↔ Refused cap bytes e := by
  rw [parse_eq_map, map_eq_error, readRecords_eq_error fun c _ => Nat.zero_le c]
  constructor
  · rintro ⟨rows, rest, hfront, rfl, hgo, hbad⟩
    rw [Nat.zero_add] at hgo hbad
    obtain ⟨hrest, hcap⟩ := not_or.1 hgo
    refine .mk hfront.recordable hfront.width_eq (fun c hc => ?_) hrest hbad
    have hroom := hfront.room c hc
    have hne : rows.length ≠ c := fun h => hcap (h ▸ hc)
    omega
  · rintro ⟨hrecordable, hwidth, hroom, hrest, hbad⟩
    rename_i rows rest
    refine ⟨rows, rest, ⟨hrecordable, hwidth, fun c hc => ?_⟩, rfl, ?_, ?_⟩
    · have := hroom c hc
      omega
    · rw [Nat.zero_add]
      rintro (hnil | hcap)
      · exact hrest hnil
      · exact Nat.lt_irrefl _ (hroom _ hcap)
    · rw [Nat.zero_add]
      exact hbad

theorem isEmpty_eq_false_iff : m.isEmpty = false ↔ 0 < m.rows ∧ 0 < m.cols := by
  simp [Matrix.isEmpty, Nat.pos_iff_ne_zero]

theorem Encodable.isEmpty_eq (h : Encodable m) : m.isEmpty = false :=
  isEmpty_eq_false_iff.2 ⟨h.rows_pos, h.cols_pos⟩

/-- With a cap the file is written from the matrix, or its front is and the cap is reached. -/
theorem parse_some_eq_ok_rows {cap : Nat} (hcap : 1 ≤ cap) :
    parse bytes (some cap) = .ok m ∧ m.isEmpty = false ↔
      Encodable m ∧ ∃ rest, bytes = encode m ++ rest ∧
        (m.rows = cap ∨ m.rows < cap ∧ rest = []) := by
  rw [parse_eq_ok]
  constructor
  · rintro ⟨⟨⟨hr, -⟩, -⟩ | ⟨hm, hle, rest, hbytes, hend⟩, hfull⟩
    · rw [isEmpty_eq_false_iff] at hfull
      omega
    · refine ⟨hm, rest, hbytes, ?_⟩
      rcases hend with hnil | hall
      · rcases Nat.eq_or_lt_of_le (hle cap rfl) with heq | hlt
        · exact .inl heq
        · exact .inr ⟨hlt, hnil⟩
      · exact .inl (Option.some.inj hall).symm
  · rintro ⟨hm, rest, hbytes, hend⟩
    refine ⟨.inr ⟨hm, ?_, rest, hbytes, ?_⟩, hm.isEmpty_eq⟩
    · rintro c ⟨rfl⟩
      omega
    · rcases hend with rfl | ⟨-, hnil⟩
      · exact .inr rfl
      · exact .inl hnil

/-- Nothing is read from a file with nothing in it, and from no other. -/
theorem parse_some_eq_ok_empty {cap : Nat} (hcap : 1 ≤ cap) :
    parse bytes (some cap) = .ok m ∧ m.isEmpty = true ↔
      bytes = [] ∧ m.rows = 0 ∧ m.cols = 0 := by
  rw [parse_eq_ok]
  constructor
  · rintro ⟨⟨hempty, hend⟩ | ⟨hm, -⟩, hfull⟩
    · refine ⟨hend.resolve_right fun h => ?_, hempty⟩
      have := Option.some.inj h
      omega
    · rw [hm.isEmpty_eq] at hfull
      cases hfull
  · rintro ⟨hnil, hempty⟩
    exact ⟨.inl ⟨hempty, .inl hnil⟩, by simp [Matrix.isEmpty, hempty.1]⟩

/-- **Binary vectors are read exactly.**

* Without a cap a file is accepted exactly if there is nothing in it, and then the matrix has
  neither rows nor columns, or if it is written from a matrix, and then it is that matrix.
* With a cap the matrix is the one from which the file is written, or the one from which its front
  is written if that has as many rows as the cap allows.
* What comes after as many records as the cap allows makes no difference.
* A file is refused exactly if it is `Refused`: over the first bad record and what is wrong with
  it. -/
theorem parse_exact (bytes : List UInt8) :
    (∀ m, parse bytes none = .ok m ↔
      bytes = [] ∧ m.rows = 0 ∧ m.cols = 0 ∨ Encodable m ∧ bytes = encode m) ∧
    (∀ cap, 1 ≤ cap → ∀ m,
      (parse bytes (some cap) = .ok m ∧ m.isEmpty = false ↔
        Encodable m ∧ ∃ rest, bytes = encode m ++ rest ∧
          (m.rows = cap ∨ m.rows < cap ∧ rest = [])) ∧
      (parse bytes (some cap) = .ok m ∧ m.isEmpty = true ↔
        bytes = [] ∧ m.rows = 0 ∧ m.cols = 0)) ∧
    (∀ xs : List Point, (∀ x ∈ xs, Recordable x) → bytes = xs.flatMap recordOf →
      ∀ rest rest' : List UInt8,
        parse (bytes ++ rest) (some xs.length) = parse (bytes ++ rest') (some xs.length)) ∧
    (∀ cap e, parse bytes cap = .error e ↔ Refused cap bytes e) := by
  refine ⟨fun m => ?_,
    fun cap hcap m => ⟨parse_some_eq_ok_rows hcap, parse_some_eq_ok_empty hcap⟩, ?_,
    fun cap e => parse_eq_error⟩
  · rw [parse_eq_ok]
    simp [and_comm]
  · rintro xs hxs rfl rest rest'
    have hcongr := readRecords_append_congr 0 none hxs rest rest'
    rw [Nat.zero_add] at hcongr
    rw [parse_eq_map, parse_eq_map, hcongr]

/-- Two records of one component, one of them not a number, and then three bytes: they are not
looked at if two vectors are asked for, and are too few for a third one. -/
theorem parse_exact_three_bytes_more :
    1 ≤ 2 ∧ (∀ x ∈ [[Single.one], [Single.nan]], Recordable x) ∧
      parse ([1, 0, 0, 0, 0, 0, 128, 63, 1, 0, 0, 0, 0, 0, 192, 127] ++ [2, 0, 0]) (some 2)
        = .ok (.stack 1 [[.one], [.nan]]) ∧
      parse ([1, 0, 0, 0, 0, 0, 128, 63, 1, 0, 0, 0, 0, 0, 192, 127] ++ [255]) (some 2)
        = .ok (.stack 1 [[.one], [.nan]]) ∧
      parse ([1, 0, 0, 0, 0, 0, 128, 63, 1, 0, 0, 0, 0, 0, 192, 127] ++ [2, 0, 0]) none
        = .error (.truncated 2 4 3) := by
  have hrecordable : ∀ x ∈ [[Single.one], [Single.nan]], Recordable x := by
    intro x hx
    simp only [List.mem_cons, List.not_mem_nil, or_false] at hx
    rcases hx with rfl | rfl <;> exact ⟨by decide, by decide⟩
  have hbytes : [1, 0, 0, 0, 0, 0, 128, 63, 1, 0, 0, 0, 0, 0, 192, 127]
      = [[Single.one], [Single.nan]].flatMap recordOf := by decide
  have hcapped := ((parse_exact ([1, 0, 0, 0, 0, 0, 128, 63, 1, 0, 0, 0, 0, 0, 192, 127]
    ++ [2, 0, 0])).2.1 2 (by decide) (.stack 1 [[.one], [.nan]])).1.2
      ⟨⟨by decide, by decide, by decide⟩, [2, 0, 0], by decide, .inl rfl⟩
  have hsame := (parse_exact [1, 0, 0, 0, 0, 0, 128, 63, 1, 0, 0, 0, 0, 0, 192, 127]).2.2.1
    [[.one], [.nan]] hrecordable hbytes [2, 0, 0] [255]
  refine ⟨by decide, hrecordable, hcapped.1, hsame.symm.trans hcapped.1, ?_⟩
  refine ((parse_exact _).2.2.2 none _).2 ?_
  rw [hbytes]
  have hbad : BadRecord 2 (some 1) [2, 0, 0] (.truncated 2 4 3) := .header (by decide)
  exact .mk hrecordable (by decide) (by simp) (by simp) hbad

end Files

end Fvecs
end ProductQuantization
