import ProductQuantization.Artifact.Word
import ProductQuantization.Dataset.Error
import ProductQuantization.Matrix.Basic

/-!
# Binary vectors

A file is a sequence of records.  Each is a dimension in a signed thirty-two-bit word and that many
components in four bytes each, all of it little-endian.  The dimension is positive and the same in
all records.

A record is checked in the order in which it is read: is there a dimension, is it positive, is it
that of the first record, and are all components there.  What comes after the last record asked for
is not looked at.
-/

set_option autoImplicit false

namespace ProductQuantization
namespace Fvecs

/-- The bytes of one component. -/
def componentSize : Nat := 4

/-- The vector in a record of the given dimension, and the bytes after it. -/
def takeVector (record dim : Nat) (bytes : List UInt8) :
    Except DatasetError (Point × List UInt8) :=
  let needed := dim * componentSize
  let payload := bytes.take needed
  if payload.length = needed then .ok (Word.takeSingles payload, bytes.drop needed)
  else .error (.truncated record needed bytes.length)

/-- The dimension of a record, which must be positive and that of the first record. -/
def checkDim (record : Nat) (width : Option Nat) (dim : Int) : Except DatasetError Nat :=
  if dim ≤ 0 then .error (.invalidRecord record dim)
  else
    match width with
    | some w =>
      if dim.toNat = w then .ok dim.toNat else .error (.raggedRow record w dim.toNat)
    | none => .ok dim.toNat

/-- The first record, and the bytes after it. -/
def takeRecord (record : Nat) (width : Option Nat) (bytes : List UInt8) :
    Except DatasetError (Point × List UInt8) :=
  match Word.ofBytes? bytes with
  | none => .error (.truncated record 4 bytes.length)
  | some (word, rest) => do
    let dim ← checkDim record width word.toInt32.toInt
    takeVector record dim rest

theorem length_ofBytes? {bytes rest : List UInt8} {w : UInt32}
    (h : Word.ofBytes? bytes = some (w, rest)) : rest.length < bytes.length := by
  unfold Word.ofBytes? at h
  split at h
  · obtain ⟨rfl, rfl⟩ := Prod.mk.inj (Option.some.inj h)
    simp only [List.length_cons]
    omega
  · cases h

theorem length_takeVector {record dim : Nat} {bytes rest : List UInt8} {x : Point}
    (h : takeVector record dim bytes = .ok (x, rest)) : rest.length ≤ bytes.length := by
  simp only [takeVector] at h
  split at h
  · obtain ⟨rfl, rfl⟩ := Prod.mk.inj (Except.ok.inj h)
    simp
  · cases h

/-- A record takes up bytes. -/
theorem length_takeRecord {record : Nat} {width : Option Nat} {bytes rest : List UInt8} {x : Point}
    (h : takeRecord record width bytes = .ok (x, rest)) : rest.length < bytes.length := by
  unfold takeRecord at h
  split at h
  · cases h
  · next w rest' hw =>
    cases hd : checkDim record width w.toInt32.toInt with
    | error e => rw [hd] at h; cases h
    | ok dim =>
      rw [hd] at h
      exact Nat.lt_of_le_of_lt (length_takeVector h) (length_ofBytes? hw)

/-- The vectors in the bytes that are left.  `record` is the number of the next one, `width` the
dimension of the first one. -/
def readRecords (cap : Option Nat) (record : Nat) (width : Option Nat) (bytes : List UInt8) :
    Except DatasetError (List Point) :=
  if bytes = [] ∨ cap = some record then .ok []
  else
    match _h : takeRecord record width bytes with
    | .error e => .error e
    | .ok (x, rest) =>
      (readRecords cap (record + 1) (some (width.getD x.length)) rest).map (x :: ·)
termination_by bytes.length
decreasing_by exact length_takeRecord _h

/-- The vectors of a file, at most `cap` of them if there is a cap. -/
def parse (bytes : List UInt8) (cap : Option Nat) : Except DatasetError Matrix := do
  let rows ← readRecords cap 0 none bytes
  .ok (.stack ((rows.head?.map List.length).getD 0) rows)

end Fvecs
end ProductQuantization
