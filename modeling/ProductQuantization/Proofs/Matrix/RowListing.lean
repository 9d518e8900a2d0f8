import ProductQuantization.Json.Record
import ProductQuantization.Proofs.Matrix.Rows

/-!
# Matrices list their rows

A single row is looked up at its place in the buffer, which is a multiple of the width of the
matrix.  Whoever wants all of them goes through the buffer in chunks, and a chunk is never less than
one component wide: without columns there would be no end of chunks.  For such a matrix the two ways
differ.  It has as many rows as it says, all of them empty, but the buffer is empty too and there is
no chunk in it.  With columns there is no difference (`listedRows_eq`).

That a matrix has the shape it should have is a matter of how it came about.  `Obtainable` is every
way to a matrix, with the shape it should have, and `Obtainable.hasShape` says that it does, one
operation after the other.
-/

set_option autoImplicit false

namespace ProductQuantization

/-! ## Chunks -/

/-- The chunks of `width` elements that a list is cut into.  What is left at the end and too short
for a chunk is in none of them. -/
def wholeChunks {α : Type} (width : Nat) (xs : List α) : List (List α) :=
  if 0 < width ∧ width ≤ xs.length then
    xs.take width :: wholeChunks width (xs.drop width)
  else []
termination_by xs.length
decreasing_by rw [List.length_drop]; omega

section Chunks

variable {α : Type} {width : Nat}

theorem wholeChunks_nil (width : Nat) : wholeChunks width ([] : List α) = [] := by
  rw [wholeChunks, if_neg fun h => Nat.lt_irrefl 0 (Nat.lt_of_lt_of_le h.1 h.2)]

theorem wholeChunks_append (hw : 0 < width) {piece : List α} (h : piece.length = width)
    (rest : List α) : wholeChunks width (piece ++ rest) = piece :: wholeChunks width rest := by
  have hlong : width ≤ (piece ++ rest).length := by simp [h]
  rw [wholeChunks, if_pos ⟨hw, hlong⟩, List.take_left' h, List.drop_left' h]

/-- What is made of pieces of one width is cut into these pieces. -/
theorem wholeChunks_flatten (hw : 0 < width) {pieces : List (List α)}
    (h : ∀ piece ∈ pieces, piece.length = width) : wholeChunks width pieces.flatten = pieces := by
  induction pieces with
  | nil => exact wholeChunks_nil width
  | cons piece pieces ih =>
    rw [List.forall_mem_cons] at h
    rw [List.flatten_cons, wholeChunks_append hw h.1, ih h.2]

end Chunks

namespace Matrix

/-! ## The rows of a matrix -/

/-- The chunks of the buffer, as several threads share them out. -/
def chunkedRows (m : Matrix) : List Point := wholeChunks (max m.cols 1) m.data.toList

/-- The chunks of the buffer in order, no more than there are rows. -/
def listedRows (m : Matrix) : List Point := m.chunkedRows.take m.rows

theorem chunkedRows_eq (m : Matrix) : m.chunkedRows = m.toRows := by
  by_cases hc : m.cols = 0
  · have hnone : m.data = #[] := Array.eq_empty_of_size_eq_zero (by rw [m.size_eq, hc, Nat.mul_zero])
    rw [chunkedRows, hnone, toRows, if_pos hc]
    exact wholeChunks_nil _
  · have hmax : max m.cols 1 = m.cols := by omega
    rw [toRows_eq hc, chunkedRows, ← flatten_rowAt]
    refine wholeChunks_flatten (by omega) fun row hrow => ?_
    obtain ⟨i, rfl⟩ := List.mem_ofFn.1 hrow
    rw [length_rowAt, hmax]

/-- **Going through the buffer gives the rows**, all of them if there are columns. -/
theorem listedRows_eq (m : Matrix) : m.listedRows = m.toRows := by
  have hle : m.toRows.length ≤ m.rows := by
    rw [toRows]
    split <;> simp
  rw [listedRows, chunkedRows_eq, List.take_of_length_le hle]

/-! ## Shapes -/

/-- A matrix has the given shape. -/
structure HasShape (m : Matrix) (rows cols : Nat) : Prop where
  rows_eq : m.rows = rows
  cols_eq : m.cols = cols

section Shapes

variable {m m' : Matrix} {rows cols : Nat}

theorem hasShape_of_zeros? (h : zeros? rows cols = some m) : m.HasShape rows cols := by
  rw [zeros?] at h
  split at h <;> cases h
  exact ⟨rfl, rfl⟩

theorem hasShape_of_identity? {n : Nat} (h : identity? n = some m) : m.HasShape n n := by
  rw [identity?] at h
  split at h <;> cases h
  exact ⟨rfl, rfl⟩

theorem hasShape_of_ofData {data : Array Single} (h : ofData rows cols data = .ok m) :
    m.HasShape rows cols := by
  rw [ofData] at h
  split at h <;> cases h
  exact ⟨rfl, rfl⟩

theorem hasShape_of_ofRows {points : List Point} (h : ofRows points = .ok m) :
    m.HasShape points.length ((points.head?.map List.length).getD 0) := by
  simp only [ofRows] at h
  split at h <;> cases h
  exact ⟨rfl, rfl⟩

/-- The shape that a record claims for its matrix. -/
def statedShape? (j : Json) : Option (Nat × Nat) := do
  match ← j.fields? fieldNames with
  | [rows, cols, _] => some (← Json.required Json.size? rows, ← Json.required Json.size? cols)
  | _ => none

theorem hasShape_of_ofJson? {j : Json} (h : ofJson? j = some m)
    (hs : statedShape? j = some (rows, cols)) : m.HasShape rows cols := by
  obtain ⟨fields, hfields, h⟩ := Option.bind_eq_some_iff.1 h
  rw [statedShape?, hfields] at hs
  split at h
  · obtain ⟨r, hr, h⟩ := Option.bind_eq_some_iff.1 h
    obtain ⟨c, hc, h⟩ := Option.bind_eq_some_iff.1 h
    obtain ⟨data, -, h⟩ := Option.bind_eq_some_iff.1 h
    simp only [Option.bind_eq_bind, Option.bind_some, hr, hc, Option.some_inj,
      Prod.mk.injEq] at hs
    obtain ⟨rfl, rfl⟩ := hs
    cases hdata : ofData r c data.toArray with
    | error e => rw [hdata] at h; cases h
    | ok a =>
      rw [hdata] at h
      cases h
      exact hasShape_of_ofData hdata
  · cases h

theorem HasShape.transpose (h : m.HasShape rows cols) : m.transpose.HasShape cols rows :=
  ⟨h.cols_eq, h.rows_eq⟩

theorem HasShape.mul? {inner inner' : Nat} {a b : Matrix} (ha : a.HasShape rows inner)
    (hb : b.HasShape inner' cols) (h : a.mul? b = some (.ok m)) : m.HasShape rows cols := by
  rw [Matrix.mul?] at h
  split at h
  · cases h
  · obtain ⟨-, hr, hc⟩ := mul_eq_ok (Option.some_inj.1 h)
    exact ⟨hr.trans ha.rows_eq, hc.trans hb.cols_eq⟩

theorem HasShape.columnBlock? {start width : Nat} (hm : m.HasShape rows cols)
    (h : m.columnBlock? start width = some (.ok m')) : m'.HasShape rows width := by
  rw [Matrix.columnBlock?] at h
  split at h
  · have hblock := isBlock_of_columnBlock (Option.some_inj.1 h)
    exact ⟨hblock.rows_eq.trans hm.rows_eq, hblock.cols_eq⟩
  · cases h

theorem HasShape.selectRows? {indices : List Nat} (hm : m.HasShape rows cols)
    (h : m.selectRows? indices = some m') : m'.HasShape indices.length cols := by
  obtain ⟨points, hpoints, rfl⟩ := Option.map_eq_some_iff.1 h
  exact ⟨(mapM_eq_some.1 hpoints).length_eq.symm, hm.cols_eq⟩

theorem HasShape.set? {i j : Nat} {x : Single} (hm : m.HasShape rows cols)
    (h : m.set? i j x = some m') : m'.HasShape rows cols := by
  rw [Matrix.set?] at h
  split at h <;> cases h
  exact ⟨hm.rows_eq, hm.cols_eq⟩

theorem HasShape.setRow? {i : Nat} {row : Point} (hm : m.HasShape rows cols)
    (h : m.setRow? i row = some m') : m'.HasShape rows cols := by
  simp only [Matrix.setRow?] at h
  split at h
  · split at h <;> cases h
    exact ⟨hm.rows_eq, hm.cols_eq⟩
  · cases h

end Shapes

/-! ## How matrices come about -/

/-- The matrices that there can be, with the shapes that the operations ask for. -/
inductive Obtainable : Nat → Nat → Matrix → Prop where
  | zeros {rows cols : Nat} {m : Matrix} (h : zeros? rows cols = some m) : Obtainable rows cols m
  | identity {n : Nat} {m : Matrix} (h : identity? n = some m) : Obtainable n n m
  | ofData {rows cols : Nat} {data : Array Single} {m : Matrix}
    (h : Matrix.ofData rows cols data = .ok m) : Obtainable rows cols m
  /-- The width is that of the first row. -/
  | ofRows {points : List Point} {m : Matrix} (h : Matrix.ofRows points = .ok m) :
    Obtainable points.length ((points.head?.map List.length).getD 0) m
  | ofJson {j : Json} {rows cols : Nat} {m : Matrix} (h : ofJson? j = some m)
    (hs : statedShape? j = some (rows, cols)) : Obtainable rows cols m
  | transpose {rows cols : Nat} {m : Matrix} (hm : Obtainable rows cols m) :
    Obtainable cols rows m.transpose
  | mul {rows inner inner' cols : Nat} {a b m : Matrix} (ha : Obtainable rows inner a)
    (hb : Obtainable inner' cols b) (h : a.mul? b = some (.ok m)) : Obtainable rows cols m
  | columnBlock {rows cols start width : Nat} {m m' : Matrix} (hm : Obtainable rows cols m)
    (h : m.columnBlock? start width = some (.ok m')) : Obtainable rows width m'
  | selectRows {rows cols : Nat} {indices : List Nat} {m m' : Matrix} (hm : Obtainable rows cols m)
    (h : m.selectRows? indices = some m') : Obtainable indices.length cols m'
  | set {rows cols i j : Nat} {x : Single} {m m' : Matrix} (hm : Obtainable rows cols m)
    (h : m.set? i j x = some m') : Obtainable rows cols m'
  | setRow {rows cols i : Nat} {row : Point} {m m' : Matrix} (hm : Obtainable rows cols m)
    (h : m.setRow? i row = some m') : Obtainable rows cols m'

/-- **Every operation keeps to the shape that is asked for**, in whatever sequence they come. -/
theorem Obtainable.hasShape {rows cols : Nat} {m : Matrix} (h : Obtainable rows cols m) :
    m.HasShape rows cols := by
  induction h with
  | zeros h => exact hasShape_of_zeros? h
  | identity h => exact hasShape_of_identity? h
  | ofData h => exact hasShape_of_ofData h
  | ofRows h => exact hasShape_of_ofRows h
  | ofJson h hs => exact hasShape_of_ofJson? h hs
  | transpose _ ih => exact ih.transpose
  | mul _ _ h iha ihb => exact iha.mul? ihb h
  | columnBlock _ h ih => exact ih.columnBlock? h
  | selectRows _ h ih => exact ih.selectRows? h
  | set _ h ih => exact ih.set? h
  | setRow _ h ih => exact ih.setRow? h

/-- What a matrix of a given shape presents to whoever looks at its rows. -/
structure Presents (m : Matrix) (rows cols : Nat) : Prop extends m.HasShape rows cols where
  size_data : m.data.size = rows * cols
  /-- Every row is found at its place. -/
  exists_row : ∀ i, i < rows → ∃ row, m.row? i = some row ∧ row.length = cols
  /-- Several threads are given the same rows as one. -/
  chunked : m.chunkedRows = m.listedRows
  /-- With columns, or without rows, all rows are listed in their order. -/
  listed : cols ≠ 0 ∨ rows = 0 →
    m.listedRows.length = rows ∧ ∀ i, i < rows → m.listedRows[i]? = m.row? i
  /-- Without columns there is nothing to go through. -/
  listed_nil : cols = 0 → m.listedRows = []

theorem HasShape.presents {m : Matrix} {rows cols : Nat} (h : m.HasShape rows cols) :
    m.Presents rows cols := by
  obtain ⟨rfl, rfl⟩ := h
  constructor
  case toHasShape => exact ⟨rfl, rfl⟩
  case size_data => exact m.size_eq
  case exists_row => exact fun i hi => ⟨_, m.row?_eq ⟨i, hi⟩, length_rowAt m ⟨i, hi⟩⟩
  case chunked => rw [chunkedRows_eq, listedRows_eq]
  case listed =>
    intro hfull
    rw [listedRows_eq, toRows_eq_map hfull]
    refine ⟨by simp, fun i hi => ?_⟩
    rw [m.row?_eq ⟨i, hi⟩]
    simp [hi]
  case listed_nil =>
    intro hc
    rw [listedRows_eq, toRows, if_pos hc]

end Matrix
end ProductQuantization
