import ProductQuantization.Distance
import ProductQuantization.Matrix.Error
import ProductQuantization.Number.Size

/-!
# Matrices

A `Matrix` is a row-major buffer of stored numbers together with its shape, and the shape is a
proof: the buffer holds exactly `rows * cols` of them.  A dataset of `n` vectors of dimension `d` is
`n` by `d`; a rotation is `d` by `d`.

There are two ways in.  `m.entry i j` and `m.rowAt i` take indices that are in range by their type
and always answer; everything the library computes goes through them.  `m.get? i j`, `m.row? i` and
their companions for writing take any index and answer when the place it stands for in the buffer
exists.  They look at the place only, so in a matrix with five columns the entry `(0, 7)` is the
entry `(1, 2)`.

`toRows` lists the rows.  A matrix without columns has nothing in its buffer that could tell its
rows apart, and lists none of them.

Buffers are limited: `2 ^ 63 - 1` bytes is the most that can be asked for, at four bytes a number.
-/

set_option autoImplicit false

namespace ProductQuantization

/-- A dense row-major matrix of stored numbers. -/
structure Matrix where
  rows : Nat
  cols : Nat
  /-- Row `i` occupies the places from `i * cols` up to `(i + 1) * cols`. -/
  data : Array Single
  size_eq : data.size = rows * cols

namespace Matrix

/-! ## Building -/

theorem flat_lt {rows cols i j : Nat} (hi : i < rows) (hj : j < cols) :
    i * cols + j < rows * cols :=
  calc i * cols + j < i * cols + cols := Nat.add_lt_add_left hj _
    _ = (i + 1) * cols := (Nat.succ_mul i cols).symm
    _ ≤ rows * cols := Nat.mul_le_mul_right cols hi

theorem row_of_flat_lt {rows cols : Nat} (k : Fin (rows * cols)) : k.val / cols < rows :=
  Nat.div_lt_of_lt_mul (Nat.mul_comm rows cols ▸ k.isLt)

theorem col_of_flat_lt {rows cols : Nat} (k : Fin (rows * cols)) : k.val % cols < cols :=
  Nat.mod_lt _ (Nat.pos_of_ne_zero fun h => by have := k.isLt; simp [h] at this)

/-- The matrix whose entries are given by a function. -/
def ofFn (rows cols : Nat) (f : Fin rows → Fin cols → Single) : Matrix where
  rows := rows
  cols := cols
  data := Array.ofFn fun k : Fin (rows * cols) =>
    f ⟨k.val / cols, row_of_flat_lt k⟩ ⟨k.val % cols, col_of_flat_lt k⟩
  size_eq := by simp

/-- All zeros. -/
def zeros (rows cols : Nat) : Matrix where
  rows := rows
  cols := cols
  data := Array.replicate (rows * cols) .zero
  size_eq := by simp

/-- Whether a buffer of so many numbers can be had at all. -/
def fits (count : Nat) : Bool := count * 4 < wordValues 63

/-- All zeros, if the buffer can be had.  The number of entries does not wrap around: a shape with
more of them than a sixty-four-bit word can say has no matrix, since no buffer would fill it. -/
def zeros? (rows cols : Nat) : Option Matrix :=
  if fits (rows * cols) then some (zeros rows cols) else none

/-- The `n` by `n` identity. -/
def identity (n : Nat) : Matrix := ofFn n n fun i j => if i = j then .one else .zero

/-- The `n` by `n` identity, if the buffer can be had. -/
def identity? (n : Nat) : Option Matrix := if fits (n * n) then some (identity n) else none

/-- A buffer with a shape put on it. -/
def ofData (rows cols : Nat) (data : Array Single) : Except MatrixError Matrix :=
  if h : data.size = rows * cols then .ok ⟨rows, cols, data, h⟩
  else .error (.lengthMismatch rows cols data.size)

/-- A row made to have `cols` components: zeros are appended, or the excess is cut off. -/
def fitTo (cols : Nat) (row : Point) : Point :=
  row.take cols ++ List.replicate (cols - row.length) .zero

theorem length_fitTo (cols : Nat) (row : Point) : (fitTo cols row).length = cols := by
  simp only [fitTo, List.length_append, List.length_take, List.length_replicate]
  omega

theorem length_flatMap_fitTo (cols : Nat) (rows : List Point) :
    (rows.flatMap (fitTo cols)).length = rows.length * cols := by
  induction rows with
  | nil => simp
  | cons row rows ih => simp [ih, length_fitTo, Nat.succ_mul, Nat.add_comm]

/-- The rows one below the other, each made to have `cols` components. -/
def stack (cols : Nat) (rows : List Point) : Matrix where
  rows := rows.length
  cols := cols
  data := (rows.flatMap (fitTo cols)).toArray
  size_eq := by simpa using length_flatMap_fitTo cols rows

/-- The rows one below the other.  Each must be as wide as the first. -/
def ofRows (rows : List Point) : Except MatrixError Matrix :=
  let cols := (rows.head?.map List.length).getD 0
  match rows.zipIdx.find? fun (row, _) => row.length ≠ cols with
  | some (row, i) => .error (.raggedRow i cols row.length)
  | none => .ok (stack cols rows)

/-! ## Looking -/

/-- Whether there is no entry. -/
def isEmpty (m : Matrix) : Bool := m.rows = 0 || m.cols = 0

/-- The entry in row `i` and column `j`. -/
def entry (m : Matrix) (i : Fin m.rows) (j : Fin m.cols) : Single :=
  have : i.val * m.cols + j.val < m.data.size := m.size_eq ▸ flat_lt i.isLt j.isLt
  m.data[i.val * m.cols + j.val]

/-- Row `i`. -/
def rowAt (m : Matrix) (i : Fin m.rows) : Point := List.ofFn fun j => m.entry i j

/-- Column `j`. -/
def colAt (m : Matrix) (j : Fin m.cols) : Point := List.ofFn fun i => m.entry i j

/-- The rows in order; none if there are no columns. -/
def toRows (m : Matrix) : List Point :=
  if m.cols = 0 then [] else List.ofFn fun i => m.rowAt i

/-- The rows in order, each with its index; none if there are no columns. -/
def indexedRows (m : Matrix) : List (Fin m.rows × Point) :=
  if m.cols = 0 then [] else List.ofFn fun i => (i, m.rowAt i)

/-- The number at the place that `(i, j)` stands for. -/
def get? (m : Matrix) (i j : Nat) : Option Single := m.data[i * m.cols + j]?

/-- The numbers at the places of row `i` in a buffer whose rows have `cols` components. -/
def bufferRow (buffer : Array Single) (cols i : Nat) : Point :=
  (buffer.extract (i * cols) ((i + 1) * cols)).toList

/-- The numbers at the places of row `i`. -/
def row? (m : Matrix) (i : Nat) : Option Point :=
  if (i + 1) * m.cols ≤ m.data.size then some (bufferRow m.data m.cols i) else none

/-- Equality of numbers throughout: the two zeros are equal, and not-a-number equals nothing. -/
def sameValues (a b : Matrix) : Bool :=
  a.rows = b.rows && a.cols = b.cols &&
    (a.data.toList.zip b.data.toList).all fun (x, y) => x.sameValue y

/-! ## Changing -/

/-- Put a number at the place that `(i, j)` stands for. -/
def set? (m : Matrix) (i j : Nat) (x : Single) : Option Matrix :=
  if h : i * m.cols + j < m.data.size then
    some { m with
      data := m.data.set (i * m.cols + j) x h
      size_eq := by rw [Array.size_set, m.size_eq] }
  else none

/-- Overwrite row `i` by a row of the same width. -/
def setRow? (m : Matrix) (i : Nat) (row : Point) : Option Matrix :=
  if (i + 1) * m.cols ≤ m.data.size ∧ row.length = m.cols then
    let data := m.data.extract 0 (i * m.cols) ++ row.toArray ++
      m.data.extract ((i + 1) * m.cols) m.data.size
    if h : data.size = m.rows * m.cols then some ⟨m.rows, m.cols, data, h⟩ else none
  else none

/-- Apply a function to every entry. -/
def mapEntries (m : Matrix) (f : Single → Single) : Matrix where
  rows := m.rows
  cols := m.cols
  data := m.data.map f
  size_eq := by rw [Array.size_map, m.size_eq]

/-! ## Combining -/

/-- Rows become columns. -/
def transpose (m : Matrix) : Matrix := ofFn m.cols m.rows fun j i => m.entry i j

/-- The matrix product: entry `(i, j)` is the inner product of row `i` on the left and column `j` on
the right.  The columns lie one after the other in the buffer of the transpose.  Rows and columns
are taken out once each, and only if there is an entry. -/
def mul (a b : Matrix) : Except MatrixError Matrix :=
  if a.cols = b.rows then
    if a.rows = 0 ∨ b.cols = 0 then .ok (zeros a.rows b.cols)
    else
      let columns := b.transpose
      let left := Vector.ofFn fun i : Fin a.rows => bufferRow a.data a.cols i
      let right := Vector.ofFn fun j : Fin b.cols => bufferRow columns.data a.cols j
      .ok <| ofFn a.rows b.cols fun i j => dotProduct left[i] right[j]
  else .error (.incompatibleShapes a.rows a.cols b.rows b.cols)

/-- The matrix product, if a buffer can be had for it. -/
def mul? (a b : Matrix) : Option (Except MatrixError Matrix) :=
  if a.cols = b.rows && !fits (a.rows * b.cols) then none else some (a.mul b)

/-- The columns from `start` on, `width` of them, as a matrix of its own. -/
def columnBlock (m : Matrix) (start width : Nat) : Except MatrixError Matrix :=
  if h : start + width ≤ m.cols then
    .ok <| ofFn m.rows width fun i j => m.entry i ⟨start + j.val, by omega⟩
  else .error (.columnRange start (start + width) m.cols)

/-- The same, if the number of the column after the last one is a sixty-four-bit word. -/
def columnBlock? (m : Matrix) (start width : Nat) : Option (Except MatrixError Matrix) :=
  if start + width < wordValues 64 then some (m.columnBlock start width) else none

/-- The rows with the given indices, in the given order. -/
def selectRows (m : Matrix) (indices : List (Fin m.rows)) : Matrix :=
  stack m.cols (indices.map m.rowAt)

/-- The rows at the given places, in the given order. -/
def selectRows? (m : Matrix) (indices : List Nat) : Option Matrix :=
  (indices.mapM m.row?).map (stack m.cols)

/-- The sum of the squared differences of all entries, in double precision.  Between a dataset and
its reconstruction this is the distortion. -/
def squaredDistance (a b : Matrix) : Except MatrixError Float :=
  if a.rows = b.rows ∧ a.cols = b.cols then .ok (squaredDistance64 a.data.toList b.data.toList)
  else .error (.incompatibleShapes a.rows a.cols b.rows b.cols)

end Matrix
end ProductQuantization
