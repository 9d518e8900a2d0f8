import ProductQuantization.Matrix.Basic
import ProductQuantization.Proofs.Outcome

/-!
# Rows of a matrix

A matrix is stored as one buffer, and the library looks at it in three ways: entry by entry, row by
row, and as a list of rows.  This file says how the three go together, for the buffer itself and for
the matrices that are built from entries, from rows, or from a block of columns.

`slice_flatMap` is the fact underneath: in a list that is made of pieces of one width, what lies
inside a piece is found at the place of the piece plus the place inside it.
-/

set_option autoImplicit false

namespace ProductQuantization

/-! ## Slices of a list made of equal pieces -/

theorem length_flatMap_of_length {α β : Type} {f : α → List β} {width : Nat} {xs : List α}
    (h : ∀ x ∈ xs, (f x).length = width) : (xs.flatMap f).length = xs.length * width := by
  induction xs with
  | nil => simp
  | cons x xs ih =>
    rw [List.flatMap_cons, List.length_append, h x List.mem_cons_self,
      ih fun y hy => h y (List.mem_cons_of_mem _ hy), List.length_cons, Nat.succ_mul, Nat.add_comm]

/-- A slice that lies inside piece `i`. -/
theorem slice_flatMap {α β : Type} {f : α → List β} {width : Nat} {xs : List α}
    (h : ∀ x ∈ xs, (f x).length = width) {i : Nat} (hi : i < xs.length) {start count : Nat}
    (hs : start + count ≤ width) :
    ((xs.flatMap f).drop (i * width + start)).take count
      = ((f xs[i]).drop start).take count := by
  induction xs generalizing i with
  | nil => cases hi
  | cons x xs ih =>
    have hx : (f x).length = width := h x List.mem_cons_self
    cases i with
    | zero =>
      rw [List.flatMap_cons, Nat.zero_mul, Nat.zero_add, List.getElem_cons_zero,
        List.drop_append_of_le_length (by omega),
        List.take_append_of_le_length (by rw [List.length_drop]; omega)]
    | succ i =>
      have hd : (i + 1) * width + start = (f x).length + (i * width + start) := by
        rw [hx, Nat.succ_mul]
        omega
      rw [List.flatMap_cons, hd, List.drop_length_add_append, List.getElem_cons_succ]
      exact ih (fun y hy => h y (List.mem_cons_of_mem _ hy)) (Nat.lt_of_succ_lt_succ hi)

/-- A list is made of its slices. -/
theorem flatMap_slices {α : Type} {count width : Nat} {xs : List α}
    (h : xs.length = count * width) :
    (List.range count).flatMap (fun i => (xs.drop (i * width)).take width) = xs := by
  induction count generalizing xs with
  | zero => simpa [eq_comm] using h
  | succ count ih =>
    have hrest : (xs.drop width).length = count * width := by
      rw [List.length_drop, h, Nat.succ_mul, Nat.add_sub_cancel]
    have hslices : ∀ i, xs.drop ((i + 1) * width) = (xs.drop width).drop (i * width) := fun i => by
      rw [List.drop_drop, Nat.succ_mul, Nat.add_comm]
    rw [List.range_succ_eq_map, List.flatMap_cons, List.flatMap_map]
    simp only [Nat.succ_eq_add_one, hslices, ih hrest, Nat.zero_mul, List.drop_zero,
      List.take_append_drop]

namespace Matrix

/-! ## Entries and rows -/

theorem eq_of_data_eq {a b : Matrix} (hr : a.rows = b.rows) (hc : a.cols = b.cols)
    (hd : a.data = b.data) : a = b := by
  cases a
  cases b
  cases hr
  cases hc
  cases hd
  rfl

@[simp] theorem length_rowAt (m : Matrix) (i : Fin m.rows) : (m.rowAt i).length = m.cols :=
  List.length_ofFn

theorem getElem?_flat (m : Matrix) (i : Fin m.rows) (j : Fin m.cols) :
    m.data.toList[i.val * m.cols + j.val]? = some (m.entry i j) := by
  have h : i.val * m.cols + j.val < m.data.size := m.size_eq ▸ flat_lt i.isLt j.isLt
  rw [Array.getElem?_toList, Array.getElem?_eq_getElem h]
  rfl

theorem get?_eq_entry (m : Matrix) (i : Fin m.rows) (j : Fin m.cols) :
    m.get? i j = some (m.entry i j) := by
  rw [get?, ← Array.getElem?_toList]
  exact getElem?_flat m i j

/-- A row is a slice of the buffer. -/
theorem rowAt_eq_slice (m : Matrix) (i : Fin m.rows) :
    m.rowAt i = (m.data.toList.drop (i.val * m.cols)).take m.cols := by
  have hlen : (i.val + 1) * m.cols ≤ m.data.toList.length := by
    rw [Array.length_toList, m.size_eq]
    exact Nat.mul_le_mul_right _ i.isLt
  rw [Nat.succ_mul] at hlen
  refine List.ext_getElem ?_ fun j h1 h2 => ?_
  · rw [length_rowAt, List.length_take, List.length_drop]
    omega
  · have h := getElem?_flat m i ⟨j, by simpa using h1⟩
    rw [List.getElem?_eq_getElem (by rw [length_rowAt] at h1; omega), Option.some_inj] at h
    rw [List.getElem_take, List.getElem_drop, h]
    simp [rowAt]

@[simp] theorem bufferRow_data (m : Matrix) (i : Fin m.rows) :
    bufferRow m.data m.cols i = m.rowAt i := by
  rw [rowAt_eq_slice, bufferRow, Array.toList_extract, List.extract_eq_take_drop, Nat.succ_mul,
    Nat.add_sub_cancel_left]

/-- A row that is looked up. -/
theorem row?_eq (m : Matrix) (i : Fin m.rows) : m.row? i = some (m.rowAt i) := by
  have hle : (i.val + 1) * m.cols ≤ m.data.size := m.size_eq ▸ Nat.mul_le_mul_right _ i.isLt
  rw [row?, if_pos hle, bufferRow_data]

/-- The buffer is the rows, one after the other. -/
theorem flatten_rowAt (m : Matrix) : (List.ofFn m.rowAt).flatten = m.data.toList := by
  have hlen : m.data.toList.length = m.rows * m.cols := by rw [Array.length_toList, m.size_eq]
  rw [← flatMap_slices hlen, List.flatMap_def]
  congr 1
  refine List.ext_getElem (by simp) fun i h1 h2 => ?_
  simp [rowAt_eq_slice]

theorem toRows_eq {m : Matrix} (h : m.cols ≠ 0) : m.toRows = List.ofFn m.rowAt := if_neg h

theorem length_toRows {m : Matrix} (h : m.cols ≠ 0) : m.toRows.length = m.rows := by
  rw [toRows_eq h, List.length_ofFn]

/-- The list by indices, if there are columns or there is nothing to list. -/
theorem toRows_eq_map {m : Matrix} (h : m.cols ≠ 0 ∨ m.rows = 0) :
    m.toRows = (List.finRange m.rows).map m.rowAt := by
  rw [toRows, List.finRange, List.map_ofFn]
  split
  · rename_i hc
    exact (List.ofFn_eq_nil_iff.2 (h.resolve_left (not_not_intro hc))).symm
  · rfl

theorem getElem_toRows {m : Matrix} (h : m.cols ≠ 0) {i : Nat} (hi : i < m.toRows.length) :
    m.toRows[i] = m.rowAt ⟨i, length_toRows h ▸ hi⟩ := by
  simp only [toRows_eq h, List.getElem_ofFn]

theorem getElem?_toRows {m : Matrix} (h : m.cols ≠ 0) (i : Fin m.rows) :
    m.toRows[i.val]? = some (m.rowAt i) := by
  have hi : i.val < m.toRows.length := by rw [length_toRows h]; exact i.isLt
  rw [List.getElem?_eq_getElem hi, getElem_toRows h]

theorem length_of_mem_toRows {m : Matrix} {row : Point} (h : row ∈ m.toRows) :
    row.length = m.cols := by
  rw [toRows] at h
  split at h
  · cases h
  · obtain ⟨i, rfl⟩ := List.mem_ofFn.1 h
    exact length_rowAt m i

/-! ## Matrices made from entries -/

@[simp] theorem rows_ofFn (rows cols : Nat) (f : Fin rows → Fin cols → Single) :
    (ofFn rows cols f).rows = rows := rfl

@[simp] theorem cols_ofFn (rows cols : Nat) (f : Fin rows → Fin cols → Single) :
    (ofFn rows cols f).cols = cols := rfl

theorem entry_ofFn {rows cols : Nat} (f : Fin rows → Fin cols → Single) {i j : Nat}
    (hi : i < (ofFn rows cols f).rows) (hj : j < (ofFn rows cols f).cols) :
    (ofFn rows cols f).entry ⟨i, hi⟩ ⟨j, hj⟩ = f ⟨i, hi⟩ ⟨j, hj⟩ := by
  have hj' : j < cols := hj
  have hdiv : (i * cols + j) / cols = i := by
    rw [Nat.mul_comm, Nat.mul_add_div (Nat.zero_lt_of_lt hj'), Nat.div_eq_of_lt hj', Nat.add_zero]
  have hmod : (i * cols + j) % cols = j := by
    rw [Nat.mul_comm, Nat.mul_add_mod, Nat.mod_eq_of_lt hj']
  simp only [entry, ofFn, Array.getElem_ofFn]
  exact congrArg₂ f (Fin.ext hdiv) (Fin.ext hmod)

theorem rowAt_ofFn {rows cols : Nat} (f : Fin rows → Fin cols → Single) {i : Nat}
    (hi : i < (ofFn rows cols f).rows) :
    (ofFn rows cols f).rowAt ⟨i, hi⟩ = List.ofFn (f ⟨i, hi⟩) :=
  congrArg List.ofFn (funext fun j => entry_ofFn f hi j.isLt)

theorem toRows_ofFn {n d : Nat} (hd : d ≠ 0) (f : Fin n → Fin d → Single) :
    (ofFn n d f).toRows = (List.finRange n).map fun r => List.ofFn (f r) := by
  rw [toRows_eq hd, List.finRange, List.map_ofFn]
  exact congrArg List.ofFn (funext fun r => rowAt_ofFn f r.isLt)

/-! ## Matrices made from rows -/

@[simp] theorem rows_stack (cols : Nat) (rows : List Point) : (stack cols rows).rows = rows.length :=
  rfl

@[simp] theorem cols_stack (cols : Nat) (rows : List Point) : (stack cols rows).cols = cols := rfl

theorem fitTo_eq_self {cols : Nat} {row : Point} (h : row.length = cols) : fitTo cols row = row := by
  simp [fitTo, h, List.take_of_length_le (Nat.le_of_eq h)]

theorem rowAt_stack {cols : Nat} {rows : List Point} {i : Nat} (hi : i < (stack cols rows).rows) :
    (stack cols rows).rowAt ⟨i, hi⟩ = fitTo cols (rows.get ⟨i, hi⟩) := by
  have h : ((rows.flatMap (fitTo cols)).drop (i * cols + 0)).take cols
      = ((fitTo cols (rows.get ⟨i, hi⟩)).drop 0).take cols :=
    slice_flatMap (fun row _ => length_fitTo cols row) hi (by omega)
  rw [rowAt_eq_slice]
  exact h.trans (List.take_of_length_le (Nat.le_of_eq (length_fitTo cols _)))

/-- The rows of a stack of rows of the right width. -/
theorem toRows_stack {cols : Nat} (h : cols ≠ 0) {rows : List Point}
    (hw : ∀ row ∈ rows, row.length = cols) : (stack cols rows).toRows = rows := by
  have hc : (stack cols rows).cols ≠ 0 := h
  refine List.ext_getElem (length_toRows hc) fun i h1 h2 => ?_
  rw [getElem_toRows hc, rowAt_stack]
  exact fitTo_eq_self (hw _ (List.getElem_mem h2))

/-- Two matrices with the same rows are the same. -/
theorem ext_rowAt {a b : Matrix} (hr : a.rows = b.rows) (hc : a.cols = b.cols)
    (h : ∀ (i : Nat) (ha : i < a.rows) (hb : i < b.rows), a.rowAt ⟨i, ha⟩ = b.rowAt ⟨i, hb⟩) :
    a = b := by
  refine eq_of_data_eq hr hc (Array.ext' (List.ext_getElem ?_ fun k h1 h2 => ?_))
  · rw [Array.length_toList, Array.length_toList, a.size_eq, b.size_eq, hr, hc]
  · have hk : k < a.rows * a.cols := by simpa [a.size_eq] using h1
    have hcol : 0 < a.cols := Nat.pos_of_ne_zero fun h0 => by simp [h0] at hk
    have hi : k / a.cols < a.rows := row_of_flat_lt ⟨k, hk⟩
    have hj : k % a.cols < a.cols := Nat.mod_lt _ hcol
    have hflat : k / a.cols * a.cols + k % a.cols = k := Nat.div_add_mod' k a.cols
    have hrow := congrArg (fun row : Point => row[k % a.cols]?) (h (k / a.cols) hi (hr ▸ hi))
    simp only [rowAt_eq_slice, ← hc, List.getElem?_take_of_lt hj, List.getElem?_drop,
      hflat] at hrow
    rwa [List.getElem?_eq_getElem h1, List.getElem?_eq_getElem h2, Option.some_inj] at hrow

/-- A matrix is made from its entries. -/
theorem ofFn_entry (m : Matrix) : ofFn m.rows m.cols m.entry = m :=
  ext_rowAt rfl rfl fun _ ha _ => rowAt_ofFn m.entry ha

/-- Every matrix is made from its entries. -/
theorem exists_ofFn {m : Matrix} {n d : Nat} (hr : n = m.rows) (hc : d = m.cols) :
    ∃ f : Fin n → Fin d → Single, m = .ofFn n d f := by
  subst hr hc
  exact ⟨m.entry, m.ofFn_entry.symm⟩

/-- A matrix is its rows one below the other. -/
theorem stack_toRows {m : Matrix} (h : m.cols ≠ 0) : stack m.cols m.toRows = m := by
  refine ext_rowAt (length_toRows h) rfl fun i ha hb => ?_
  rw [rowAt_stack, List.get_eq_getElem, getElem_toRows h]
  exact fitTo_eq_self (length_rowAt m ⟨i, hb⟩)

/-! ## Blocks of columns -/

/-- The components of a vector from `start` on, `width` of them. -/
def window (start width : Nat) (row : Point) : Point := (row.drop start).take width

/-- What a block of columns is. -/
structure IsBlock (m : Matrix) (start width : Nat) (block : Matrix) : Prop where
  rows_eq : block.rows = m.rows
  cols_eq : block.cols = width
  rowAt_eq : ∀ (i : Nat) (hi : i < m.rows) (hb : i < block.rows),
    block.rowAt ⟨i, hb⟩ = window start width (m.rowAt ⟨i, hi⟩)

theorem isBlock_of_columnBlock {m block : Matrix} {start width : Nat}
    (h : m.columnBlock start width = .ok block) : m.IsBlock start width block := by
  rw [columnBlock] at h
  split at h
  · rename_i hs
    cases h
    refine ⟨rfl, rfl, fun i hi hb => ?_⟩
    rw [rowAt_ofFn]
    refine List.ext_getElem ?_ fun j h1 h2 => ?_
    · simp only [window, List.length_ofFn, List.length_take, List.length_drop, length_rowAt]
      omega
    · simp [window, rowAt]
  · cases h

theorem exists_columnBlock {m : Matrix} {start width : Nat} (h : start + width ≤ m.cols) :
    ∃ block, m.columnBlock start width = .ok block := by
  rw [columnBlock, dif_pos h]
  exact ⟨_, rfl⟩

/-- The rows of a block are the windows of the rows. -/
theorem IsBlock.toRows_eq {m block : Matrix} {start width : Nat} (h : m.IsBlock start width block)
    (hw : width ≠ 0) (hm : m.cols ≠ 0) : block.toRows = m.toRows.map (window start width) := by
  have hb : block.cols ≠ 0 := h.cols_eq ▸ hw
  refine List.ext_getElem ?_ fun i h1 h2 => ?_
  · rw [List.length_map, length_toRows hb, length_toRows hm, h.rows_eq]
  · rw [List.getElem_map, getElem_toRows hb, getElem_toRows hm]
    exact h.rowAt_eq i _ _

/-! ## Products and distances -/

theorem rowAt_transpose (m : Matrix) (j : Fin m.cols) : m.transpose.rowAt j = m.colAt j :=
  rowAt_ofFn (fun j i => m.entry i j) j.isLt

theorem mul_eq_ok {a b c : Matrix} (h : a.mul b = .ok c) :
    a.cols = b.rows ∧ c.rows = a.rows ∧ c.cols = b.cols := by
  rw [mul] at h
  split at h
  · rename_i hshape
    refine ⟨hshape, ?_⟩
    split at h <;> cases h <;> exact ⟨rfl, rfl⟩
  · cases h

/-- The product entry by entry; a matrix without entries has nothing to multiply. -/
theorem mul_eq {a b : Matrix} (h : a.cols = b.rows) :
    a.mul b = .ok (ofFn a.rows b.cols fun i j => dotProduct (a.rowAt i) (b.colAt j)) := by
  rw [mul, if_pos h]
  split
  · rename_i hempty
    have hnone : a.rows * b.cols = 0 := Nat.mul_eq_zero.2 hempty
    refine congrArg Except.ok (eq_of_data_eq rfl rfl ?_)
    rw [Array.eq_empty_of_size_eq_zero ((zeros a.rows b.cols).size_eq.trans hnone),
      Array.eq_empty_of_size_eq_zero ((ofFn a.rows b.cols _).size_eq.trans hnone)]
  · -- the columns are read from the transpose with the width of the rows on the left
    have hcol : ∀ j : Fin b.cols, bufferRow b.transpose.data a.cols j = b.colAt j := fun j => by
      rw [h, ← rowAt_transpose]
      exact bufferRow_data b.transpose j
    simp only [Fin.getElem_fin, Vector.getElem_ofFn, bufferRow_data, hcol]

theorem exists_mul {a b : Matrix} (h : a.cols = b.rows) : ∃ c, a.mul b = .ok c := ⟨_, mul_eq h⟩

theorem exists_squaredDistance {a b : Matrix} (hr : a.rows = b.rows) (hc : a.cols = b.cols) :
    ∃ d, a.squaredDistance b = .ok d := by
  rw [squaredDistance, if_pos ⟨hr, hc⟩]
  exact ⟨_, rfl⟩

end Matrix
end ProductQuantization
