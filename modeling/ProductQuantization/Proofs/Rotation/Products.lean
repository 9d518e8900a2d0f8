import ProductQuantization.Proofs.Distance
import ProductQuantization.Proofs.Number.Scaling
import ProductQuantization.Rotation.Train

/-!
# Products and transposes

An entry of a product is the inner product of a row and a column, and in the product of the
transposes the same row and column meet in the other order.  Numbers can be multiplied in either
order, and so can vectors, as long as only numbers come in.  An operation on something that is not a
number keeps the bits of its first such operand, and these depend on the order.  So the transpose of
a product is the product of the transposes up to the bits of what is not a number
(`sameNumbers_transpose_mul`), and rotating back by the transpose is the transpose of a product with
the rotation itself.

`Matrix.product_laws` has these laws in one place, for matrices of any shape, those without rows or
columns included.  A product needs a buffer, and a matrix without columns and one without rows may be
so large that there is none for their product (`product_laws_limits`).
-/

set_option autoImplicit false

namespace ProductQuantization

/-! ## The same number -/

namespace Single

/-- The same bits, unless neither is a number. -/
def SameNumber (x y : Single) : Prop := x = y ∨ x.isNaN = true ∧ y.isNaN = true

namespace SameNumber

variable {x x' y y' : Single}

theorem refl (x : Single) : x.SameNumber x := .inl rfl

/-- An operation gives the same number for the same numbers. -/
theorem lift (op : Float32 → Float32 → Float32) (hx : x.SameNumber x') (hy : y.SameNumber y') :
    (lift op x y).SameNumber (Single.lift op x' y') := by
  obtain rfl | ⟨hx, hx'⟩ := hx
  · obtain rfl | ⟨hy, hy'⟩ := hy
    · exact refl _
    · exact .inr ⟨isNaN_lift (.inr hy), isNaN_lift (.inr hy')⟩
  · exact .inr ⟨isNaN_lift (.inl hx), isNaN_lift (.inl hx')⟩

theorem add (hx : x.SameNumber x') (hy : y.SameNumber y') : (x + y).SameNumber (x' + y') :=
  lift (· + ·) hx hy

end SameNumber

/-- Factors can be exchanged. -/
theorem sameNumber_mul_comm (x y : Single) : (x * y).SameNumber (y * x) := by
  by_cases h : x.isNaN = true ∨ y.isNaN = true
  · exact .inr ⟨isNaN_lift h, isNaN_lift h.symm⟩
  · simp only [not_or, Bool.not_eq_true] at h
    have hvalues : x.value * y.value = y.value * x.value :=
      congrArg (fun u => Float32.ofModel (.pack u)) (Unpacked.mul_comm _ _ _)
    have heq : Single.lift (· * ·) x y = Single.lift (· * ·) y x := by
      simp only [Single.lift, h.1, h.2, Bool.false_eq_true, if_false, hvalues]
    exact .inl heq

end Single

/-- **Inner products do not depend on the order of the vectors.** -/
theorem sameNumber_dotProduct_comm (x y : Point) :
    (dotProduct x y).SameNumber (dotProduct y x) := by
  rw [dotProduct, dotProduct, pairUp_swap x y, List.map_map]
  refine laneSum_rel (.refl _) .add ?_
  rw [List.forall₂_map_left_iff, List.forall₂_map_right_iff, List.forall₂_same]
  exact fun p _ => Single.sameNumber_mul_comm p.1 p.2

namespace Matrix

/-! ## Rows and columns of a transpose -/

theorem colAt_transpose (m : Matrix) (i : Fin m.rows) : m.transpose.colAt i = m.rowAt i :=
  congrArg List.ofFn (funext fun j => entry_ofFn (fun j i => m.entry i j) j.isLt i.isLt)

/-- The transpose of a matrix given by its entries. -/
theorem transpose_ofFn {rows cols : Nat} (f : Fin rows → Fin cols → Single) :
    (ofFn rows cols f).transpose = ofFn cols rows fun j i => f i j :=
  congrArg (ofFn cols rows) (funext₂ fun j i => entry_ofFn f i.isLt j.isLt)

/-- **Transposing twice changes nothing.** -/
theorem transpose_transpose (m : Matrix) : m.transpose.transpose = m :=
  (transpose_ofFn fun j i => m.entry i j).trans m.ofFn_entry

/-! ## The product of the transposes -/

/-- The same shape, and the same numbers in it. -/
structure SameNumbers (a b : Matrix) : Prop where
  rows_eq : a.rows = b.rows
  cols_eq : a.cols = b.cols
  entries : List.Forall₂ Single.SameNumber a.data.toList b.data.toList

theorem sameNumbers_ofFn {rows cols : Nat} {f g : Fin rows → Fin cols → Single}
    (h : ∀ i j, (f i j).SameNumber (g i j)) :
    (ofFn rows cols f).SameNumbers (ofFn rows cols g) := by
  refine ⟨rfl, rfl, ?_⟩
  rw [ofFn, ofFn, Array.toList_ofFn, Array.toList_ofFn]
  exact forall₂_ofFn fun k => h _ _

variable {a b : Matrix}

/-- **The transpose of a product is the product of the transposes**, in the other order. -/
theorem sameNumbers_transpose_mul {c : Matrix} (h : a.mul b = .ok c) :
    ∃ d, b.transpose.mul a.transpose = .ok d ∧ c.transpose.SameNumbers d := by
  have hshape := (mul_eq_ok h).1
  rw [mul_eq hshape] at h
  cases h
  refine ⟨_, mul_eq hshape.symm, ?_⟩
  rw [transpose_ofFn]
  refine sameNumbers_ofFn fun j i => ?_
  rw [rowAt_transpose, colAt_transpose]
  exact sameNumber_dotProduct_comm _ _

/-- The numbers in a product. -/
theorem get?_mul {c : Matrix} (h : a.mul b = .ok c) (i : Fin a.rows) (j : Fin b.cols) :
    c.get? i j = some (dotProduct (a.rowAt i) (b.colAt j)) := by
  rw [mul_eq (mul_eq_ok h).1] at h
  cases h
  exact (get?_eq_entry (ofFn a.rows b.cols fun i j => dotProduct (a.rowAt i) (b.colAt j)) i j).trans
    (congrArg some (entry_ofFn _ i.isLt j.isLt))

/-- Rows and columns without components have the inner product zero. -/
theorem dotProduct_of_empty (h : a.cols = b.rows) (h0 : a.cols = 0) (i : Fin a.rows)
    (j : Fin b.cols) : dotProduct (a.rowAt i) (b.colAt j) = .zero := by
  have hrow : a.rowAt i = [] := List.eq_nil_of_length_eq_zero ((length_rowAt a i).trans h0)
  have hcol : b.colAt j = [] :=
    List.eq_nil_of_length_eq_zero (List.length_ofFn.trans (h.symm.trans h0))
  rw [hrow, hcol]
  rfl

theorem mul_eq_error (h : a.cols ≠ b.rows) :
    a.mul b = .error (.incompatibleShapes a.rows a.cols b.rows b.cols) := if_neg h

/-- What is computed where there is a buffer for the product, or no product to begin with. -/
theorem mul?_eq (h : a.cols = b.rows → fits (a.rows * b.cols) = true) :
    a.mul? b = some (a.mul b) := by
  rw [mul?, if_neg]
  simpa using h

theorem mul?_eq_none (h : a.cols = b.rows) (hfits : fits (a.rows * b.cols) = false) :
    a.mul? b = none := by
  rw [mul?, if_pos]
  simp [h, hfits]

/-! ## Rotating back -/

/-- **Rotating back is a product with the rotation itself**, between two transposes. -/
theorem sameNumbers_rotateBack {q : RotatedQuantizer} {data : Matrix}
    (hsquare : q.rotation.rows = q.rotation.cols) (hdim : q.rotation.rows = data.cols) :
    ∃ p r, q.rotation.mul data.transpose = .ok p ∧ q.rotateBack data = .ok r ∧
      p.transpose.SameNumbers r := by
  obtain ⟨p, hp⟩ := exists_mul (a := q.rotation) (b := data.transpose) (hsquare.symm.trans hdim)
  obtain ⟨r, hr, hsame⟩ := sameNumbers_transpose_mul hp
  rw [transpose_transpose] at hr
  have hconforms : (q.rotation.transpose.rows = q.rotation.transpose.cols &&
      q.rotation.transpose.rows = data.cols : Bool) = true := by
    simp [transpose, ← hsquare, hdim]
  refine ⟨p, r, hp, ?_, hsame⟩
  rw [RotatedQuantizer.rotateBack, applyRotation, hconforms, Result.guard_true,
    ok_bind, hr, Result.ofMatrix_ok]

/-! ## All together -/

/-- **The laws of products and transposes**, for matrices of any shape.  There is a product exactly
if the inner sizes are the same, and it is computed if there is a buffer for it, which a product with
fewer entries than sixty-four bits can count may lack.  Its entries are the inner products of rows and
columns, all of them zero if the inner size is.  Transposing twice changes nothing, and the transpose
of a product is the product of the transposes, in the other order and up to the bits of what is not a
number.  So rotating back is a product with the rotation itself, between two transposes. -/
theorem product_laws :
    (∀ a b : Matrix, a.cols = b.rows → ∃ c, a.mul b = .ok c ∧
      (fits (a.rows * b.cols) = true → a.mul? b = some (.ok c)) ∧
      (fits (a.rows * b.cols) = false → a.rows * b.cols < wordValues 64 → a.mul? b = none) ∧
      c.rows = a.rows ∧ c.cols = b.cols ∧
      ∀ (i : Fin a.rows) (j : Fin b.cols),
        c.get? i j = some (dotProduct (a.rowAt i) (b.colAt j)) ∧
          (a.cols = 0 → c.get? i j = some .zero)) ∧
    (∀ a b : Matrix, a.cols ≠ b.rows →
      a.mul b = .error (.incompatibleShapes a.rows a.cols b.rows b.cols) ∧
      a.mul? b = some (.error (.incompatibleShapes a.rows a.cols b.rows b.cols))) ∧
    (∀ a : Matrix, a.transpose.transpose = a) ∧
    (∀ a b c : Matrix, a.mul b = .ok c → ∃ d, b.transpose.mul a.transpose = .ok d ∧
      (fits (a.rows * b.cols) = true → b.transpose.mul? a.transpose = some (.ok d)) ∧
      c.transpose.SameNumbers d) ∧
    ∀ (q : RotatedQuantizer) (data : Matrix), q.rotation.rows = q.rotation.cols →
      q.rotation.rows = data.cols → ∃ p r, q.rotation.mul data.transpose = .ok p ∧
        (fits (data.rows * data.cols) = true → q.rotation.mul? data.transpose = some (.ok p)) ∧
        q.rotateBack data = .ok r ∧ p.transpose.SameNumbers r := by
  refine ⟨fun a b h => ?_, fun a b h => ?_, transpose_transpose, fun a b c h => ?_,
    fun q data hsquare hdim => ?_⟩
  · obtain ⟨c, hc⟩ := exists_mul h
    obtain ⟨-, hr, hcols⟩ := mul_eq_ok hc
    refine ⟨c, hc, fun hfits => (mul?_eq fun _ => hfits).trans (congrArg some hc),
      fun hfits _ => mul?_eq_none h hfits, hr, hcols,
      fun i j => ⟨get?_mul hc i j, fun h0 => ?_⟩⟩
    rw [get?_mul hc i j, dotProduct_of_empty h h0]
  · have herror := mul_eq_error h
    exact ⟨herror, (mul?_eq fun h' => absurd h' h).trans (congrArg some herror)⟩
  · obtain ⟨d, hd, hsame⟩ := sameNumbers_transpose_mul h
    refine ⟨d, hd, fun hfits => (mul?_eq fun _ => ?_).trans (congrArg some hd), hsame⟩
    exact (Nat.mul_comm _ _ : b.cols * a.rows = a.rows * b.cols) ▸ hfits
  · obtain ⟨p, r, hp, hr, hsame⟩ := sameNumbers_rotateBack hsquare hdim
    refine ⟨p, r, hp, fun hfits => (mul?_eq fun _ => ?_).trans (congrArg some hp), hr, hsame⟩
    rw [hdim]
    exact (Nat.mul_comm _ _ : data.cols * data.rows = data.rows * data.cols) ▸ hfits

/-- Two numbers that are none: the product keeps the bits of the first, which is the second in the
product of the transposes.  A point in the plane is rotated back, and no product is left over. -/
theorem product_laws_bits : ∃ c d p r,
    (stack 1 [[⟨0x7fc00001⟩]]).mul? (stack 1 [[⟨0x7fc00002⟩]]) = some (.ok c) ∧
    (stack 1 [[⟨0x7fc00002⟩]]).transpose.mul? (stack 1 [[⟨0x7fc00001⟩]]).transpose = some (.ok d) ∧
    c.get? 0 0 = some ⟨0x7fc00001⟩ ∧ d.get? 0 0 = some ⟨0x7fc00002⟩ ∧ c.transpose.SameNumbers d ∧
    (stack 2 [[.zero, .one], [.one, .zero]]).mul? (stack 2 [[.one, .zero]]).transpose
      = some (.ok p) ∧
    RotatedQuantizer.rotateBack ⟨stack 2 [[.zero, .one], [.one, .zero]], ⟨1, 1, 2, 2, #[]⟩,
      ⟨0, 1, #[]⟩, []⟩ (stack 2 [[.one, .zero]]) = .ok r ∧ p.transpose.SameNumbers r ∧
    (stack 1 [[.one]]).mul? (stack 1 [[.one], [.one]])
      = some (.error (.incompatibleShapes 1 1 2 1)) ∧
    (zeros (2 ^ 30) 0).mul? (zeros 0 (2 ^ 31)) = none := by
  obtain ⟨hproduct, herror, -, htranspose, hback⟩ := product_laws
  obtain ⟨c, hc, hcomputed, -, -, -, hcentry⟩ :=
    hproduct (stack 1 [[⟨0x7fc00001⟩]]) (stack 1 [[⟨0x7fc00002⟩]]) rfl
  obtain ⟨d, hd, hdcomputed, hsame⟩ := htranspose _ _ _ hc
  obtain ⟨d', hd', -, -, -, -, hdentry⟩ :=
    hproduct (stack 1 [[⟨0x7fc00002⟩]]).transpose (stack 1 [[⟨0x7fc00001⟩]]).transpose rfl
  cases hd.symm.trans hd'
  obtain ⟨p, r, -, hp, hr, hrotated⟩ := hback ⟨stack 2 [[.zero, .one], [.one, .zero]],
    ⟨1, 1, 2, 2, #[]⟩, ⟨0, 1, #[]⟩, []⟩ (stack 2 [[.one, .zero]]) rfl rfl
  obtain ⟨-, -, -, hnone, -⟩ := hproduct (zeros (2 ^ 30) 0) (zeros 0 (2 ^ 31)) rfl
  refine ⟨c, d, p, r, hcomputed (by decide), hdcomputed (by decide), ?_, ?_, hsame,
    hp (by decide), hr, hrotated,
    (herror (stack 1 [[.one]]) (stack 1 [[.one], [.one]]) (by decide)).2,
    hnone (by decide) (by decide)⟩
  · exact (hcentry ⟨0, by decide⟩ ⟨0, by decide⟩).1.trans (by decide +kernel)
  · exact (hdentry ⟨0, by decide⟩ ⟨0, by decide⟩).1.trans (by decide +kernel)

/-- Where the inner size is zero, a product of nothing but zeros can be too large: there is no buffer
for `2 ^ 31` rows and as many columns. -/
theorem product_laws_limits :
    ¬ ∀ a b : Matrix, a.cols = b.rows → ∃ c, a.mul? b = some (.ok c) := by
  intro h
  obtain ⟨c, hc⟩ := h (zeros (2 ^ 31) 0) (zeros 0 (2 ^ 31)) rfl
  rw [mul?_eq_none rfl (by decide)] at hc
  cases hc

end Matrix
end ProductQuantization
