import ProductQuantization.Proofs.Matrix.Rows
import ProductQuantization.Proofs.Number.SignedZero
import ProductQuantization.Proofs.SideBySide

/-!
# Matrices up to the signs of zeros

Vectors agree if their components do, and matrices agree if they have the same shape and agree entry
for entry.  Taking rows, stacking rows and cutting out columns keep agreement.

Distances do not see it: between vectors that agree they are equal, bit for bit, in both precisions
(`squaredDistance_eq`, `squaredDistance64_eq`), because they only add up squares.
-/

set_option autoImplicit false

namespace ProductQuantization

/-! ## Vectors -/

/-- The same components, up to the signs of zeros. -/
abbrev Point.Agree (x y : Point) : Prop := List.Forall₂ Single.Agree x y

theorem Point.Agree.refl (x : Point) : Point.Agree x x :=
  List.forall₂_same.2 fun _ _ => .refl _

theorem squaredDifference_eq {x x' y y' : Single} (hx : x.Agree x') (hy : y.Agree y') :
    squaredDifference x y = squaredDifference x' y' := (hx.sub hy).squared

/-- Vectors of numbers that agree are equal, component for component. -/
theorem Point.Agree.all_sameValue {x y : Point} (h : Point.Agree x y)
    (hy : ∀ b ∈ y, b.isNaN = false) : (x.zip y).all (fun (a, b) => a.sameValue b) = true := by
  rw [List.all_eq_true]
  rintro ⟨a, b⟩ hmem
  have hab := List.forall₂_zip h hmem
  exact hab.sameValue (hab.isNaN_eq.trans (hy b (List.of_mem_zip hmem).2))

section Distances

variable {x x' y y' : Point}

theorem forall₂_pairUp (hx : Point.Agree x x') (hy : Point.Agree y y') :
    List.Forall₂ (fun p p' => p.1.Agree p'.1 ∧ p.2.Agree p'.2) (pairUp x y) (pairUp x' y') := by
  have hbx : blockedLength x = blockedLength x' := by rw [blockedLength, hx.length_eq, blockedLength]
  have hby : blockedLength y = blockedLength y' := by rw [blockedLength, hy.length_eq, blockedLength]
  rw [pairUp, pairUp, ← hx.length_eq, ← hy.length_eq, ← hbx, ← hby]
  split
  · exact forall₂_zip hx hy
  · exact List.rel_append (forall₂_zip (List.forall₂_take _ hx) (List.forall₂_take _ hy))
      (forall₂_zip (List.forall₂_drop _ hx) (List.forall₂_drop _ hy))

/-- **Distances do not see the sign of a zero.** -/
theorem squaredDistance_eq (hx : Point.Agree x x') (hy : Point.Agree y y') :
    squaredDistance x y = squaredDistance x' y' :=
  congrArg laneSum <|
    map_eq_map_of_forall₂ (fun _ _ h => squaredDifference_eq h.1 h.2) (forall₂_pairUp hx hy)

theorem squaredDistance64_eq (hx : Point.Agree x x') (hy : Point.Agree y y') :
    squaredDistance64 x y = squaredDistance64 x' y' :=
  congrArg sumInOrder <|
    map_eq_map_of_forall₂ (fun _ _ h => (h.1.toFloat.sub h.2.toFloat).mul_self) (forall₂_zip hx hy)

end Distances

/-! ## Matrices -/

namespace Matrix

/-- The same shape, and the same entries up to the signs of zeros. -/
inductive Agree : Matrix → Matrix → Prop where
  | mk {rows cols : Nat} {data data' : Array Single} {h : data.size = rows * cols}
      {g : data'.size = rows * cols} (hdata : Point.Agree data.toList data'.toList) :
      Agree ⟨rows, cols, data, h⟩ ⟨rows, cols, data', g⟩

theorem agree_of_data {a b : Matrix} (hr : a.rows = b.rows) (hc : a.cols = b.cols)
    (h : Point.Agree a.data.toList b.data.toList) : a.Agree b := by
  cases a
  cases b
  cases hr
  cases hc
  exact .mk h

theorem agree_ofFn {rows cols : Nat} {f g : Fin rows → Fin cols → Single}
    (h : ∀ i j, (f i j).Agree (g i j)) : (ofFn rows cols f).Agree (ofFn rows cols g) := by
  refine agree_of_data rfl rfl ?_
  rw [ofFn, ofFn, Array.toList_ofFn, Array.toList_ofFn]
  exact forall₂_ofFn fun k => h _ _

theorem agree_fitTo {cols : Nat} {x y : Point} (h : Point.Agree x y) :
    Point.Agree (fitTo cols x) (fitTo cols y) := by
  rw [fitTo, fitTo, h.length_eq]
  exact List.rel_append (List.forall₂_take _ h) (Point.Agree.refl _)

theorem agree_stack (cols : Nat) {rows rows' : List Point} (h : List.Forall₂ Point.Agree rows rows') :
    (stack cols rows).Agree (stack cols rows') :=
  agree_of_data h.length_eq rfl (List.rel_flatMap h fun _ _ hrow => agree_fitTo hrow)

namespace Agree

variable {a b : Matrix}

theorem refl (m : Matrix) : m.Agree m := .mk (Point.Agree.refl _)

theorem rows_eq (h : a.Agree b) : a.rows = b.rows := by cases h; rfl

theorem cols_eq (h : a.Agree b) : a.cols = b.cols := by cases h; rfl

theorem data (h : a.Agree b) : Point.Agree a.data.toList b.data.toList := by
  cases h with
  | mk hdata => exact hdata

theorem rowAt (h : a.Agree b) ⦃i : Nat⦄ (ha : i < a.rows) (hb : i < b.rows) :
    Point.Agree (a.rowAt ⟨i, ha⟩) (b.rowAt ⟨i, hb⟩) := by
  rw [rowAt_eq_slice, rowAt_eq_slice, ← h.cols_eq]
  exact List.forall₂_take _ (List.forall₂_drop _ h.data)

theorem entry (h : a.Agree b) {i j : Nat} (hai : i < a.rows) (hbi : i < b.rows) (haj : j < a.cols)
    (hbj : j < b.cols) : (a.entry ⟨i, hai⟩ ⟨j, haj⟩).Agree (b.entry ⟨i, hbi⟩ ⟨j, hbj⟩) := by
  have hrow := (h.rowAt hai hbi).get (i := j) (by simpa using haj) (by simpa using hbj)
  simpa [Matrix.rowAt] using hrow

theorem toRows (h : a.Agree b) : List.Forall₂ Point.Agree a.toRows b.toRows := by
  cases h with
  | mk hdata =>
    simp only [Matrix.toRows]
    split
    · exact .nil
    · exact forall₂_ofFn fun i => (Agree.mk hdata).rowAt i.isLt i.isLt

theorem columnBlock (h : a.Agree b) (start width : Nat) :
    Alike Agree (a.columnBlock start width) (b.columnBlock start width) := by
  cases h with
  | mk hdata =>
    simp only [Matrix.columnBlock]
    split
    · exact .ok (agree_ofFn fun i j => (Agree.mk hdata).entry i.isLt i.isLt _ _)
    · exact .error _

/-- Matrices of numbers that agree are equal, entry for entry. -/
theorem sameValues (h : a.Agree b) (hb : ∀ x ∈ b.data.toList, x.isNaN = false) :
    a.sameValues b = true := by
  rw [Matrix.sameValues, decide_eq_true h.rows_eq, decide_eq_true h.cols_eq,
    h.data.all_sameValue hb]
  rfl

/-- What two matrices have lost against two others. -/
theorem squaredDistance_eq {c d : Matrix} (h : a.Agree b) (h' : c.Agree d) :
    a.squaredDistance c = b.squaredDistance d := by
  simp only [Matrix.squaredDistance, h.rows_eq, h.cols_eq, h'.rows_eq, h'.cols_eq,
    squaredDistance64_eq h.data h'.data]

end Agree

end Matrix
end ProductQuantization
