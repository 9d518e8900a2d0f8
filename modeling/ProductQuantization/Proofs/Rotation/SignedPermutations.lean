import Mathlib.Algebra.BigOperators.Group.Finset.Basic
import Mathlib.Logic.Equiv.Fintype
import ProductQuantization.Proofs.Rotation.CrossCovariance
import ProductQuantization.Proofs.Rotation.Frames
import ProductQuantization.Proofs.Rotation.Peaks

/-!
# Signed permutations

A matrix of zeros, ones and minus ones with one entry in each row and each column that is not zero is a
signed permutation (`IsSignedPermutation`).  Factors whose columns are standard unit vectors with
signs, all at different places (`OnAxes`), are signed permutations of floats, and so is the product of
the one with the transpose of the other, as it is computed (`OnAxes.shows_productAt`) and as it is
rounded to single precision (`Shows.rounded`): there is one product in each sum that is not zero.
-/

set_option autoImplicit false

namespace ProductQuantization

open Float.Model.UnpackedFloat (Sign)
open Svd

/-! ## What is said -/

/-- The number is zero, with either sign, or one, or minus one. -/
inductive Shows : Float → ℤ → Prop where
  | zero {x : Float} (h : (x == 0.0) = true) : Shows x 0
  | one : Shows 1.0 1
  | negOne : Shows (-1.0) (-1)

/-- Zeros, ones and minus ones, one in each row and each column that is not zero. -/
structure IsSignedPermutation {n : Nat} (z : Fin n → Fin n → ℤ) : Prop where
  entry : ∀ i j, z i j = 0 ∨ z i j = 1 ∨ z i j = -1
  row : ∀ i, ∃! j, z i j ≠ 0
  col : ∀ j, ∃! i, z i j ≠ 0

/-- The columns of a matrix of zeros, ones and minus ones. -/
structure ShowColumns (n : Nat) (columns : List Column) (z : Fin n → Fin n → ℤ) : Prop where
  length_eq : columns.length = n
  entry : ∀ j : Fin n, ∃ column, columns[j.val]? = some column ∧ column.length = n ∧
    ∀ i : Fin n, ∃ x, column[i.val]? = some x ∧ Shows x (z i j)

/-! ## Signed permutations of integers -/

section Integers

open Finset

variable {n : Nat} {σ τ : Equiv.Perm (Fin n)} {s t : Fin n → ℤ}

/-- The matrix whose column `k` has `s k` in row `σ k`. -/
def signed (σ : Equiv.Perm (Fin n)) (s : Fin n → ℤ) (i k : Fin n) : ℤ := if σ k = i then s k else 0

/-- One or minus one. -/
def IsUnit (z : ℤ) : Prop := z = 1 ∨ z = -1

theorem isSignedPermutation_signed (hs : ∀ k, IsUnit (s k)) :
    IsSignedPermutation (signed σ s) := by
  have hne : ∀ i k, signed σ s i k ≠ 0 ↔ σ k = i := by
    intro i k
    rw [signed]
    split
    · rename_i h
      rcases hs k with hk | hk <;> simp [hk, h]
    · rename_i h
      simp [h]
  refine ⟨fun i k => ?_, fun i => ⟨σ.symm i, ?_, fun k hk => ?_⟩, fun k => ⟨σ k, ?_, fun i hi => ?_⟩⟩
  · rw [signed]
    split
    · exact .inr (hs k)
    · exact .inl rfl
  · exact (hne _ _).2 (σ.apply_symm_apply i)
  · exact σ.eq_symm_apply.2 ((hne _ _).1 hk)
  · exact (hne _ _).2 rfl
  · exact ((hne _ _).1 hi).symm

/-- The product of a signed permutation with the transpose of another. -/
theorem sum_signed_mul_signed (i j : Fin n) :
    ∑ k, signed σ s i k * signed τ t j k
      = signed (τ.symm.trans σ) (fun j => s (τ.symm j) * t (τ.symm j)) i j := by
  rw [Finset.sum_eq_single (τ.symm j)]
  · have hcol : signed τ t j (τ.symm j) = t (τ.symm j) := if_pos (τ.apply_symm_apply j)
    rw [hcol, signed, signed, ite_mul, zero_mul]
    rfl
  · intro k _ hk
    have hne : τ k ≠ j := fun h => hk (τ.eq_symm_apply.2 h)
    simp only [signed, if_neg hne, mul_zero]
  · exact fun h => absurd (mem_univ _) h

/-- The columns of a signed permutation are orthonormal. -/
theorem sum_mul_signed (hs : ∀ k, IsUnit (s k)) (i j : Fin n) :
    ∑ k, signed σ s k i * signed σ s k j = if i = j then 1 else 0 := by
  rw [Finset.sum_eq_single (σ i)]
  · simp only [signed, if_pos, σ.injective.eq_iff, eq_comm (a := j)]
    split
    · rename_i h
      subst h
      rcases hs i with h | h <;> simp [h]
    · simp
  · intro k _ hk
    simp only [signed, if_neg hk.symm, zero_mul]
  · exact fun h => absurd (mem_univ _) h

end Integers

/-! ## Columns on different axes -/

section Axes

variable {n : Nat} {columns us vs : List Column} {axes : List Axis} {σ τ : Equiv.Perm (Fin n)}
  {s t : Fin n → Sign} {x y : Float} {z : ℤ}

theorem isUnit_apply (s : Sign) : IsUnit (s.apply 1) := by
  cases s with
  | positive => exact .inl rfl
  | negative => exact .inr rfl

theorem shows_unit (s : Sign) : Shows (unit s) (s.apply 1) := by
  cases s with
  | positive => exact .one
  | negative => exact .negOne

theorem shows_of_agree_zero (h : Agree64 x 0.0) : Shows x 0 :=
  .zero (Unpacked.Agree.beq_eq_true h h.isNaN_eq)

theorem shows_of_agree_unit {s : Sign} (h : Agree64 x (unit s)) : Shows x (s.apply 1) := by
  rw [eq_of_agree64 h (not_agree64_zero (unpack_unit s))]
  exact shows_unit s

theorem shows_of_agree_peak {i k : Fin n} {s : Sign} (h : Agree64 x (peak i.val (unit s) k.val)) :
    Shows x (if i = k then s.apply 1 else 0) := by
  by_cases hik : i = k
  · subst hik
    rw [peak_self] at h
    rw [if_pos rfl]
    exact shows_of_agree_unit h
  · rw [peak_of_ne fun hval => hik (Fin.ext hval.symm)] at h
    rw [if_neg hik]
    exact shows_of_agree_zero h

/-- Column `k` is on axis `σ k`, with sign `s k`. -/
structure OnAxes (n : Nat) (columns : List Column) (σ : Equiv.Perm (Fin n)) (s : Fin n → Sign) :
    Prop where
  length_eq : columns.length = n
  column : ∀ k : Fin n, ∃ column, columns[k.val]? = some column ∧
    Like n (peak (σ k).val (unit (s k))) column

/-- As many columns as there are axes, on different ones, are on all of them. -/
theorem exists_onAxes (h : List.Forall₂ (OnAxis n) columns axes) (hdistinct : Distinct axes)
    (hlen : columns.length = n) :
    ∃ σ s, OnAxes n columns σ s ∧ ∀ k : Fin n, axes[k.val]? = some ⟨(σ k).val, s k⟩ := by
  have hlen' : axes.length = n := h.length_eq.symm.trans hlen
  have haxis := List.forall₂_iff_get.1 h
  have hk : ∀ k : Fin n, k.val < axes.length := fun k => hlen'.symm ▸ k.isLt
  have hk' : ∀ k : Fin n, k.val < columns.length := fun k => hlen.symm ▸ k.isLt
  let place : Fin n → Fin n := fun k =>
    ⟨(axes.get ⟨k, hk k⟩).place, (haxis.2 k (hk' k) (hk k)).1⟩
  have hinj : Function.Injective place := by
    intro k l hkl
    by_contra hne
    have hplace : (axes.get ⟨k, hk k⟩).place = (axes.get ⟨l, hk l⟩).place := congrArg Fin.val hkl
    rcases Nat.lt_or_gt_of_ne (fun h => hne (Fin.ext h)) with hlt | hlt
    · exact List.pairwise_iff_get.1 hdistinct ⟨k, hk k⟩ ⟨l, hk l⟩ hlt hplace
    · exact List.pairwise_iff_get.1 hdistinct ⟨l, hk l⟩ ⟨k, hk k⟩ hlt hplace.symm
  refine ⟨Equiv.ofBijective place (Finite.injective_iff_bijective.1 hinj),
    fun k => (axes.get ⟨k, hk k⟩).sign, ⟨hlen, fun k => ⟨_, List.getElem?_eq_getElem (hk' k), ?_⟩⟩,
    fun k => List.getElem?_eq_getElem (hk k)⟩
  exact (haxis.2 k (hk' k) (hk k)).2

/-- Such columns are those of a signed permutation. -/
theorem OnAxes.showColumns (h : OnAxes n columns σ s) :
    ShowColumns n columns (signed σ fun k => (s k).apply 1) := by
  refine ⟨h.length_eq, fun k => ?_⟩
  obtain ⟨column, hcolumn, hlike⟩ := h.column k
  refine ⟨column, hcolumn, hlike.length_eq, fun i => ?_⟩
  obtain ⟨x, hx, hagree⟩ := hlike.exists_entry i.isLt
  exact ⟨x, hx, shows_of_agree_peak hagree⟩

/-- Such rows, too, have one entry. -/
theorem OnAxes.like_row (h : OnAxes n columns σ s) (i : Fin n) :
    Like n (peak (σ.symm i).val (unit (s (σ.symm i))))
      (columns.map fun column => column.getD i.val 0.0) := by
  rw [Like, List.forall₂_iff_get]
  refine ⟨by simp [h.length_eq], fun k hk hk' => ?_⟩
  have hn : k < n := by simpa using hk'
  obtain ⟨column, hcolumn, hlike⟩ := h.column ⟨k, hn⟩
  have hentry := hlike.agree_getD i.isLt
  rw [List.getElem?_eq_some_iff] at hcolumn
  obtain ⟨hlt, hcolumn⟩ := hcolumn
  simp only [List.get_eq_getElem, List.getElem_map, List.getElem_range, hcolumn]
  refine hentry.trans ?_
  by_cases hki : σ ⟨k, hn⟩ = i
  · rw [← hki, Equiv.symm_apply_apply, peak_self, peak_self]
    exact .refl _
  · have hne : i.val ≠ (σ ⟨k, hn⟩).val := fun h => hki (Fin.ext h.symm)
    have hne' : k ≠ (σ.symm i).val := fun h => hki (σ.eq_symm_apply.1 (Fin.ext h))
    rw [peak_of_ne hne, peak_of_ne hne']
    exact .refl _

theorem unit_mul_unit (s t : Sign) : unit s * unit t = unit (s * t) := by
  cases s <;> cases t <;> rfl

/-- An entry of the product of two factors, before it is rounded. -/
def productAt (us vs : List Column) (i j : Nat) : Float :=
  ((us.map fun column => column.getD i 0.0).zip (vs.map fun column => column.getD j 0.0)).foldl
    (fun s p => s + p.1 * p.2) 0.0

/-- The inner product of a row of the one and a row of the other. -/
theorem OnAxes.shows_productAt (hu : OnAxes n us σ s) (hv : OnAxes n vs τ t) (i j : Fin n) :
    Shows (productAt us vs i.val j.val)
      (∑ k, signed σ (fun k => (s k).apply 1) i k * signed τ (fun k => (t k).apply 1) j k) := by
  have hsum := ((hu.like_row i).products (hv.like_row j) (isFinite_unit _)
    (isFinite_unit _)).agree_sum (z := 0.0) (.refl _)
  rw [productAt, foldl_zip_mul, sum_signed_mul_signed, signed]
  rw [if_pos (σ.symm i).isLt, unit_mul_unit] at hsum
  by_cases hij : σ.symm i = τ.symm j
  · have hplace : (τ.symm.trans σ) j = i := by
      rw [Equiv.trans_apply, ← hij, Equiv.apply_symm_apply]
    rw [if_pos hplace, ← apply_mul_apply, ← hij]
    rw [if_pos (congrArg Fin.val hij)] at hsum
    have hunit := shows_of_agree_unit hsum
    rwa [← hij] at hunit
  · have hplace : ¬ (τ.symm.trans σ) j = i := fun h => hij (by
      rw [← h, Equiv.trans_apply, Equiv.symm_apply_apply])
    rw [if_neg hplace]
    rw [if_neg fun h => hij (Fin.ext h)] at hsum
    exact shows_of_agree_zero hsum

end Axes

/-! ## The product of the factors in single precision -/

section Product

variable {n : Nat} {σ τ : Equiv.Perm (Fin n)} {s t : Fin n → Sign} {x : Float} {z : ℤ}

/-- Zero, one and minus one are numbers of single precision. -/
theorem Shows.rounded (h : Shows x z) : Shows (Single.ofFloat x).toFloat z := by
  cases h with
  | zero h => exact shows_of_agree_zero (Single.agree_ofFloat (Unpacked.Agree.of_beq h)).toFloat
  | one =>
    have hone : (Single.ofFloat 1.0).toFloat = 1.0 := by decide +kernel
    exact hone ▸ .one
  | negOne =>
    have hone : (Single.ofFloat (-1.0)).toFloat = -1.0 := by decide +kernel
    exact hone ▸ .negOne

theorem stack_map_range {rows cols : Nat} (g : Nat → Nat → Single) :
    Matrix.stack cols ((List.range rows).map fun i => (List.range cols).map (g i))
      = .ofFn rows cols fun i j => g i.val j.val := by
  refine Matrix.ext_rowAt (by simp) rfl fun i ha hb => ?_
  rw [Matrix.rowAt_stack, Matrix.rowAt_ofFn, Matrix.fitTo_eq_self (by simp)]
  simp only [List.get_eq_getElem, List.getElem_map, List.getElem_range]
  exact List.ext_getElem (by simp) (by simp)

theorem productOfFactors_eq {f : Svd} (hn : f.n = n) : Procrustes.productOfFactors f
    = .ofFn n n fun i j => Single.ofFloat (productAt f.left f.right i.val j.val) := by
  subst hn
  rw [← stack_map_range fun i j => Single.ofFloat (productAt f.left f.right i j),
    Procrustes.productOfFactors, rowsOf, rowsOf]
  simp only [List.map_map]
  rfl

end Product

end ProductQuantization
