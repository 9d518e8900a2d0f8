import ProductQuantization.Proofs.Number.FiniteMean
import ProductQuantization.Proofs.Rotation.CrossCovariance

/-!
# Data that is not finite

The solver does not look for infinities in `X` and `Y`.  It looks for them in `Xᵀ · Y`, whose entries
are sums of products, block by block (`crossCovariance_ofFn`).  Nothing gets lost in the sums: an
entry is finite exactly if each of its products is (`isFinite_covariance_iff`), because finite numbers
of single precision never add up to infinity and what is not finite absorbs the rest.

But a product whose factor from `X` is zero is not formed at all.  A row of `Y` that stands beside a
row of zeros is never read, whatever is in it, and the rotation is the one for any other row in its
place (`NonFiniteOutcome`).
-/

set_option autoImplicit false

namespace ProductQuantization

namespace Single

variable {x y : Single}

theorem IsZero.isFinite (h : x.IsZero) : x.IsFinite := by
  obtain rfl | rfl := h <;> rfl

/-- What keeps a finite sum finite: a product that is not formed, or one of finite factors. -/
def Harmless (x y : Single) : Prop := x.IsZero ∨ x.IsFinite ∧ y.IsFinite

theorem Harmless.isFinite_left (h : x.Harmless y) : x.IsFinite := h.elim IsZero.isFinite And.left

end Single

namespace Procrustes

variable {n d : Nat}

/-! ## Finite entries -/

/-- A product of finite numbers does not take a sum above place `258`. -/
theorem below_addProduct {s : Float} {x y : Single} (hs : Below 258 s) (h : x.Harmless y) :
    Below 258 (addProduct s x y) := by
  rw [addProduct]
  split
  · exact hs
  · rename_i hne
    obtain ⟨hx, hy⟩ := h.resolve_left fun hzero => hne (Single.beq_zero_iff.2 hzero)
    exact hs.add (below_mul_widen hx hy) (by omega)

/-- Only harmless products leave a sum finite. -/
theorem harmless_of_addProduct {s : Float} {x y : Single}
    (h : (addProduct s x y).isFinite = true) : s.isFinite = true ∧ x.Harmless y := by
  rw [addProduct] at h
  split at h
  · rename_i hzero
    exact ⟨h, .inl (Single.beq_zero_iff.1 hzero)⟩
  · obtain ⟨hs, hproduct⟩ := isFinite_of_add h
    obtain ⟨hx, hy⟩ := isFinite_of_mul hproduct
    exact ⟨hs, .inr ⟨isFinite_of_widen hx, isFinite_of_widen hy⟩⟩

/-- What every step of a sum needs has been so all along. -/
theorem forall_of_foldl {α : Type} {P : Float → Prop} {Q : α → Prop} {step : Float → α → Float}
    {xs : List α} {s : Float} (h : P (xs.foldl step s))
    (hstep : ∀ s a, P (step s a) → P s ∧ Q a) : P s ∧ ∀ a ∈ xs, Q a := by
  induction xs generalizing s with
  | nil => exact ⟨h, fun _ ha => nomatch ha⟩
  | cons x xs ih =>
    obtain ⟨hnext, hxs⟩ := ih h
    obtain ⟨hs, hx⟩ := hstep s x hnext
    exact ⟨hs, List.forall_mem_cons.2 ⟨hx, hxs⟩⟩

/-- **An entry is finite exactly if each of its products is harmless.** -/
theorem isFinite_covariance_iff {a b : Fin n → Single} :
    (covariance a b).isFinite = true ↔ ∀ r, (a r).Harmless (b r) := by
  constructor
  · intro h r
    have hmem : r ∈ (blocks blockRows blockRows_pos (List.finRange n)).flatten := by
      rw [flatten_blocks]
      exact List.mem_finRange r
    obtain ⟨block, hblock, hr⟩ := List.mem_flatten.1 hmem
    rw [covariance] at h
    have hparts := (forall_of_foldl (P := (·.isFinite = true)) h fun _ _ => isFinite_of_add).2
    have hpart : (partialSum a b block).isFinite = true := hparts _ (List.mem_map_of_mem hblock)
    rw [partialSum] at hpart
    have hharmless := forall_of_foldl (P := (·.isFinite = true)) hpart
      fun _ _ => harmless_of_addProduct
    exact hharmless.2 r hr
  · intro h
    have hpart : ∀ block, Below 258 (partialSum a b block) := fun block =>
      List.foldlRecOn block _ (below_zero 258) fun s hs r _ => below_addProduct hs (h r)
    have htotal : Below 312 (covariance a b) := by
      refine List.foldlRecOn _ _ (below_zero 312) fun s hs t ht => ?_
      obtain ⟨block, -, rfl⟩ := List.mem_map.1 ht
      exact hs.add (hpart block) (by omega)
    exact htotal.isFinite_eq

theorem all_isFinite_gridOf {f : Fin d → Fin d → Float} :
    (gridOf f).flatten.toArray.all (·.isFinite) = true ↔ ∀ i j, (f i j).isFinite = true := by
  simp only [gridOf, List.all_toArray, List.all_flatten, List.all_eq_true, List.forall_mem_ofFn_iff]

end Procrustes

/-! ## What the solver notices -/

/-- Factorizing refuses a square matrix that is not finite, and no other for this reason. -/
theorem svd_eq_notFinite_iff {a : Array Float} {n : Nat} (ha : a.size = n * n) :
    svd a n = .error (.numerical .notFinite) ↔ a.all (·.isFinite) = false := by
  rw [svd, decide_eq_true ha]
  cases a.all (·.isFinite) with
  | false => exact iff_of_true rfl rfl
  | true =>
    refine iff_of_false (fun h => ?_) (by decide)
    simp only [Result.guard_true, ok_bind] at h
    split at h <;> cases h

namespace Procrustes

/-- What the solver notices in a row of `X` and the row of `Y` beside it: a component of `X` that is
not finite, or one of `Y`, unless all those of `X` are zero. -/
inductive Noticed (xs ys : Point) : Prop where
  | left {a : Single} (ha : a ∈ xs) (hf : ¬ a.IsFinite)
  | right {a b : Single} (ha : a ∈ xs) (hz : ¬ a.IsZero) (hb : b ∈ ys) (hf : ¬ b.IsFinite)

theorem noticed_ofFn_iff {d : Nat} {xs ys : Fin d → Single} :
    Noticed (List.ofFn xs) (List.ofFn ys) ↔ ∃ i j, ¬ (xs i).Harmless (ys j) := by
  constructor
  · rintro (⟨ha, hf⟩ | ⟨ha, hz, hb, hf⟩)
    · obtain ⟨i, rfl⟩ := List.mem_ofFn.1 ha
      exact ⟨i, i, fun h => hf h.isFinite_left⟩
    · obtain ⟨i, rfl⟩ := List.mem_ofFn.1 ha
      obtain ⟨j, rfl⟩ := List.mem_ofFn.1 hb
      exact ⟨i, j, fun h => hf (h.resolve_left hz).2⟩
  · rintro ⟨i, j, h⟩
    rw [Single.Harmless, not_or, not_and_or] at h
    obtain ⟨hz, hx | hy⟩ := h
    · exact .left (List.mem_ofFn.2 ⟨i, rfl⟩) hx
    · exact .right (List.mem_ofFn.2 ⟨i, rfl⟩) hz (List.mem_ofFn.2 ⟨j, rfl⟩) hy

/-- **The product is finite unless something is noticed.** -/
theorem all_isFinite_crossCovariance {n d : Nat} {f g : Fin n → Fin d → Single} :
    (crossCovariance (.ofFn n d f) (.ofFn n d g)).flatten.toArray.all (·.isFinite) = true ↔
      ∀ r, ¬ Noticed (List.ofFn (f r)) (List.ofFn (g r)) := by
  simp only [crossCovariance_ofFn, all_isFinite_gridOf, isFinite_covariance_iff, noticed_ofFn_iff,
    not_exists, not_not]
  exact ⟨fun h r i j => h i j r, fun h i j r => h r i j⟩

end Procrustes

open Procrustes (Noticed)

/-- The solver on two matrices of one shape. -/
theorem procrustes_eq_svd {x y : Matrix} (hcols : x.cols = y.cols) (hrows : x.rows = y.rows) :
    procrustes x y = (do
      Result.guard (Matrix.fits (2 * (x.cols * x.cols))) .outOfBounds
      let factors ← svd (Procrustes.crossCovariance x y).flatten.toArray x.cols
      .ok (Procrustes.productOfFactors factors)) := by
  rw [procrustes, decide_eq_true hcols, decide_eq_true hrows]
  rfl

theorem procrustes_eq_notFinite_iff {x y : Matrix} (hcols : x.cols = y.cols)
    (hrows : x.rows = y.rows) :
    procrustes x y = .error (.numerical .notFinite) ↔
      Matrix.fits (2 * (x.cols * x.cols)) = true ∧
        (Procrustes.crossCovariance x y).flatten.toArray.all (·.isFinite) = false := by
  rw [procrustes_eq_svd hcols hrows,
    ← svd_eq_notFinite_iff (Procrustes.isSquare_crossCovariance hcols).size_flatten]
  cases Matrix.fits (2 * (x.cols * x.cols)) with
  | false => exact iff_of_false (fun h => nomatch h) fun h => nomatch h.1
  | true =>
    simp only [Result.guard_true, ok_bind, true_and]
    cases svd (Procrustes.crossCovariance x y).flatten.toArray x.cols <;> simp

/-- What becomes of data that is not finite: it is refused where the solver notices it, and not read
where it does not. -/
structure NonFiniteOutcome (x y : Matrix) : Prop where
  refused_iff : procrustes x y = .error (.numerical .notFinite) ↔
    Matrix.fits (2 * (x.cols * x.cols)) = true ∧
      ∃ (i : Nat) (hx : i < x.rows) (hy : i < y.rows), Noticed (x.rowAt ⟨i, hx⟩) (y.rowAt ⟨i, hy⟩)
  unread : ∀ y' : Matrix, y.cols = y'.cols → y.rows = y'.rows →
    (∀ (i : Nat) (hx : i < x.rows) (hy : i < y.rows) (hy' : i < y'.rows),
      (∃ a ∈ x.rowAt ⟨i, hx⟩, ¬ a.IsZero) → y.rowAt ⟨i, hy⟩ = y'.rowAt ⟨i, hy'⟩) →
    procrustes x y = procrustes x y'

/-- **Data that is not finite is noticed exactly where it is multiplied.** -/
theorem nonFiniteOutcome {x y : Matrix} (hcols : x.cols = y.cols) (hrows : x.rows = y.rows) :
    NonFiniteOutcome x y := by
  obtain ⟨n, d, f, rfl⟩ : ∃ n d f, x = .ofFn n d f := ⟨_, _, _, x.ofFn_entry.symm⟩
  obtain ⟨g, rfl⟩ : ∃ g, y = .ofFn n d g := Matrix.exists_ofFn hrows hcols
  refine ⟨?_, fun y' hcols' hrows' h => ?_⟩
  · rw [procrustes_eq_notFinite_iff hcols hrows, ← Bool.not_eq_true,
      Procrustes.all_isFinite_crossCovariance]
    simp only [Matrix.rowAt_ofFn, not_forall, not_not]
    refine and_congr_right fun _ => ?_
    exact ⟨fun ⟨r, hr⟩ => ⟨r, r.isLt, r.isLt, hr⟩, fun ⟨i, hi, _, hr⟩ => ⟨⟨i, hi⟩, hr⟩⟩
  · obtain ⟨g', rfl⟩ : ∃ g', y' = .ofFn n d g' := Matrix.exists_ofFn hrows' hcols'
    have hread : ∀ r, (∀ j, (f r j).IsZero) ∨ g r = g' r := by
      rintro ⟨i, hi⟩
      refine or_iff_not_imp_left.2 fun hzero => List.ofFn_injective ?_
      obtain ⟨j, hj⟩ := not_forall.1 hzero
      have hrow := h i hi hi hi
      rw [Matrix.rowAt_ofFn f hi, Matrix.rowAt_ofFn g hi, Matrix.rowAt_ofFn g' hi] at hrow
      exact hrow ⟨f ⟨i, hi⟩ j, List.mem_ofFn.2 ⟨j, rfl⟩, hj⟩
    rw [procrustes_eq_svd hcols hrows, procrustes_eq_svd (hcols.trans hcols') (hrows.trans hrows'),
      Procrustes.crossCovariance_congr hread]

/-- A row that holds nothing but a not-a-number stands beside a row of zeros, and there is a
rotation. -/
theorem nonFiniteOutcome_nan :
    Single.nan.value.isFinite = false ∧
      (procrustes (.stack 1 [[.zero]]) (.stack 1 [[.nan]])).isOk = true ∧
      NonFiniteOutcome (.stack 1 [[.zero]]) (.stack 1 [[.nan]]) :=
  ⟨by decide, by decide +kernel, nonFiniteOutcome (by decide) (by decide)⟩

end ProductQuantization
