import ProductQuantization.Proofs.Rotation.NonFiniteData
import ProductQuantization.Proofs.Rotation.SignedPermutations

/-!
# Matrices with one entry in each row and column

A square matrix with one entry at most in each row and each column, and zeros elsewhere, is factored
without any rounding that shows: `U` and `V` are signed permutations, and so is their product.  No
rotation is made, because the columns are orthogonal as they are (`Peaked.sweeps_eq`); a column that
counts as zero is replaced by a standard unit vector whose place no other column has
(`Peaked.exists_factors`).

If the cross-covariance of two sets of points is such a matrix, the rotation is exactly orthogonal,
and where an entry is larger than the rank tolerance the rotation has its sign there
(`exact_of_partialPermutation`).
-/

set_option autoImplicit false

namespace ProductQuantization

open Float.Model.UnpackedFloat (Sign)
open Svd

variable {n : Nat} {a : Array Float} {frame : Frame n} {place : Fin n → Fin n} {x : Fin n → Float}

/-- An entry of a square matrix that is stored row by row. -/
def entryAt (n : Nat) (a : Array Float) (i j : Fin n) : Float := a.getD (i.val * n + j.val) 0.0

/-- A matrix of finite numbers with one at most in each row and each column that is not zero. -/
structure PartialPermutation {n : Nat} (a : Fin n → Fin n → Float) : Prop where
  finite : ∀ i j, (a i j).isFinite = true
  row : ∀ i j j', (a i j == 0.0) = false → (a i j' == 0.0) = false → j = j'
  col : ∀ j i i', (a i j == 0.0) = false → (a i' j == 0.0) = false → i = i'

/-! ## Columns with one entry -/

/-- The sign of a number; zero counts as negative. -/
def signOf (x : Float) : Sign := if 0.0 < x then .positive else .negative

theorem apply_signOf (x : Float) : (signOf x).apply 1 = if 0.0 < x then 1 else -1 := by
  rw [signOf]
  split <;> rfl

theorem exists_finite_of_not_zero {x : Float} (hx : x.isFinite = true) (hne : ¬ Agree64 x 0.0) :
    ∃ m e hm, x.toModel.unpack = .finite (signOf x) m e hm := by
  obtain ⟨s, hs⟩ | ⟨s, m, e, hm, hs⟩ := zero_or_finite (u := x.toModel.unpack) hx
  · exact absurd (agree64_zero_of_unpack hs) hne
  · refine ⟨m, e, hm, ?_⟩
    have hnan : x.isNaN = false := isNaN_of_isFinite hx
    have hsign : s = signOf x := by
      cases s with
      | positive =>
        have hlt : (0.0 : Float) < x := by
          rw [lt_iff_ordinal64, ordinal64, ordinal64, hs]
          exact ⟨rfl, hnan, Unpacked.lt_ordinal_positive⟩
        rw [signOf, if_pos hlt]
      | negative =>
        have hnot : ¬ (0.0 : Float) < x := by
          rw [lt_iff_ordinal64, ordinal64, ordinal64, hs]
          exact fun h => absurd (h.2.2.trans Unpacked.ordinal_negative_lt) (by decide)
        rw [signOf, if_neg hnot]
    rw [hs, hsign]

/-- A long column with one entry becomes a rough unit vector. -/
theorem rough_divideBy {exact : Prop} {i : Fin n} {x : Float} {column : Column}
    (hcolumn : Like n (peak i.val x) column) (hx : x.isFinite = true) (hpos : 0.0 < norm column)
    (hexact : exact → HasNormalSquare x) :
    ¬ Agree64 x 0.0 ∧ Rough n exact (divideBy column (norm column)) ⟨i.val, signOf x⟩ := by
  have hnorm := hcolumn.norm i.isLt
  have hroot : 0.0 < Float.sqrt (x * x) := (Agree64.lt_iff (.refl _) hnorm).1 hpos
  have hne : ¬ Agree64 (Float.sqrt (x * x)) 0.0 := by
    intro h
    rw [Agree64.lt_iff (.refl _) h] at hroot
    exact absurd hroot (by decide)
  have hnonzero : ¬ Agree64 x 0.0 := fun h => hne ((h.mul h).sqrt.trans (.refl 0.0))
  obtain ⟨m, e, hm, hunpack⟩ := exists_finite_of_not_zero hx hnonzero
  have hnan : (Float.sqrt (x * x)).isNaN = false := (lt_iff_ordinal64.1 hroot).2.1
  refine ⟨hnonzero, i.isLt, _, nearUnit_div_sqrt hunpack hroot, fun h => ?_, ?_⟩
  · have hnormal := hexact h
    obtain ⟨s, m', e', hm', hunpack', hlog, he⟩ := hnormal.exists_finite
    cases hunpack.symm.trans hunpack'
    exact div_size hunpack (sqrt_mul_self hunpack hlog he hnormal.2)
  · rw [eq_of_agree64 hnorm hne]
    exact hcolumn.divideBy hnan hne

/-- The columns have one entry each, in different rows unless they are zero. -/
structure Peaked (frame : Frame n) (place : Fin n → Fin n) (x : Fin n → Float) : Prop where
  finite : ∀ j, (x j).isFinite = true
  work : ∀ j : Fin n, Like n (peak (place j).val (x j)) (frame.work.get j)
  turns : ∀ j : Fin n, frame.turns.get j = unitColumn n j.val
  apart : ∀ j j', ¬ Agree64 (x j) 0.0 → ¬ Agree64 (x j') 0.0 → place j = place j' → j = j'

/-- Such columns are orthogonal, and no rotation is made. -/
theorem Peaked.sweeps_eq (h : Peaked frame place x) (f : Floors) :
    sweeps f maxSweeps frame = some frame := by
  refine sweeps_of_sweep (sweep_of_settled fun p q hpq => ?_)
  have hgamma : Agree64 (products (frame.work.get p) (frame.work.get q)).gamma 0.0 := by
    rw [gamma_products]
    have hsum := ((h.work p).products (h.work q) (h.finite p) (h.finite q)).agree_sum
      (z := 0) (.refl _)
    rw [if_pos (place p).isLt] at hsum
    refine hsum.trans ?_
    split
    · rename_i hplace
      by_cases hp : Agree64 (x p) 0.0
      · exact agree64_zero_mul hp (h.finite q)
      · by_cases hq : Agree64 (x q) 0.0
        · exact agree64_mul_zero (h.finite p) hq
        · exact absurd (h.apart p q hp hq (Fin.ext hplace)) (Fin.ne_of_lt hpq)
    · exact .refl _
  have hzero : ((products (frame.work.get p) (frame.work.get q)).gamma == 0.0) = true :=
    Unpacked.Agree.beq_eq_true hgamma hgamma.isNaN_eq
  rw [settled, hzero]
  rfl

/-- Whether a column does not count as zero. -/
def Long (frame : Frame n) (j : Fin n) : Prop :=
  (norms frame).get j > rankTolerance frame ∧ (norms frame).get j > 0.0

instance (frame : Frame n) (j : Fin n) : Decidable (Long frame j) :=
  inferInstanceAs (Decidable (_ ∧ _))

theorem seed_eq (frame : Frame n) (j : Fin n) : seed frame j =
    if Long frame j then some (divideBy (frame.work.get j) ((norms frame).get j)) else none := rfl

/-- The axis of a column, unless the column counts as zero. -/
def axisOf (frame : Frame n) (place : Fin n → Fin n) (x : Fin n → Float) (j : Fin n) : Option Axis :=
  if Long frame j then some ⟨(place j).val, signOf (x j)⟩ else none

theorem Peaked.not_zero (h : Peaked frame place x) {j : Fin n} (hlong : Long frame j) :
    ¬ Agree64 (x j) 0.0 := by
  have hpos : 0.0 < norm (frame.work.get j) := get_norms frame j ▸ hlong.2
  exact (rough_divideBy (h.work j) (h.finite j) hpos False.elim).1

theorem Peaked.rough (h : Peaked frame place x) {exact : Prop} {j : Fin n} (hlong : Long frame j)
    (hexact : exact → ¬ Agree64 (x j) 0.0 → HasNormalSquare (x j)) :
    Rough n exact (divideBy (frame.work.get j) ((norms frame).get j)) ⟨(place j).val, signOf (x j)⟩ := by
  have hpos : 0.0 < norm (frame.work.get j) := get_norms frame j ▸ hlong.2
  rw [get_norms]
  exact (rough_divideBy (h.work j) (h.finite j) hpos fun hx => hexact hx (h.not_zero hlong)).2

theorem Peaked.rel_seed (h : Peaked frame place x) {exact : Prop}
    (hexact : exact → ∀ j, ¬ Agree64 (x j) 0.0 → HasNormalSquare (x j)) (j : Fin n) :
    Option.Rel (Rough n exact) (seed frame j) (axisOf frame place x j) := by
  rw [seed_eq, axisOf]
  by_cases hlong : Long frame j
  · rw [if_pos hlong, if_pos hlong]
    exact .some (h.rough hlong fun hx => hexact hx j)
  · rw [if_neg hlong, if_neg hlong]
    exact .none

theorem Peaked.apart_axes (h : Peaked frame place x) :
    Apart ((order frame).map (axisOf frame place x)) := by
  rw [Apart, Distinct, List.filterMap_map, List.pairwise_filterMap]
  refine (nodup_order frame).imp fun {j j'} hne axis haxis axis' haxis' hplace => hne ?_
  rw [Function.comp_apply, id_eq, axisOf, Option.ite_none_right_eq_some,
    Option.some_inj] at haxis haxis'
  obtain ⟨hlong, rfl⟩ := haxis
  obtain ⟨hlong', rfl⟩ := haxis'
  exact h.apart j j' (h.not_zero hlong) (h.not_zero hlong') (Fin.ext hplace)

/-- The columns of the right factor are on the axes of the columns in their order. -/
theorem Peaked.exists_right (h : Peaked frame place x) :
    ∃ τ, OnAxes n (ofFrame frame).right τ (fun _ => .positive) ∧
      ∀ k : Fin n, (order frame)[k.val]? = some (τ k) := by
  have hright : List.Forall₂ (OnAxis n) (ofFrame frame).right
      ((order frame).map fun j => ⟨j.val, .positive⟩) := by
    refine forall₂_map_same fun j => ⟨j.isLt, ?_⟩
    show Like n _ (frame.turns.get j)
    rw [h.turns]
    exact like_unitColumn n j.val
  have hdistinct : Distinct ((order frame).map fun j => ⟨j.val, .positive⟩) :=
    List.pairwise_map.2 ((nodup_order frame).imp fun hne hval => hne (Fin.ext hval))
  obtain ⟨τ, t, hτ, hplaces⟩ := exists_onAxes hright hdistinct
    (by rw [hright.length_eq, List.length_map, length_order])
  have horder : ∀ k : Fin n, (order frame)[k.val]? = some (τ k) ∧ t k = .positive := by
    intro k
    have hk := hplaces k
    rw [List.getElem?_map, Option.map_eq_some_iff] at hk
    obtain ⟨j, hj, haxis⟩ := hk
    injection haxis with hval hsign
    obtain rfl : j = τ k := Fin.ext hval
    exact ⟨hj, hsign.symm⟩
  obtain rfl : t = fun _ => .positive := funext fun k => (horder k).2
  exact ⟨τ, hτ, fun k => (horder k).1⟩

/-- The columns of the left factor are on axes, and, where nothing is rounded, those that do not count
as zero on the axis of their entry. -/
theorem Peaked.exists_left (h : Peaked frame place x) (exact : Prop)
    (hexact : exact → ∀ j, ¬ Agree64 (x j) 0.0 → HasNormalSquare (x j)) :
    ∃ σ s, OnAxes n (ofFrame frame).left σ s ∧
      (exact → ∀ (k j : Fin n), (order frame)[k.val]? = some j → Long frame j →
        σ k = place j ∧ s k = signOf (x j)) := by
  have hraw : List.Forall₂ (Option.Rel (Rough n exact)) ((order frame).map (seed frame))
      ((order frame).map (axisOf frame place x)) := forall₂_map_same (h.rel_seed hexact)
  obtain ⟨zs, hout, hzs, hapart⟩ := exists_orthonormalize .nil hraw h.apart_axes
  have hlen : zs.length = n := by
    rw [hzs.length_eq, List.length_map, length_order]
  obtain ⟨xs, hleft, hxs, hdistinct⟩ := exists_complete .nil hout hapart
    (by rw [hout.length_eq]; simpa using hlen)
  have hlenxs : xs.length = n := hxs.length_eq.trans hlen
  obtain ⟨σ, s, hσ, hplaces⟩ := exists_onAxes hleft hdistinct
    (hleft.length_eq.trans hlenxs)
  refine ⟨σ, s, hσ, fun hx k j hj hlong => ?_⟩
  have hlabel : ((order frame).map (axisOf frame place x))[k.val]?
      = some (some ⟨(place j).val, signOf (x j)⟩) := by
    rw [List.getElem?_map, hj, Option.map_some, axisOf, if_pos hlong]
  -- the label of the column survives both stages, since nothing is dropped
  obtain ⟨z, hz, hkept⟩ := exists_rel_of_forall₂ hzs hlabel
  obtain rfl : z = some ⟨(place j).val, signOf (x j)⟩ :=
    hkept.resolve_right fun hdropped => hdropped.2 hx
  obtain ⟨w, hw, hkept'⟩ := exists_rel_of_forall₂ hxs hz
  obtain rfl := hkept' _ rfl
  have haxis := (hplaces k).symm.trans hw
  injection haxis with haxis
  injection haxis with hplace hsign
  exact ⟨Fin.ext hplace, hsign⟩

/-- **The factors of a matrix whose columns have one entry each** have their columns on axes, those
of the right factor on the axes of the columns in their order, and, where nothing is rounded, those of
the left factor on the axis of the entry. -/
theorem Peaked.exists_factors (h : Peaked frame place x) (exact : Prop)
    (hexact : exact → ∀ j, ¬ Agree64 (x j) 0.0 → HasNormalSquare (x j)) :
    ∃ σ s τ, OnAxes n (ofFrame frame).left σ s ∧
      OnAxes n (ofFrame frame).right τ (fun _ => .positive) ∧
      (exact → ∀ j, Long frame j →
        σ (τ.symm j) = place j ∧ s (τ.symm j) = signOf (x j)) := by
  obtain ⟨σ, s, hσ, hplaces⟩ := h.exists_left exact hexact
  obtain ⟨τ, hτ, horder⟩ := h.exists_right
  refine ⟨σ, s, τ, hσ, hτ, fun hx j hlong => hplaces hx (τ.symm j) j ?_ hlong⟩
  rw [horder, Equiv.apply_symm_apply]

/-! ## The rank tolerance -/

/-- The lengths are the sizes of the entries, where nothing is lost in a square. -/
theorem Peaked.agree_norms (h : Peaked frame place x)
    (hexact : ∀ j, ¬ Agree64 (x j) 0.0 → HasNormalSquare (x j)) (j : Fin n) :
    Agree64 ((norms frame).get j) (x j).abs := by
  rw [get_norms]
  exact ((h.work j).norm (place j).isLt).trans (agree_sqrt_mul_self (hexact j))

/-- **The longest column is as long as the largest entry.** -/
theorem Peaked.agree_largest (h : Peaked frame place x)
    (hexact : ∀ j, ¬ Agree64 (x j) 0.0 → HasNormalSquare (x j)) {l : Float}
    (hmax : ∃ j, l ≤ (x j).abs) (hle : ∀ j, (x j).abs ≤ l) : Agree64 (largest frame) l := by
  obtain ⟨j, hj⟩ := hmax
  obtain ⟨k, hlargest, hlongest⟩ := exists_largest frame (Nat.zero_lt_of_lt j.isLt)
  have hnorms := h.agree_norms hexact
  have hnan : ∀ i : Fin n, ((norms frame).get i).isNaN = false := fun i =>
    (hnorms i).isNaN_eq.trans (nonNegative64_abs (isNaN_of_isFinite (h.finite i))).isNaN_eq
  obtain ⟨hl, -, hjl⟩ := le_iff_ordinal64.1 hj
  obtain ⟨-, -, hkl⟩ := le_iff_ordinal64.1 (hle k)
  obtain ⟨-, -, hjk⟩ := le_iff_ordinal64.1 (le_of_rank64_le (hnan j) (hnan k) (hlongest j))
  rw [(hnorms j).ordinal_eq, (hnorms k).ordinal_eq] at hjk
  rw [hlargest]
  refine (hnorms k).trans (Unpacked.Agree.of_beq (beq_iff_ordinal64.2 ⟨?_, hl, by omega⟩))
  exact (hnorms k).isNaN_eq.symm.trans (hnan k)

/-- A tolerance is not negative. -/
theorem ordinal_tolerance {l size : Float} (hl : NonNegative64 l) (hn : 0 < n)
    (hlt : l * Float.ofNat n * epsilon < size) : 0 ≤ ordinal64 (l * Float.ofNat n * epsilon) := by
  have hnumber := (lt_iff_ordinal64.1 hlt).1
  have hsize : epsilon.abs = epsilon := by decide +kernel
  have hepsilon : NonNegative64 epsilon := hsize ▸ nonNegative64_abs rfl
  have hlength := hl.mul (nonNegative64_ofNat hn) (isNaN_of_mul hnumber)
  exact (hlength.mul hepsilon hnumber).ordinal_nonneg

/-- A column whose entry is larger than the rank tolerance does not count as zero. -/
theorem Peaked.long_of_lt (h : Peaked frame place x)
    (hexact : ∀ j, ¬ Agree64 (x j) 0.0 → HasNormalSquare (x j)) {l : Float} (hl : NonNegative64 l)
    (hmax : ∃ j, l ≤ (x j).abs) (hle : ∀ j, (x j).abs ≤ l) {j : Fin n}
    (hlt : l * Float.ofNat n * epsilon < (x j).abs) : Long frame j := by
  have htolerance : Agree64 (rankTolerance frame) (l * Float.ofNat n * epsilon) :=
    ((h.agree_largest hexact hmax hle).mul (.refl _)).mul (.refl _)
  have hnorm := h.agree_norms hexact j
  have hnonneg := ordinal_tolerance hl (Nat.zero_lt_of_lt j.isLt) hlt
  have hpos : (0.0 : Float) < (x j).abs := by
    obtain ⟨-, hnan, hordinal⟩ := lt_iff_ordinal64.1 hlt
    exact lt_iff_ordinal64.2 ⟨rfl, hnan, Int.lt_of_le_of_lt hnonneg hordinal⟩
  exact ⟨(Agree64.lt_iff htolerance hnorm).2 hlt, (Agree64.lt_iff (.refl _) hnorm).2 hpos⟩

/-! ## The matrix -/

/-- A column with one entry at most has a place for it. -/
theorem PartialPermutation.exists_peak {a : Fin n → Fin n → Float} (h : PartialPermutation a)
    (j : Fin n) : ∃ (i : Fin n) (x : Float), x.isFinite = true ∧
      ∀ k : Fin n, Agree64 (a k j) (peak i.val x k.val) := by
  by_cases hzero : ∃ i, (a i j == 0.0) = false
  · obtain ⟨i, hi⟩ := hzero
    refine ⟨i, a i j, h.finite i j, fun k => ?_⟩
    by_cases hk : k = i
    · subst hk
      rw [peak_self]
      exact .refl _
    · rw [peak_of_ne fun hval => hk (Fin.ext hval)]
      refine Unpacked.Agree.of_beq ?_
      cases hkj : (a k j == 0.0) with
      | false => exact absurd (h.col j k i hkj hi) hk
      | true => exact hkj
  · refine ⟨j, 0.0, rfl, fun k => ?_⟩
    rw [peak_zero]
    refine Unpacked.Agree.of_beq ?_
    cases hkj : (a k j == 0.0) with
    | false => exact absurd ⟨k, hkj⟩ hzero
    | true => exact hkj

/-- The matrix and what stands in its columns. -/
structure Entries (a : Array Float) (place : Fin n → Fin n) (x : Fin n → Float) : Prop where
  peaked : Peaked (start a n) place x
  agree : ∀ i j : Fin n, Agree64 (entryAt n a i j) (peak (place j).val (x j) i.val)

theorem PartialPermutation.exists_entries (h : PartialPermutation (entryAt n a)) :
    ∃ place x, Entries (n := n) a place x := by
  choose place x hfinite hagree using h.exists_peak
  refine ⟨place, x, ⟨hfinite, fun j => ?_, get_start_turns a, fun j j' hj hj' hplace => ?_⟩,
    fun i j => hagree j i⟩
  · rw [get_start_work]
    exact (like_map n _).congr fun k hk => hagree j ⟨k, hk⟩
  · have hentry : ∀ j, ¬ Agree64 (x j) 0.0 → (entryAt n a (place j) j == 0.0) = false := by
      intro j hj
      have hself := hagree j (place j)
      rw [peak_self] at hself
      exact beq_zero_of_not_agree fun hzero => hj (hself.symm.trans hzero)
    exact h.row (place j) j j' (hentry j hj) (hplace ▸ hentry j' hj')

theorem PartialPermutation.all_isFinite (h : PartialPermutation (entryAt n a))
    (ha : a.size = n * n) : a.all (·.isFinite) = true := by
  rw [Array.all_eq_true]
  intro k hk
  rw [ha] at hk
  have hn : 0 < n := Nat.pos_of_mul_pos_right (Nat.zero_lt_of_lt hk)
  have hentry := h.finite ⟨k / n, Nat.div_lt_of_lt_mul hk⟩ ⟨k % n, Nat.mod_lt k hn⟩
  rw [entryAt, Nat.div_add_mod' k n, Array.getD_eq_getD_getElem?, Array.getElem?_eq_getElem] at hentry
  exact hentry

/-- No rotation is made. -/
theorem Entries.svd_eq (h : Entries a place x) (ha : a.size = n * n)
    (hfinite : a.all (·.isFinite) = true) : svd a n = .ok (ofFrame (start a n)) := by
  rw [Svd.svd_eq ha hfinite, h.peaked.sweeps_eq]

/-! ## Signs -/

/-- No entry loses anything in its square. -/
def NormalSquares (a : Fin n → Fin n → Float) : Prop :=
  ∀ i j, (a i j == 0.0) = false → HasNormalSquare (a i j)

instance (a : Fin n → Fin n → Float) : Decidable (NormalSquares a) :=
  inferInstanceAs (Decidable (∀ i j, (a i j == 0.0) = false → HasNormalSquare (a i j)))

/-- `l` is the size of the largest entry. -/
structure IsLargestSize (a : Fin n → Fin n → Float) (l : Float) : Prop where
  exists_eq : ∃ i j, (a i j).abs = l
  le : ∀ i j, (a i j).abs ≤ l

/-- An entry that is not zero is the entry of its column. -/
theorem Entries.eq_of_not_zero (h : Entries a place x) {i j : Fin n}
    (hne : ¬ Agree64 (entryAt n a i j) 0.0) : place j = i ∧ x j = entryAt n a i j := by
  have hentry := h.agree i j
  by_cases hi : i.val = (place j).val
  · rw [hi, peak_self] at hentry
    exact ⟨Fin.ext hi.symm, eq_of_agree64 hentry.symm hne⟩
  · rw [peak_of_ne hi] at hentry
    exact absurd hentry hne

theorem Entries.agree_self (h : Entries a place x) (j : Fin n) :
    Agree64 (entryAt n a (place j) j) (x j) := by
  have hentry := h.agree (place j) j
  rwa [peak_self] at hentry

theorem Entries.hasNormalSquare (h : Entries a place x) (hnormal : NormalSquares (entryAt n a))
    {j : Fin n} (hne : ¬ Agree64 (x j) 0.0) : HasNormalSquare (x j) := by
  have hself := eq_of_agree64 (h.agree_self j) hne
  rw [← hself] at hne ⊢
  exact hnormal _ _ (beq_zero_of_not_agree hne)

/-- The largest entry is the entry of its column. -/
theorem Entries.exists_le (h : Entries a place x) {l : Float} (hl : IsLargestSize (entryAt n a) l) :
    NonNegative64 l ∧ ∃ j, l ≤ (x j).abs := by
  obtain ⟨i, j, rfl⟩ := hl.exists_eq
  have hfinite := isFinite_peak (i := (place j).val) (h.peaked.finite j) i.val
  have hnonneg := nonNegative64_abs ((h.agree i j).isNaN_eq.trans (isNaN_of_isFinite hfinite))
  have hcolumn := nonNegative64_abs (isNaN_of_isFinite (h.peaked.finite j))
  refine ⟨hnonneg, j, le_iff_ordinal64.2 ⟨hnonneg.isNaN_eq, hcolumn.isNaN_eq, ?_⟩⟩
  by_cases hzero : Agree64 (entryAt n a i j) 0.0
  · rw [hzero.abs.ordinal_eq]
    exact hcolumn.ordinal_nonneg
  · rw [(h.eq_of_not_zero hzero).2]

/-- A column with an entry above the rank tolerance does not count as zero, and the entry is that of
the column. -/
theorem Entries.long_of_lt (h : Entries a place x) (hnormal : NormalSquares (entryAt n a))
    {l : Float} (hl : IsLargestSize (entryAt n a) l) {i j : Fin n}
    (hlt : l * Float.ofNat n * epsilon < (entryAt n a i j).abs) :
    Long (start a n) j ∧ place j = i ∧ x j = entryAt n a i j := by
  obtain ⟨hnonneg, hmax⟩ := h.exists_le hl
  have hle : ∀ j, (x j).abs ≤ l := fun j =>
    ((h.agree_self j).abs.le_iff (.refl l)).1 (hl.le (place j) j)
  have hne : ¬ Agree64 (entryAt n a i j) 0.0 := by
    intro hzero
    have hordinal := ordinal_tolerance hnonneg (Nat.zero_lt_of_lt j.isLt) hlt
    rw [Agree64.lt_iff (.refl _) hzero.abs, lt_iff_ordinal64] at hlt
    exact absurd hlt.2.2 (Int.not_lt.2 hordinal)
  obtain ⟨hplace, hx⟩ := h.eq_of_not_zero hne
  rw [← hx] at hlt
  exact ⟨h.peaked.long_of_lt (fun j => h.hasNormalSquare hnormal) hnonneg hmax hle hlt, hplace, hx⟩

/-! ## Exact factors and rotations -/

/-- Factors that are signed permutations; so is their product, as it is computed. -/
structure SignedFactors (n : Nat) (f : Svd) (u v : Fin n → Fin n → ℤ) : Prop where
  n_eq : f.n = n
  left : ShowColumns n f.left u
  right : ShowColumns n f.right v
  signed_left : IsSignedPermutation u
  signed_right : IsSignedPermutation v
  signed_product : IsSignedPermutation fun i j => ∑ k, u i k * v j k
  product : ∀ i j : Fin n, Shows (productAt f.left f.right i.val j.val) (∑ k, u i k * v j k)

/-- A rotation that is a signed permutation, exactly orthogonal.  If no entry of the cross-covariance
loses anything in its square, the rotation has the sign of each entry above the rank tolerance. -/
structure SignedRotation (a : Fin n → Fin n → Float) (r : Fin n → Fin n → Single)
    (z : Fin n → Fin n → ℤ) : Prop where
  entry : ∀ i j, Shows (r i j).toFloat (z i j)
  signed : IsSignedPermutation z
  orthonormal : ∀ i j, ∑ k, z k i * z k j = if i = j then 1 else 0
  sign : NormalSquares a → ∀ l, IsLargestSize a l → ∀ i j,
    l * Float.ofNat n * epsilon < (a i j).abs → z i j = if 0.0 < a i j then 1 else -1

/-- The factors of a matrix with one entry at most in each row and column. -/
theorem exists_signedFactors (ha : a.size = n * n) (h : PartialPermutation (entryAt n a)) :
    ∃ f σ s τ, svd a n = .ok f ∧ f.n = n ∧ OnAxes n f.left σ s ∧
      OnAxes n f.right τ (fun _ => .positive) ∧
      (NormalSquares (entryAt n a) → ∀ l, IsLargestSize (entryAt n a) l → ∀ i j,
        l * Float.ofNat n * epsilon < (entryAt n a i j).abs →
          σ (τ.symm j) = i ∧ s (τ.symm j) = signOf (entryAt n a i j)) := by
  obtain ⟨place, x, hentries⟩ := h.exists_entries
  obtain ⟨σ, s, τ, hleft, hright, hsigns⟩ := hentries.peaked.exists_factors
    (NormalSquares (entryAt n a)) fun hnormal j => hentries.hasNormalSquare hnormal
  refine ⟨_, σ, s, τ, hentries.svd_eq ha (h.all_isFinite ha), rfl, hleft, hright,
    fun hnormal l hl i j hlt => ?_⟩
  obtain ⟨hlong, hplace, hx⟩ := hentries.long_of_lt hnormal hl hlt
  obtain ⟨hσ, hs⟩ := hsigns hnormal j hlong
  exact ⟨hσ.trans hplace, hs.trans (congrArg signOf hx)⟩

/-- The signs in the product of two signed permutations. -/
theorem isUnit_mul (s t : Sign) : IsUnit (s.apply 1 * t.apply 1) :=
  apply_mul_apply s t ▸ isUnit_apply (s * t)

/-- The entries of `Xᵀ · Y`. -/
def covarianceAt (x y : Matrix) : Fin x.cols → Fin x.cols → Float :=
  entryAt x.cols (Procrustes.crossCovariance x y).flatten.toArray

/-- **Matrices with one entry at most in each row and column are factored exactly**, and if the
cross-covariance of two matrices is one of them, the rotation is a signed permutation. -/
theorem exact_of_partialPermutation :
    (∀ (n : Nat) (a : Array Float), a.size = n * n → PartialPermutation (entryAt n a) →
      ∃ f u v, svd a n = .ok f ∧ SignedFactors n f u v) ∧
    ∀ x y : Matrix, x.cols = y.cols → x.rows = y.rows →
      Matrix.fits (2 * (x.cols * x.cols)) = true → PartialPermutation (covarianceAt x y) →
        ∃ r z, procrustes x y = .ok (.ofFn x.cols x.cols r) ∧
          SignedRotation (covarianceAt x y) r z := by
  refine ⟨fun n a ha h => ?_, fun x y hcols hrows hfits h => ?_⟩
  · obtain ⟨f, σ, s, τ, hsvd, hn, hleft, hright, -⟩ := exists_signedFactors ha h
    refine ⟨f, _, _, hsvd, hn, hleft.showColumns, hright.showColumns,
      isSignedPermutation_signed fun k => isUnit_apply (s k),
      isSignedPermutation_signed fun k => .inl rfl, ?_, hleft.shows_productAt hright⟩
    simp only [sum_signed_mul_signed]
    exact isSignedPermutation_signed fun j => isUnit_mul _ _
  · have hsize := (Procrustes.isSquare_crossCovariance hcols).size_flatten
    obtain ⟨f, σ, s, τ, hsvd, hn, hleft, hright, hsigns⟩ := exists_signedFactors hsize h
    have hunit : ∀ j, IsUnit ((s (τ.symm j)).apply 1 * Sign.positive.apply 1) := fun j =>
      isUnit_mul _ _
    refine ⟨fun i j => Single.ofFloat (productAt f.left f.right i.val j.val),
      signed (τ.symm.trans σ) fun j => (s (τ.symm j)).apply 1 * Sign.positive.apply 1, ?_,
      fun i j => ?_, isSignedPermutation_signed hunit, sum_mul_signed hunit,
      fun hnormal l hl i j hlt => ?_⟩
    · rw [procrustes_eq_svd hcols hrows, hfits, hsvd, Result.guard_true]
      exact congrArg Except.ok (productOfFactors_eq hn)
    · have hproduct := hleft.shows_productAt hright i j
      rw [sum_signed_mul_signed] at hproduct
      exact hproduct.rounded
    · obtain ⟨hσ, hs⟩ := hsigns hnormal l hl i j hlt
      rw [signed, Equiv.trans_apply, if_pos hσ, hs, apply_signOf]
      exact mul_one _

/-- A zero column is filled up, and the entry that is there keeps its sign. -/
theorem exact_of_partialPermutation_rank_one :
    (∃ f u v, svd #[0.0, -3.0, 0.0, 0.0] 2 = .ok f ∧ SignedFactors 2 f u v) ∧
    ∃ r z, procrustes (.stack 2 [[.one, .zero]]) (.stack 2 [[.zero, Single.one.negate]])
        = .ok (.ofFn 2 2 r) ∧
      (∀ i j, Shows (r i j).toFloat (z i j)) ∧ IsSignedPermutation z ∧ z 0 1 = -1 := by
  have hcovariance : PartialPermutation (covarianceAt (.stack 2 [[.one, .zero]])
      (.stack 2 [[.zero, Single.one.negate]])) :=
    ⟨by decide +kernel, by decide +kernel, by decide +kernel⟩
  obtain ⟨r, z, hr, hz⟩ := exact_of_partialPermutation.2 (.stack 2 [[.one, .zero]])
    (.stack 2 [[.zero, Single.one.negate]]) rfl rfl (by decide +kernel) hcovariance
  refine ⟨exact_of_partialPermutation.1 2 _ rfl
    ⟨by decide +kernel, by decide +kernel, by decide +kernel⟩, r, z, hr, hz.entry, hz.signed, ?_⟩
  exact (hz.sign (by decide +kernel) 1.0
    ⟨⟨(0 : Fin 2), (1 : Fin 2), by decide +kernel⟩, by decide +kernel⟩ (0 : Fin 2) (1 : Fin 2)
    (by decide +kernel)).trans (if_neg (by decide +kernel))

end ProductQuantization
