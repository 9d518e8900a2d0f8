import ProductQuantization.Proofs.Cluster.Numbers
import ProductQuantization.Proofs.Distance
import ProductQuantization.Proofs.Number.Narrowing
import ProductQuantization.Proofs.Number.Scaling
import ProductQuantization.Proofs.Rotation.NonFiniteData

/-!
# What the orthogonality error sees

The orthogonality error of `R` is the largest entry of `|Rᵀ · R - I|`, and such an entry is
`Matrix.gramError`.  Of two numbers the larger one is taken, but of a number and something that is
none the number is, so that entries that are not a number have no say (`Greatest`).  These are the
entries of the columns that hold something that is not a number: no bound on the error tells
anything about such a column.

The other columns are seen.  An infinity in one of them makes its square infinite, so that a finite
bound on the error bounds every number in them and every entry that they make
(`orthogonalityError_le_iff`).
-/

set_option autoImplicit false

namespace ProductQuantization

open Float.Model (UnpackedFloat)
open Float.Model.UnpackedFloat
open Procrustes (forall_of_foldl)
open Rounding

/-! ## The larger of two numbers -/

section Greatest

variable {w d x : Float} {ds : List Float}

/-- The larger of a number and something else. -/
theorem maxNumber_cases (hw : w.isNaN = false) (d : Float) :
    maxNumber w d = w ∧ (d.isNaN = false → d ≤ w) ∨
      maxNumber w d = d ∧ d.isNaN = false ∧ w ≤ d := by
  rw [maxNumber, hw]
  cases hd : d.isNaN with
  | true => exact .inl ⟨rfl, fun h => nomatch h⟩
  | false =>
    simp only [Bool.false_eq_true, if_false]
    split
    · rename_i hlt
      rw [lt_iff_ordinal64] at hlt
      exact .inr ⟨rfl, trivial, le_iff_ordinal64.2 ⟨hw, hd, Int.le_of_lt hlt.2.2⟩⟩
    · rename_i hnot
      refine .inl ⟨rfl, fun _ => le_iff_ordinal64.2 ⟨hd, hw, ?_⟩⟩
      exact Int.not_lt.1 fun hlt => hnot (lt_iff_ordinal64.2 ⟨hw, hd, hlt⟩)

/-- The greatest of `w` and those of the others that are numbers. -/
structure Greatest (w : Float) (ds : List Float) (x : Float) : Prop where
  nonNegative : NonNegative64 x
  mem : x = w ∨ x ∈ ds
  start_le : w ≤ x
  le : ∀ d ∈ ds, d.isNaN = false → d ≤ x

theorem greatest_foldl (hw : NonNegative64 w)
    (h : ∀ d ∈ ds, d.isNaN = false → NonNegative64 d) : Greatest w ds (ds.foldl maxNumber w) := by
  induction ds generalizing w with
  | nil => exact ⟨hw, .inl rfl, le_refl64 hw.isNaN_eq, fun _ hd => nomatch hd⟩
  | cons d ds ih =>
    obtain ⟨hd, hds⟩ := List.forall_mem_cons.1 h
    rw [List.foldl_cons]
    rcases maxNumber_cases hw.isNaN_eq d with ⟨hmax, hle⟩ | ⟨hmax, hnumber, hle⟩
    · rw [hmax]
      have hrest := ih hw hds
      refine ⟨hrest.nonNegative, hrest.mem.imp_right (List.mem_cons_of_mem _), hrest.start_le, ?_⟩
      exact List.forall_mem_cons.2 ⟨fun hd => le_trans64 (hle hd) hrest.start_le, hrest.le⟩
    · rw [hmax]
      have hrest := ih (hd hnumber) hds
      refine ⟨hrest.nonNegative, .inr ?_, le_trans64 hle hrest.start_le, ?_⟩
      · exact List.mem_cons.2 hrest.mem
      · exact List.forall_mem_cons.2 ⟨fun _ => hrest.start_le, hrest.le⟩

/-- A bound on the greatest number is one on all of them, also in single precision. -/
theorem Greatest.narrow_le_iff (hx : Greatest w ds x) (hw : NonNegative64 w)
    (h : ∀ d ∈ ds, d.isNaN = false → NonNegative64 d) {e : Float32} :
    narrow x ≤ e ↔ narrow w ≤ e ∧ ∀ d ∈ ds, d.isNaN = false → narrow d ≤ e := by
  constructor
  · intro hxe
    exact ⟨le_trans32 (narrow_le_narrow hw hx.nonNegative hx.start_le) hxe, fun d hmem hd =>
      le_trans32 (narrow_le_narrow (h d hmem hd) hx.nonNegative (hx.le d hmem hd)) hxe⟩
  · rintro ⟨hwe, hds⟩
    rcases hx.mem with rfl | hmem
    · exact hwe
    · exact hds x hmem hx.nonNegative.isNaN_eq

end Greatest

/-! ## Inner products in double precision -/

/-- The inner product of two vectors, summed in double precision. -/
def dotProduct64 (x y : Point) : Float :=
  (x.zip y).foldl (fun s p => s + p.1.toFloat * p.2.toFloat) 0.0

section Products

variable {x y : Point}

theorem isFinite_dotProduct64 (hx : Point.IsFinite x) (hy : Point.IsFinite y) :
    (dotProduct64 x y).isFinite = true := by
  have hbelow : Below 258 (dotProduct64 x y) := by
    refine List.foldlRecOn _ _ (below_zero 258) fun s hs p hp => ?_
    obtain ⟨h1, h2⟩ := List.of_mem_zip hp
    exact hs.add (below_mul_widen (hx _ h1) (hy _ h2)) (by omega)
  exact hbelow.isFinite_eq

/-- **A sum of products is a number only if all factors are.** -/
theorem numbers_of_dotProduct64 (hlen : x.length = y.length)
    (h : (dotProduct64 x y).isNaN = false) :
    (∀ a ∈ x, a.isNaN = false) ∧ ∀ b ∈ y, b.isNaN = false := by
  have hproducts := (forall_of_foldl (P := (·.isNaN = false)) h fun _ _ => isNaN_of_add).2
  have hfactors : ∀ p ∈ x.zip y, p.1.isNaN = false ∧ p.2.isNaN = false := fun p hp => by
    have hp := hproducts p hp
    rw [← Single.isNaN_toFloat, ← Single.isNaN_toFloat]
    exact ⟨isNaN_of_mul hp, isNaN_of_mul (mul_comm64 _ _ ▸ hp)⟩
  constructor
  · intro a ha
    rw [← List.map_fst_zip (Nat.le_of_eq hlen)] at ha
    obtain ⟨p, hp, rfl⟩ := List.mem_map.1 ha
    exact (hfactors p hp).1
  · intro b hb
    rw [← List.map_snd_zip (Nat.le_of_eq hlen.symm)] at hb
    obtain ⟨p, hp, rfl⟩ := List.mem_map.1 hb
    exact (hfactors p hp).2

theorem dotProduct64_self (x : Point) :
    dotProduct64 x x = x.foldl (fun s a => s + a.toFloat * a.toFloat) 0.0 := by
  rw [dotProduct64, List.zip, List.zipWith_self, List.foldl_map]

/-- **A sum of squares of numbers is infinite** unless all of them are finite. -/
theorem isFinite_or_infinity_of_numbers (hx : ∀ a ∈ x, a.isNaN = false) :
    Point.IsFinite x ∨ (dotProduct64 x x).toModel.unpack = .infinity .positive := by
  rw [dotProduct64_self]
  have hsum : NonNegative64 (x.foldl (fun s a => s + a.toFloat * a.toFloat) 0.0) :=
    List.foldlRecOn x _ (.zero .positive) fun s hs a ha =>
      NonNegative64.add hs (nonNegative64_mul_self ((Single.isNaN_toFloat a).trans (hx a ha)))
  refine hsum.isFinite_or.imp_left fun hfinite a ha => ?_
  have hsquares := (forall_of_foldl (P := (·.isFinite = true)) hfinite fun _ _ => isFinite_of_add).2
  exact isFinite_of_widen (isFinite_of_mul (hsquares a ha)).1

end Products

/-! ## The entries -/

namespace Matrix

/-- An entry of `|Rᵀ · R - I|` as it is computed. -/
def gramError (r : Matrix) (i j : Fin r.cols) : Float :=
  (dotProduct64 (r.colAt i) (r.colAt j) - (if i = j then 1.0 else 0.0)).abs

/-- All these entries, row by row. -/
def gramErrors (r : Matrix) : List Float :=
  (List.finRange r.cols).flatMap fun i => (List.finRange r.cols).map fun j => r.gramError i j

theorem mem_gramErrors {r : Matrix} {d : Float} :
    d ∈ r.gramErrors ↔ ∃ i j, r.gramError i j = d := by
  simp [gramErrors]

/-- The numbers of the columns beside them. -/
theorem zipIdx_finRange_map {α : Type} {n : Nat} (f : Fin n → α) :
    ((List.finRange n).map f).zipIdx = (List.finRange n).map fun i => (f i, i.val) :=
  List.ext_getElem (by simp) fun i h1 h2 => by simp

end Matrix

/-- The largest entry, rounded to single precision. -/
theorem orthogonalityError_eq (r : Matrix) :
    orthogonalityError r = narrow (r.gramErrors.foldl maxNumber 0.0) := by
  rw [orthogonalityError, Matrix.gramErrors, List.foldl_flatMap]
  simp only [Matrix.zipIdx_finRange_map, List.foldl_map, List.zip_map, Matrix.gramError,
    dotProduct64, Fin.ext_iff]
  rfl

/-! ## What a bound says -/

/-- A difference is a number only if what something is taken from is one. -/
theorem isNaN_of_sub {x y : Float} (h : (x - y).isNaN = false) : x.isNaN = false := by
  rw [sub_eq_add_neg64] at h
  exact (isNaN_of_add h).1

/-- What is finite does not bring infinity down. -/
theorem unpack_sub_of_infinity {x y : Float} (hx : x.toModel.unpack = .infinity .positive)
    (hy : y.isFinite = true) : (x - y).toModel.unpack = .infinity .positive := by
  have hsub : UnpackedFloat.sub .binary64 x.toModel.unpack y.toModel.unpack
      = .infinity .positive := by
    have hfinite : y.toModel.unpack.isFinite = true := hy
    rw [hx]
    obtain ⟨s, hs⟩ | ⟨s, m, e, hm, hs⟩ := zero_or_finite hfinite <;> rw [hs] <;> rfl
  exact (congrArg (fun u => unpack .binary64 (pack .binary64 u)) hsub).trans
    (unpack_packedInfinity .positive)

namespace Matrix

variable {r : Matrix} {i j : Fin r.cols}

/-- Only columns of numbers have an entry that is a number. -/
theorem numbers_of_gramError (h : (r.gramError i j).isNaN = false) :
    (∀ a ∈ r.colAt i, a.isNaN = false) ∧ ∀ a ∈ r.colAt j, a.isNaN = false := by
  have hlen : (r.colAt i).length = (r.colAt j).length :=
    List.length_ofFn.trans List.length_ofFn.symm
  exact numbers_of_dotProduct64 hlen (isNaN_of_sub ((isNaN_abs64 _).symm.trans h))

theorem nonNegative64_gramError (h : (r.gramError i j).isNaN = false) :
    NonNegative64 (r.gramError i j) := nonNegative64_abs ((isNaN_abs64 _).symm.trans h)

/-- Finite columns have an entry that is a number. -/
theorem isNaN_gramError (hi : Point.IsFinite (r.colAt i)) (hj : Point.IsFinite (r.colAt j)) :
    (r.gramError i j).isNaN = false := by
  have htarget : (if i = j then 1.0 else 0.0 : Float).isFinite = true := by
    split <;> rfl
  rw [gramError, isNaN_abs64]
  exact (isNaN_unpack_pack _).trans (Unpacked.isNaN_sub (isFinite_dotProduct64 hi hj) htarget)

/-- **A bound on the square of a column of numbers bounds the numbers.** -/
theorem isFinite_of_gramError_le {e : Float32} (he : e.isFinite = true)
    (hj : ∀ a ∈ r.colAt j, a.isNaN = false)
    (h : (r.gramError j j).isNaN = false → narrow (r.gramError j j) ≤ e) :
    Point.IsFinite (r.colAt j) := by
  refine (isFinite_or_infinity_of_numbers hj).resolve_right fun hdot => ?_
  have hinfinity : (r.gramError j j).toModel.unpack = .infinity .positive := by
    rw [gramError, if_pos rfl, unpack_abs, unpack_sub_of_infinity hdot rfl]
    rfl
  have hnumber : (r.gramError j j).isNaN = false := by
    show (r.gramError j j).toModel.unpack.isNaN = false
    rw [hinfinity]
    rfl
  exact not_narrow_le_of_infinity hinfinity he (h hnumber)

end Matrix

/-- A bound on the error is one on every entry that is a number. -/
theorem orthogonalityError_le_iff_gramErrors (r : Matrix) (e : Float32) :
    orthogonalityError r ≤ e ↔
      0 ≤ e ∧ ∀ i j, (r.gramError i j).isNaN = false → narrow (r.gramError i j) ≤ e := by
  have hstart : NonNegative64 0.0 := .zero .positive
  have hentries : ∀ d ∈ r.gramErrors, d.isNaN = false → NonNegative64 d := fun d hd => by
    obtain ⟨i, j, rfl⟩ := Matrix.mem_gramErrors.1 hd
    exact Matrix.nonNegative64_gramError
  rw [orthogonalityError_eq, (greatest_foldl hstart hentries).narrow_le_iff hstart hentries]
  refine and_congr Iff.rfl ⟨fun h i j => h _ (Matrix.mem_gramErrors.2 ⟨i, j, rfl⟩), ?_⟩
  rintro h d hd
  obtain ⟨i, j, rfl⟩ := Matrix.mem_gramErrors.1 hd
  exact h i j

/-- Columns of numbers are bounded, and the others do not count. -/
theorem orthogonalityError_le_iff_columns (r : Matrix) {e : Float32} (he : e.isFinite = true) :
    orthogonalityError r ≤ e ↔ 0 ≤ e ∧
      (∀ j, (∀ a ∈ r.colAt j, a.isNaN = false) → Point.IsFinite (r.colAt j)) ∧
      ∀ i j, (∀ a ∈ r.colAt i, a.isNaN = false) → (∀ a ∈ r.colAt j, a.isNaN = false) →
        narrow (r.gramError i j) ≤ e := by
  rw [orthogonalityError_le_iff_gramErrors]
  refine and_congr_right fun _ => ⟨fun h => ?_, fun ⟨_, h⟩ i j hnumber => ?_⟩
  · have hfinite : ∀ j, (∀ a ∈ r.colAt j, a.isNaN = false) → Point.IsFinite (r.colAt j) :=
      fun j hj => Matrix.isFinite_of_gramError_le he hj (h j j)
    exact ⟨hfinite, fun i j hi hj => h i j (Matrix.isNaN_gramError (hfinite i hi) (hfinite j hj))⟩
  · obtain ⟨hi, hj⟩ := Matrix.numbers_of_gramError hnumber
    exact h i j hi hj

/-- **What a finite bound on the orthogonality error says.**  It bounds the entries of
`|Rᵀ · R - I|` that belong to columns of numbers, and the numbers in these columns are finite.  Of a
column that holds something that is not a number it says nothing.  So it bounds all entries of a
matrix that has only numbers, and all of these are finite. -/
theorem orthogonalityError_le_iff (r : Matrix) {e : Float32} (he : e.isFinite = true) :
    (orthogonalityError r ≤ e ↔ 0 ≤ e ∧
      (∀ j, (∀ a ∈ r.colAt j, a.isNaN = false) → Point.IsFinite (r.colAt j)) ∧
      ∀ i j, (∀ a ∈ r.colAt i, a.isNaN = false) → (∀ a ∈ r.colAt j, a.isNaN = false) →
        narrow (r.gramError i j) ≤ e) ∧
    (r.AllNumbers → (orthogonalityError r ≤ e ↔
      0 ≤ e ∧ r.AllFinite ∧ ∀ i j, narrow (r.gramError i j) ≤ e)) := by
  have hcolumns := orthogonalityError_le_iff_columns r he
  refine ⟨hcolumns, fun hnumbers => hcolumns.trans (and_congr_right fun _ => and_congr ?_ ?_)⟩
  · exact ⟨fun h => Matrix.all_of_colAt fun j => h j (hnumbers.colAt j), fun h j _ => h.colAt j⟩
  · exact ⟨fun h i j => h i j (hnumbers.colAt i) (hnumbers.colAt j), fun h i j _ _ => h i j⟩

/-- A single entry that is not a number has no error at all, and one that is a number and has no
error is finite. -/
theorem orthogonalityError_le_iff_nan : (0 : Float32).isFinite = true ∧
    orthogonalityError (.stack 1 [[.nan]]) ≤ 0 ∧
    (Matrix.stack 1 [[.one]]).AllNumbers ∧ (Matrix.stack 1 [[.one]]).AllFinite := by
  have he : (0 : Float32).isFinite = true := rfl
  have hnan : ∀ j, Single.nan ∈ (Matrix.stack 1 [[.nan]]).colAt j := by decide
  have hnone : ∀ j, ¬ ∀ a ∈ (Matrix.stack 1 [[.nan]]).colAt j, a.isNaN = false := fun j h =>
    absurd (h _ (hnan j)) (by decide)
  have hnumbers : (Matrix.stack 1 [[.one]]).AllNumbers := by
    intro x hx
    rw [List.mem_singleton.1 hx]
    rfl
  have hone : orthogonalityError (.stack 1 [[.one]]) ≤ 0 := by decide +kernel
  refine ⟨he, ?_, hnumbers, (((orthogonalityError_le_iff _ he).2 hnumbers).1 hone).2.1⟩
  exact (orthogonalityError_le_iff _ he).1.2
    ⟨by decide, fun j hj => absurd hj (hnone j), fun i _ hi => absurd hi (hnone i)⟩

end ProductQuantization
