import ProductQuantization.Proofs.Number.Multiples
import ProductQuantization.Proofs.Rotation.NonFiniteData
import ProductQuantization.Proofs.Rotation.ScaledSweeps

/-!
# The scale of the data

Multiplying `X` by one power of two and `Y` by another multiplies `Xᵀ · Y` by the product of the two,
always: products of numbers of single precision and sums of those are never too small or too large
for double precision (`scaled_crossCovariance`).  What comes after need not go along with it, since
there the entries are squared, and squares of squares are multiplied.  If no sum or product is out of
range (`FactorsInRange`), the factors are the same for both (`alike_svd`), and so is the rotation
(`procrustes_eq_of_scaled`).
-/

set_option autoImplicit false

namespace ProductQuantization

namespace Svd

variable {n : Nat} {k : Int} {frame frame' : Frame n}

/-! ## The end of the factorization -/

theorem norm_eq (a : Column) : norm a = Float.sqrt (sumOfProducts (-0.0) (squares a)) :=
  congrArg Float.sqrt (sumOfProducts_squares a)

theorem scaled_norm {a a' : Column} (ha : List.Forall₂ (Scaled k) a a')
    (h : SumInRange (-0.0) (squares a)) (h' : SumInRange (-0.0) (squares a')) :
    Scaled k (norm a) (norm a') := by
  rw [norm_eq, norm_eq]
  exact (scaled_sumOfProducts (forall₂_squares ha) (scaled_neg_zero _) h h').sqrt
    (nonNegative64_sumOfProducts (.zero .negative) h)

/-- The lengths of the columns are in range, and so is the rank tolerance, which is made from the
largest of them. -/
structure NormsInRange (frame : Frame n) : Prop where
  lengths : ∀ j, SumInRange (-0.0) (squares (frame.work.get j))
  tolerance : ∀ j, (∀ i, (norms frame).get i ≤ (norms frame).get j) →
    MulInRange ((norms frame).get j) (Float.ofNat n) ∧
      MulInRange ((norms frame).get j * Float.ofNat n) epsilon

instance (frame : Frame n) : Decidable (NormsInRange frame) :=
  decidable_of_iff ((∀ j, SumInRange (-0.0) (squares (frame.work.get j))) ∧
      ∀ j, (∀ i, (norms frame).get i ≤ (norms frame).get j) →
        MulInRange ((norms frame).get j) (Float.ofNat n) ∧
          MulInRange ((norms frame).get j * Float.ofNat n) epsilon)
    ⟨fun h => ⟨h.1, h.2⟩, fun h => ⟨h.1, h.2⟩⟩

/-- The largest length is one of them. -/
theorem NormsInRange.largest (h : NormsInRange frame)
    (hnumber : ∀ j, ((norms frame).get j).isNaN = false) (hn : 0 < n) :
    MulInRange (largest frame) (Float.ofNat n) ∧
      MulInRange (largest frame * Float.ofNat n) epsilon := by
  obtain ⟨j, hj, hmax⟩ := exists_largest frame hn
  rw [hj]
  exact h.tolerance j fun i => le_of_rank64_le (hnumber i) (hnumber j) (hmax i)

section

variable (hframe : ScaledFrame k frame frame') (h : NormsInRange frame) (h' : NormsInRange frame')

include hframe h h'

theorem scaled_norms (j : Fin n) : Scaled k ((norms frame).get j) ((norms frame').get j) := by
  rw [get_norms, get_norms]
  exact scaled_norm (hframe.work j) (h.lengths j) (h'.lengths j)

/-- **The order of the columns does not depend on the scale.** -/
theorem order_eq_of_scaled : order frame' = order frame := by
  have hnorms := scaled_norms hframe h h'
  rw [order, order]
  refine congrArg _ (funext fun i => funext fun j => decide_eq_decide.2 ?_)
  exact (hnorms j).shifted.rank64_le_iff (hnorms i).shifted (hnorms j).isNaN_eq (hnorms i).isNaN_eq

theorem scaled_rankTolerance (hn : 0 < n) : Scaled k (rankTolerance frame) (rankTolerance frame') := by
  have hnorms := scaled_norms hframe h h'
  have hlargest : Scaled k (largest frame) (largest frame') := by
    have hvalues : List.Forall₂ (Scaled k) ((order frame).map fun j => (norms frame).get j)
        ((order frame').map fun j => (norms frame').get j) := by
      rw [order_eq_of_scaled hframe h h']
      exact forall₂_map_same hnorms
    rw [largest, largest]
    generalize (order frame).map (fun j => (norms frame).get j) = values,
      (order frame').map (fun j => (norms frame').get j) = values' at hvalues
    cases hvalues with
    | nil => exact scaled_zero k
    | cons hx _ => exact hx
  obtain ⟨hcount, hepsilon⟩ := h.largest (fun j => (hnorms j).isNaN_eq) hn
  obtain ⟨hcount', hepsilon'⟩ := h'.largest (fun j => (hnorms j).symm.isNaN_eq) hn
  exact (hlargest.mul_const hcount hcount').mul_const hepsilon hepsilon'

/-- **Which columns count as zero does not depend on the scale**, nor does the unit vector that is
made of any other. -/
theorem seed_eq_of_scaled : seed frame' = seed frame := by
  funext j
  have hnorm := scaled_norms hframe h h' j
  have htolerance := scaled_rankTolerance hframe h h' (Nat.zero_lt_of_lt j.isLt)
  have hdivide : divideBy (frame.work.get j) ((norms frame).get j)
      = divideBy (frame'.work.get j) ((norms frame').get j) :=
    map_eq_map_of_forall₂ (fun _ _ hx => (hx.shifted.div_eq hnorm.shifted).symm) (hframe.work j)
  have hlong : (norms frame').get j > rankTolerance frame' ∧ (norms frame').get j > 0.0 ↔
      (norms frame).get j > rankTolerance frame ∧ (norms frame).get j > 0.0 :=
    and_congr (htolerance.shifted.lt_iff hnorm.shifted) ((shifted_zero k).lt_iff hnorm.shifted)
  rw [seed, seed, hdivide, if_congr hlong rfl rfl]

end

/-- Factors with the same columns; the singular values may differ. -/
structure SameColumns (s s' : Svd) : Prop where
  n : s'.n = s.n
  left : s'.left = s.left
  right : s'.right = s.right

theorem sameColumns_ofFrame (hframe : ScaledFrame k frame frame') (h : NormsInRange frame)
    (h' : NormsInRange frame') : SameColumns (ofFrame frame) (ofFrame frame') := by
  rw [ofFrame_eq, ofFrame_eq, order_eq_of_scaled hframe h h', seed_eq_of_scaled hframe h h',
    hframe.turns]
  exact ⟨rfl, rfl, rfl⟩

/-! ## The factorization -/

section

variable {a a' : Array Float}

/-- No sum and no product is out of range when the matrix is factored. -/
structure FactorsInRange (a : Array Float) (n : Nat) : Prop where
  entries : SumInRange (-0.0) (squares a.toList)
  norm_floor : MulInRange (epsilon * epsilon) (frobenius a)
  gamma_floor : MulInRange (Float.ofNat n * epsilon) (frobenius a)
  sweeps : SweepsInRange (floors n (frobenius a)) maxSweeps (start a n)
  norms : ∀ frame ∈ Svd.sweeps (floors n (frobenius a)) maxSweeps (start a n), NormsInRange frame

instance (a : Array Float) (n : Nat) : Decidable (FactorsInRange a n) :=
  decidable_of_iff (SumInRange (-0.0) (squares a.toList) ∧
      MulInRange (epsilon * epsilon) (frobenius a) ∧
      MulInRange (Float.ofNat n * epsilon) (frobenius a) ∧
      SweepsInRange (floors n (frobenius a)) maxSweeps (start a n) ∧
      ∀ frame ∈ sweeps (floors n (frobenius a)) maxSweeps (start a n), NormsInRange frame)
    ⟨fun h => ⟨h.1, h.2.1, h.2.2.1, h.2.2.2.1, h.2.2.2.2⟩, fun h => ⟨h.1, h.2, h.3, h.4, h.5⟩⟩

theorem scaled_frobenius (ha : List.Forall₂ (Scaled k) a.toList a'.toList)
    (h : SumInRange (-0.0) (squares a.toList)) (h' : SumInRange (-0.0) (squares a'.toList)) :
    Scaled (k + k) (frobenius a) (frobenius a') := by
  rw [frobenius, frobenius, sumOfProducts_squares, sumOfProducts_squares]
  exact scaled_sumOfProducts (forall₂_squares ha) (scaled_neg_zero _) h h'

theorem scaled_floors (ha : List.Forall₂ (Scaled k) a.toList a'.toList) (h : FactorsInRange a n)
    (h' : FactorsInRange a' n) :
    ScaledFloors (k + k) (floors n (frobenius a)) (floors n (frobenius a')) :=
  have hfrobenius := scaled_frobenius ha h.entries h'.entries
  ⟨hfrobenius.const_mul h.norm_floor h'.norm_floor,
    hfrobenius.const_mul h.gamma_floor h'.gamma_floor⟩

theorem scaled_getD (ha : List.Forall₂ (Scaled k) a.toList a'.toList) (i : Nat) :
    Scaled k (a.getD i 0.0) (a'.getD i 0.0) := by
  rw [Array.getD_eq_getD_getElem?, Array.getD_eq_getD_getElem?, ← Array.getElem?_toList,
    ← Array.getElem?_toList]
  obtain ⟨hx, hx'⟩ | ⟨x, x', hx, hx', hscaled⟩ := getElem?_of_forall₂ ha i
  · rw [hx, hx']
    exact scaled_zero k
  · rw [hx, hx']
    exact hscaled

theorem scaledFrame_start (ha : List.Forall₂ (Scaled k) a.toList a'.toList) :
    ScaledFrame k (start a n) (start a' n) := by
  refine ⟨fun j => ?_, rfl⟩
  rw [get_start_work, get_start_work]
  exact forall₂_map_same fun i => scaled_getD ha _

theorem all_isFinite_of_scaled (ha : List.Forall₂ (Scaled k) a.toList a'.toList) :
    a.all (·.isFinite) = true := by
  rw [← Array.all_toList, List.all_eq_true]
  generalize a.toList = xs, a'.toList = xs' at ha
  induction ha with
  | nil => exact fun _ hx => nomatch hx
  | cons hx _ ih => exact List.forall_mem_cons.2 ⟨hx.isFinite_eq, ih⟩

/-- **The factors of a scaled matrix have the same columns**, or neither is factored. -/
theorem alike_svd (ha : List.Forall₂ (Scaled k) a.toList a'.toList) (hsize : a.size = n * n)
    (h : FactorsInRange a n) (h' : FactorsInRange a' n) :
    Alike SameColumns (svd a n) (svd a' n) := by
  have hsize' : a'.size = n * n := by
    rw [← hsize, ← Array.length_toList, ← Array.length_toList, ha.length_eq]
  have hback : List.Forall₂ (Scaled (-k)) a'.toList a.toList :=
    (ha.imp fun _ _ hx => hx.symm).flip
  rw [svd_eq hsize (all_isFinite_of_scaled ha), svd_eq hsize' (all_isFinite_of_scaled hback)]
  have hnorms := h.norms
  have hnorms' := h'.norms
  have hrel := rel_sweeps (scaled_floors ha h h') (scaledFrame_start ha) h.sweeps h'.sweeps
  generalize Svd.sweeps (floors n (frobenius a)) maxSweeps (start a n) = answer,
    Svd.sweeps (floors n (frobenius a')) maxSweeps (start a' n) = answer' at hrel hnorms hnorms'
  cases hrel with
  | none => exact .error _
  | some hframe => exact .ok (sameColumns_ofFrame hframe (hnorms _ rfl) (hnorms' _ rfl))

end

end Svd

/-! ## The product `Xᵀ · Y` -/

namespace Procrustes

variable {n d : Nat} {top : Int} {k l : Int} {s s' t t' : Float}

/-- A sum of products of numbers of single precision: it has no digit that is too small for it, and
its last digit is not too large. -/
structure Gathered (top : Int) (s : Float) : Prop where
  multiple : MultipleOf (-298) s
  below : Below top s

theorem gathered_zero (top : Int) : Gathered top 0.0 := ⟨multipleOf_zero _, below_zero top⟩

theorem Gathered.add (hs : Gathered top s) (ht : Gathered (top - 54) t) (htop : top ≤ 971) :
    Gathered top (s + t) :=
  have hbelow := hs.below.add ht.below htop
  ⟨hs.multiple.add ht.multiple hbelow.isFinite_eq, hbelow⟩

theorem Gathered.inRange (hs : Gathered top s) : InRange s :=
  hs.multiple.inRange (by decide) hs.below.isFinite_eq

/-- Two such sums, the one scaled against the other. -/
structure ScaledSum (top k : Int) (s s' : Float) : Prop where
  scaled : Scaled k s s'
  left : Gathered top s
  right : Gathered top s'

theorem ScaledSum.add (hs : ScaledSum top k s s') (ht : ScaledSum (top - 54) k t t')
    (htop : top ≤ 971) : ScaledSum top k (s + t) (s' + t') :=
  have hleft := hs.left.add ht.left htop
  have hright := hs.right.add ht.right htop
  ⟨hs.scaled.add ht.scaled hleft.inRange hright.inRange, hleft, hright⟩

theorem scaledSum_mul {x x' y y' : Single} (hx : Single.Scaled k x x') (hy : Single.Scaled l y y') :
    ScaledSum 204 (k + l) (x.toFloat * y.toFloat) (x'.toFloat * y'.toFloat) where
  scaled := hx.toFloat.shifted.mul hy.toFloat (hx.mulInRange hy) (hx.symm.mulInRange hy.symm)
  left := ⟨hx.multipleOf_mul hy, below_mul_widen hx.isFinite hy.isFinite⟩
  right := ⟨hx.symm.multipleOf_mul hy.symm, below_mul_widen hx.symm.isFinite hy.symm.isFinite⟩

theorem ScaledSum.addProduct {x x' y y' : Single} (hs : ScaledSum 258 (k + l) s s')
    (hx : Single.Scaled k x x') (hy : Single.Scaled l y y') :
    ScaledSum 258 (k + l) (addProduct s x y) (addProduct s' x' y') := by
  rw [Procrustes.addProduct, Procrustes.addProduct, hx.beq_zero_eq]
  split
  · exact hs
  · exact hs.add (scaledSum_mul hx hy) (by decide)

/-- **The entries of `Xᵀ · Y` scale.** -/
theorem scaled_covariance {a a' b b' : Fin n → Single} (ha : ∀ r, Single.Scaled k (a r) (a' r))
    (hb : ∀ r, Single.Scaled l (b r) (b' r)) :
    Scaled (k + l) (covariance a b) (covariance a' b') := by
  have hzero : ∀ top, ScaledSum top (k + l) 0.0 0.0 := fun top =>
    ⟨scaled_zero _, gathered_zero top, gathered_zero top⟩
  have hpart : ∀ rows, ScaledSum 258 (k + l) (partialSum a b rows) (partialSum a' b' rows) :=
    fun rows => List.foldl_rel (hzero 258) fun r _ _ _ hs => hs.addProduct (ha r) (hb r)
  rw [covariance, covariance, List.foldl_map, List.foldl_map]
  have htotal := List.foldl_rel (l := blocks blockRows blockRows_pos (List.finRange n))
    (f := fun s rows => s + partialSum a b rows) (g := fun s rows => s + partialSum a' b' rows)
    (hzero 312) fun rows _ _ _ hs => hs.add (hpart rows) (by decide)
  exact htotal.scaled

end Procrustes

open Svd Procrustes

/-- The same shape, and entries `2 ^ k` times as large that have all the digits of single precision. -/
inductive Matrix.Scaled (k : Int) : Matrix → Matrix → Prop where
  | ofFn {n d : Nat} {f f' : Fin n → Fin d → Single} (h : ∀ i j, Single.Scaled k (f i j) (f' i j)) :
      Scaled k (.ofFn n d f) (.ofFn n d f')

section

variable {x x' y y' : Matrix} {k l : Int}

theorem Matrix.Scaled.shape (h : x.Scaled k x') : x'.rows = x.rows ∧ x'.cols = x.cols := by
  cases h with
  | ofFn h => exact ⟨rfl, rfl⟩

/-- **The product of scaled matrices is scaled**, whatever the scale. -/
theorem scaled_crossCovariance (hx : x.Scaled k x') (hy : y.Scaled l y') (hrows : x.rows = y.rows)
    (hcols : x.cols = y.cols) :
    List.Forall₂ (Scaled (k + l)) (crossCovariance x y).flatten (crossCovariance x' y').flatten := by
  cases hx with
  | @ofFn n d f f' hf =>
  cases hy with
  | @ofFn n' d' g g' hg =>
  obtain rfl : n = n' := hrows
  obtain rfl : d = d' := hcols
  rw [crossCovariance_ofFn, crossCovariance_ofFn]
  refine List.rel_flatten (forall₂_ofFn fun i => forall₂_ofFn fun j => ?_)
  exact scaled_covariance (fun r => hf r i) (fun r => hg r j)

/-- No sum and no product is out of range when the rotation is looked for. -/
def ProcrustesInRange (x y : Matrix) : Prop :=
  FactorsInRange (crossCovariance x y).flatten.toArray x.cols

instance (x y : Matrix) : Decidable (ProcrustesInRange x y) :=
  inferInstanceAs (Decidable (FactorsInRange _ _))

theorem productOfFactors_eq_of_sameColumns {s s' : Svd} (h : SameColumns s s') :
    productOfFactors s' = productOfFactors s := by
  rw [productOfFactors, productOfFactors, h.n, h.left, h.right]

/-- Matrices whose shapes do not fit are refused before anything is computed. -/
theorem procrustes_eq_of_shape (hx : x.Scaled k x') (hy : y.Scaled l y')
    (h : ¬ (x.rows = y.rows ∧ x.cols = y.cols)) : procrustes x' y' = procrustes x y := by
  obtain ⟨hrows, hcols⟩ := hx.shape
  obtain ⟨hrows', hcols'⟩ := hy.shape
  by_cases hc : x.cols = y.cols
  · have hr : ¬ x.rows = y.rows := fun hr => h ⟨hr, hc⟩
    rw [procrustes, procrustes, hrows, hcols, hrows', hcols', decide_eq_false hr]
    simp only [Result.guard_false, error_bind]
  · rw [procrustes, procrustes, hcols, hcols', decide_eq_false hc]
    simp only [Result.guard_false, error_bind]

/-- **The rotation does not depend on the scale of the data**, if no sum or product is out of range
for either.  `Xᵀ · Y` goes along with the scale in any case. -/
theorem procrustes_eq_of_scaled (hx : x.Scaled k x') (hy : y.Scaled l y') :
    (x.rows = y.rows → x.cols = y.cols → List.Forall₂ (Scaled (k + l))
      (crossCovariance x y).flatten (crossCovariance x' y').flatten) ∧
    (ProcrustesInRange x y → ProcrustesInRange x' y' → procrustes x' y' = procrustes x y) := by
  refine ⟨scaled_crossCovariance hx hy, fun h h' => ?_⟩
  by_cases hshape : x.rows = y.rows ∧ x.cols = y.cols
  · obtain ⟨hr, hc⟩ := hshape
    obtain ⟨hrows, hcols⟩ := hx.shape
    obtain ⟨hrows', hcols'⟩ := hy.shape
    rw [procrustes_eq_svd hc hr, procrustes_eq_svd (hcols.trans (hc.trans hcols'.symm))
      (hrows.trans (hr.trans hrows'.symm)), hcols]
    rw [ProcrustesInRange, hcols] at h'
    have hsvd := alike_svd (scaled_crossCovariance hx hy hr hc)
      (isSquare_crossCovariance hc).size_flatten h h'
    exact (Alike.bind_same _ fun _ => hsvd.bind fun s s' hs =>
      .ok (productOfFactors_eq_of_sameColumns hs).symm).eq.symm
  · exact procrustes_eq_of_shape hx hy hshape

/-- Two columns that are not orthogonal, once with entries just below two and once with entries just
below `2 ^ 127`. -/
theorem procrustes_eq_of_scaled_large :
    let x (b : UInt32) : Matrix := .ofFn 2 2 fun i j => if i = j then ⟨b⟩ else .zero
    let y (b : UInt32) : Matrix := .ofFn 2 2 fun i j => if i ≤ j then ⟨b⟩ else .zero
    ProcrustesInRange (x 0x3ff80000) (y 0x3ff80000) ∧
      ProcrustesInRange (x 0x7ef80000) (y 0x7ef80000) ∧
      (procrustes (x 0x3ff80000) (y 0x3ff80000)).isOk = true ∧
      procrustes (x 0x7ef80000) (y 0x7ef80000) = procrustes (x 0x3ff80000) (y 0x3ff80000) := by
  intro x y
  have hone : Single.Scaled 126 ⟨0x3ff80000⟩ ⟨0x7ef80000⟩ := .finite .positive (by decide) rfl
  have hzero : Single.Scaled 126 .zero .zero := .zero .positive
  have hx : (x 0x3ff80000).Scaled 126 (x 0x7ef80000) := .ofFn fun i j => by
    split
    · exact hone
    · exact hzero
  have hy : (y 0x3ff80000).Scaled 126 (y 0x7ef80000) := .ofFn fun i j => by
    split
    · exact hone
    · exact hzero
  have h : ProcrustesInRange (x 0x3ff80000) (y 0x3ff80000) := by decide +kernel
  have h' : ProcrustesInRange (x 0x7ef80000) (y 0x7ef80000) := by decide +kernel
  exact ⟨h, h', by decide +kernel, (procrustes_eq_of_scaled hx hy).2 h h'⟩

/-- For numbers twice as large the product of two squared lengths is too large. -/
example : ¬ ProcrustesInRange (.ofFn 2 2 fun i j => if i = j then ⟨0x7f780000⟩ else .zero)
    (.ofFn 2 2 fun i j => if i ≤ j then ⟨0x7f780000⟩ else .zero) := by decide +kernel

end

end ProductQuantization
