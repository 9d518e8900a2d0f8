import ProductQuantization.Proofs.Number.Scaling
import ProductQuantization.Proofs.Rotation.Frames
import ProductQuantization.Proofs.SideBySide

/-!
# Sweeps over scaled columns

If all columns are multiplied by a power of two, each rotation is the same as before: the lengths and
inner products are multiplied by the square of that power, and so are the floors they are compared
with, while the tangent is a quotient (`tangent_eq`).  So two frames that differ by a power of two
differ by it after all sweeps (`rel_sweeps`), as long as the format has an exponent for every sum and
product on the way.

That condition is a condition on a run: `SumInRange` on the sums, `PairInRange` on what is done about
a pair of columns, `SweepsInRange` on all of it.  A product that is not formed does not count: the
product of two squared lengths, for one, is only formed if no other test has been passed.  Where it is
formed and too large for the format, the pair is left as it is, orthogonal or not
(`settled_of_infinity`).
-/

set_option autoImplicit false

namespace ProductQuantization

open Rounding

namespace Svd

variable {n : Nat} {k l : Int}

/-! ## Sums of products -/

/-- The products of some pairs, added to `z` in order. -/
def sumOfProducts (z : Float) (ps : List (Float × Float)) : Float :=
  ps.foldl (fun s p => s + p.1 * p.2) z

/-- Each number beside itself. -/
def squares (a : List Float) : List (Float × Float) := a.map fun x => (x, x)

/-- No product and no partial sum is out of range. -/
def SumInRange : Float → List (Float × Float) → Prop
  | _, [] => True
  | z, p :: ps => MulInRange p.1 p.2 ∧ InRange (z + p.1 * p.2) ∧ SumInRange (z + p.1 * p.2) ps

instance decidableSumInRange :
    (z : Float) → (ps : List (Float × Float)) → Decidable (SumInRange z ps)
  | _, [] => instDecidableTrue
  | z, p :: ps =>
    have := decidableSumInRange (z + p.1 * p.2) ps
    inferInstanceAs (Decidable (_ ∧ _ ∧ _))

/-- Two pairs, the parts of the one scaled against those of the other. -/
def ScaledPair (k l : Int) (p p' : Float × Float) : Prop := Scaled k p.1 p'.1 ∧ Scaled l p.2 p'.2

/-- **Sums of products scale**, if they are in range. -/
theorem scaled_sumOfProducts {ps ps' : List (Float × Float)} {z z' : Float}
    (hps : List.Forall₂ (ScaledPair k l) ps ps') (hz : Scaled (k + l) z z') (h : SumInRange z ps)
    (h' : SumInRange z' ps') : Scaled (k + l) (sumOfProducts z ps) (sumOfProducts z' ps') := by
  induction hps generalizing z z' with
  | nil => exact hz
  | cons hp _ ih =>
    obtain ⟨hproduct, hsum, hrest⟩ := h
    obtain ⟨hproduct', hsum', hrest'⟩ := h'
    exact ih (hz.add (hp.1.shifted.mul hp.2 hproduct hproduct') hsum hsum') hrest hrest'

theorem forall₂_squares {a a' : List Float} (h : List.Forall₂ (Scaled k) a a') :
    List.Forall₂ (ScaledPair k k) (squares a) (squares a') := by
  rw [squares, squares, List.forall₂_map_left_iff, List.forall₂_map_right_iff]
  exact h.imp fun _ _ hx => ⟨hx, hx⟩

theorem sumOfProducts_squares (a : List Float) :
    sumInOrder (a.map fun x => x * x) = sumOfProducts (-0.0) (squares a) := by
  rw [sumInOrder, List.foldl_map, sumOfProducts, squares, List.foldl_map]

theorem scaled_neg_zero (k : Int) : Scaled k (-0.0) (-0.0) := scaled_of_zero rfl rfl

theorem nonNegative64_sumOfProducts {a : List Float} {z : Float} (hz : NonNegative64 z)
    (h : SumInRange z (squares a)) : NonNegative64 (sumOfProducts z (squares a)) := by
  induction a generalizing z with
  | nil => exact hz
  | cons x a ih =>
    obtain ⟨hproduct, -, hrest⟩ := h
    have hx : x.isNaN = false :=
      isNaN_of_mul (isNaN_of_isFinite (u := (x * x).toModel.unpack) hproduct.inRange.isFinite_eq)
    exact ih (hz.add (nonNegative64_mul_self hx)) hrest

/-! ## Two columns -/

variable {a b a' b' : Column} {p p' : Products} {f f' : Floors}

theorem products_eq (a b : Column) : products a b =
    ⟨sumOfProducts 0.0 (squares ((a.zip b).map Prod.fst)),
      sumOfProducts 0.0 (squares ((a.zip b).map Prod.snd)), sumOfProducts 0.0 (a.zip b)⟩ := by
  have halpha : (products a b).alpha = sumOfProducts 0.0 (squares ((a.zip b).map Prod.fst)) := by
    rw [sumOfProducts, squares, List.foldl_map, List.foldl_map]
    exact (List.foldl_hom Products.alpha fun _ _ => rfl).symm
  have hbeta : (products a b).beta = sumOfProducts 0.0 (squares ((a.zip b).map Prod.snd)) := by
    rw [sumOfProducts, squares, List.foldl_map, List.foldl_map]
    exact (List.foldl_hom Products.beta fun _ _ => rfl).symm
  have hgamma : (products a b).gamma = sumOfProducts 0.0 (a.zip b) := by
    rw [sumOfProducts]
    exact (List.foldl_hom Products.gamma fun _ _ => rfl).symm
  rw [← halpha, ← hbeta, ← hgamma]

/-- The lengths and the inner product of two columns are in range. -/
structure ProductsInRange (a b : Column) : Prop where
  alpha : SumInRange 0.0 (squares ((a.zip b).map Prod.fst))
  beta : SumInRange 0.0 (squares ((a.zip b).map Prod.snd))
  gamma : SumInRange 0.0 (a.zip b)

instance (a b : Column) : Decidable (ProductsInRange a b) :=
  decidable_of_iff (SumInRange 0.0 (squares ((a.zip b).map Prod.fst)) ∧
      SumInRange 0.0 (squares ((a.zip b).map Prod.snd)) ∧ SumInRange 0.0 (a.zip b))
    ⟨fun h => ⟨h.1, h.2.1, h.2.2⟩, fun h => ⟨h.1, h.2, h.3⟩⟩

/-- Lengths and inner products that are scaled; lengths are not negative. -/
structure ScaledProducts (k : Int) (p p' : Products) : Prop where
  alpha : Scaled k p.alpha p'.alpha
  beta : Scaled k p.beta p'.beta
  gamma : Scaled k p.gamma p'.gamma
  alpha_nonneg : NonNegative64 p.alpha
  beta_nonneg : NonNegative64 p.beta

theorem scaled_products (ha : List.Forall₂ (Scaled k) a a') (hb : List.Forall₂ (Scaled k) b b')
    (h : ProductsInRange a b) (h' : ProductsInRange a' b') :
    ScaledProducts (k + k) (products a b) (products a' b') := by
  have hzip : List.Forall₂ (ScaledPair k k) (a.zip b) (a'.zip b') := forall₂_zip ha hb
  have hfst : List.Forall₂ (Scaled k) ((a.zip b).map Prod.fst) ((a'.zip b').map Prod.fst) := by
    rw [List.forall₂_map_left_iff, List.forall₂_map_right_iff]
    exact hzip.imp fun _ _ hp => hp.1
  have hsnd : List.Forall₂ (Scaled k) ((a.zip b).map Prod.snd) ((a'.zip b').map Prod.snd) := by
    rw [List.forall₂_map_left_iff, List.forall₂_map_right_iff]
    exact hzip.imp fun _ _ hp => hp.2
  rw [products_eq, products_eq]
  exact {
    alpha := scaled_sumOfProducts (forall₂_squares hfst) (scaled_zero _) h.alpha h'.alpha
    beta := scaled_sumOfProducts (forall₂_squares hsnd) (scaled_zero _) h.beta h'.beta
    gamma := scaled_sumOfProducts hzip (scaled_zero _) h.gamma h'.gamma
    alpha_nonneg := nonNegative64_sumOfProducts (.zero .positive) h.alpha
    beta_nonneg := nonNegative64_sumOfProducts (.zero .positive) h.beta }

/-! ## The tests -/

/-- Whether an inner product is zero, or a length or the inner product below its floor. -/
def negligible (f : Floors) (p : Products) : Bool :=
  p.gamma == 0.0 || p.alpha ≤ f.norm || p.beta ≤ f.norm || p.gamma.abs ≤ f.gamma

theorem settled_eq (f : Floors) (p : Products) : settled f p = (negligible f p ||
    decide (p.gamma.abs ≤ relativeTolerance * Float.sqrt (p.alpha * p.beta))) := rfl

/-- What the inner product is compared with is in range. -/
structure RelativeInRange (p : Products) : Prop where
  lengths : MulInRange p.alpha p.beta
  tolerance : MulInRange relativeTolerance (Float.sqrt (p.alpha * p.beta))

instance (p : Products) : Decidable (RelativeInRange p) :=
  decidable_of_iff (MulInRange p.alpha p.beta ∧
      MulInRange relativeTolerance (Float.sqrt (p.alpha * p.beta)))
    ⟨fun h => ⟨h.1, h.2⟩, fun h => ⟨h.1, h.2⟩⟩

/-- Floors that are scaled. -/
structure ScaledFloors (k : Int) (f f' : Floors) : Prop where
  norm : Scaled k f.norm f'.norm
  gamma : Scaled k f.gamma f'.gamma

theorem negligible_eq (hf : ScaledFloors k f f') (hp : ScaledProducts k p p') :
    negligible f' p' = negligible f p := by
  rw [negligible, negligible, hp.gamma.shifted.beq_zero_eq,
    decide_eq_decide.2 (hp.alpha.shifted.le_iff hf.norm.shifted),
    decide_eq_decide.2 (hp.beta.shifted.le_iff hf.norm.shifted),
    decide_eq_decide.2 (hp.gamma.abs.shifted.le_iff hf.gamma.shifted)]

/-- The root of the product of two lengths scales as they do. -/
theorem scaled_relative (hp : ScaledProducts k p p') (h : RelativeInRange p)
    (h' : RelativeInRange p') :
    Scaled k (relativeTolerance * Float.sqrt (p.alpha * p.beta))
      (relativeTolerance * Float.sqrt (p'.alpha * p'.beta)) := by
  have hnan : (p.alpha * p.beta).isNaN = false :=
    isNaN_of_isFinite (u := (p.alpha * p.beta).toModel.unpack) h.lengths.inRange.isFinite_eq
  have hroot := (hp.alpha.shifted.mul hp.beta h.lengths h'.lengths).sqrt
    (hp.alpha_nonneg.mul hp.beta_nonneg hnan)
  exact hroot.const_mul h.tolerance h'.tolerance

/-- **Whether a pair counts as orthogonal does not depend on the scale.** -/
theorem settled_eq_of_scaled (hf : ScaledFloors k f f') (hp : ScaledProducts k p p')
    (h : negligible f p = false → RelativeInRange p)
    (h' : negligible f' p' = false → RelativeInRange p') : settled f' p' = settled f p := by
  have hnegligible := negligible_eq hf hp
  rw [settled_eq, settled_eq, hnegligible]
  cases hcase : negligible f p with
  | true => rw [Bool.true_or, Bool.true_or]
  | false =>
    have hrelative := scaled_relative hp (h hcase) (h' (hnegligible.trans hcase))
    rw [decide_eq_decide.2 (hp.gamma.abs.shifted.le_iff hrelative.shifted)]

/-- Where the product of the lengths is too large for the format, every pair counts as orthogonal,
whatever the angle between the two: no inner product is larger than infinity. -/
theorem settled_of_infinity (f : Floors) (hgamma : p.gamma.isNaN = false)
    (hlengths : (p.alpha * p.beta).toModel.unpack = .infinity .positive) : settled f p = true := by
  have hroot : (Float.sqrt (p.alpha * p.beta)).toModel.unpack = .infinity .positive := by
    rw [unpack_sqrt, hlengths]
    exact unpack_packedInfinity .positive
  obtain ⟨m, e, hm, htolerance⟩ :
      ∃ m e hm, relativeTolerance.toModel.unpack = .finite .positive m e hm := ⟨_, _, _, rfl⟩
  have hbound : (relativeTolerance * Float.sqrt (p.alpha * p.beta)).toModel.unpack
      = .infinity .positive := by
    rw [unpack_mul, hroot, htolerance]
    exact unpack_packedInfinity .positive
  have hle : p.gamma.abs ≤ relativeTolerance * Float.sqrt (p.alpha * p.beta) := by
    have hnumber : p.gamma.abs.toModel.unpack.isNaN = false := (nonNegative64_abs hgamma).isNaN_eq
    rw [le_iff_unpack, hbound]
    generalize p.gamma.abs.toModel.unpack = u at hnumber
    cases u with
    | notANumber => cases hnumber
    | infinity s => cases s <;> rfl
    | _ => rfl
  rw [settled_eq, decide_eq_true hle, Bool.or_true]

/-! ## One rotation -/

/-- The two parts of the quotient that gives the angle are in range. -/
structure TangentInRange (p : Products) : Prop where
  difference : InRange (p.beta - p.alpha)
  double : MulInRange 2.0 p.gamma

instance (p : Products) : Decidable (TangentInRange p) :=
  decidable_of_iff (InRange (p.beta - p.alpha) ∧ MulInRange 2.0 p.gamma)
    ⟨fun h => ⟨h.1, h.2⟩, fun h => ⟨h.1, h.2⟩⟩

/-- **The angle does not depend on the scale.** -/
theorem tangent_eq (hp : ScaledProducts k p p') (h : TangentInRange p) (h' : TangentInRange p') :
    tangent p' = tangent p := by
  have hdifference := hp.beta.sub hp.alpha h.difference h'.difference
  have hdouble := hp.gamma.const_mul h.double h'.double
  rw [tangent, tangent, hdifference.shifted.div_eq hdouble.shifted]

/-- The cosine of the angle that makes a pair of columns orthogonal. -/
def cosine (p : Products) : Float := 1.0 / Float.sqrt (1.0 + tangent p * tangent p)

/-- The sine of that angle. -/
def sine (p : Products) : Float := cosine p * tangent p

/-- The two components that a plane rotation makes of two are in range. -/
structure TurnedInRange (c s : Float) (xy : Float × Float) : Prop where
  first : MulInRange c xy.1 ∧ MulInRange s xy.2 ∧ InRange (c * xy.1 - s * xy.2)
  second : MulInRange s xy.1 ∧ MulInRange c xy.2 ∧ InRange (s * xy.1 + c * xy.2)

instance (c s : Float) (xy : Float × Float) : Decidable (TurnedInRange c s xy) :=
  decidable_of_iff ((MulInRange c xy.1 ∧ MulInRange s xy.2 ∧ InRange (c * xy.1 - s * xy.2)) ∧
      MulInRange s xy.1 ∧ MulInRange c xy.2 ∧ InRange (s * xy.1 + c * xy.2))
    ⟨fun h => ⟨h.1, h.2⟩, fun h => ⟨h.1, h.2⟩⟩

theorem scaled_turned {c s : Float} {xy xy' : Float × Float} (hxy : ScaledPair k k xy xy')
    (h : TurnedInRange c s xy) (h' : TurnedInRange c s xy') :
    Scaled k (c * xy.1 - s * xy.2) (c * xy'.1 - s * xy'.2) ∧
      Scaled k (s * xy.1 + c * xy.2) (s * xy'.1 + c * xy'.2) := by
  obtain ⟨⟨hcx, hsy, hsub⟩, hsx, hcy, hadd⟩ := h
  obtain ⟨⟨hcx', hsy', hsub'⟩, hsx', hcy', hadd'⟩ := h'
  exact ⟨(hxy.1.const_mul hcx hcx').sub (hxy.2.const_mul hsy hsy') hsub hsub',
    (hxy.1.const_mul hsx hsx').add (hxy.2.const_mul hcy hcy') hadd hadd'⟩

/-- What is computed about a pair of columns is in range: their lengths and inner product, what the
last test needs if it comes to that, and if they are turned, the angle and what becomes of them. -/
structure PairInRange (f : Floors) (a b : Column) : Prop where
  lengths : ProductsInRange a b
  relative : negligible f (products a b) = false → RelativeInRange (products a b)
  angle : settled f (products a b) = false → TangentInRange (products a b)
  turned : settled f (products a b) = false →
    ∀ xy ∈ a.zip b, TurnedInRange (cosine (products a b)) (sine (products a b)) xy

instance (f : Floors) (a b : Column) : Decidable (PairInRange f a b) :=
  decidable_of_iff (ProductsInRange a b ∧
      (negligible f (products a b) = false → RelativeInRange (products a b)) ∧
      (settled f (products a b) = false → TangentInRange (products a b)) ∧
      (settled f (products a b) = false →
        ∀ xy ∈ a.zip b, TurnedInRange (cosine (products a b)) (sine (products a b)) xy))
    ⟨fun h => ⟨h.1, h.2.1, h.2.2.1, h.2.2.2⟩, fun h => ⟨h.1, h.2, h.3, h.4⟩⟩

theorem get_rotate (p q j : Fin n) (c s : Float) (cols : Vector Column n) :
    (rotate p q c s cols).get j =
      if q = j then (cols.get p).zipWith (fun x y => s * x + c * y) (cols.get q)
      else if p = j then (cols.get p).zipWith (fun x y => c * x - s * y) (cols.get q)
      else cols.get j := by
  show (rotate p q c s cols)[j.val] = _
  rw [rotate, Vector.getElem_set, Vector.getElem_set]
  simp only [Fin.ext_iff]
  rfl

/-- Two columns that are turned by the same angle. -/
theorem scaled_rotate {cols cols' : Vector Column n} {p q : Fin n} {c s : Float}
    (hcols : ∀ j, List.Forall₂ (Scaled k) (cols.get j) (cols'.get j))
    (h : ∀ xy ∈ (cols.get p).zip (cols.get q), TurnedInRange c s xy)
    (h' : ∀ xy ∈ (cols'.get p).zip (cols'.get q), TurnedInRange c s xy) (j : Fin n) :
    List.Forall₂ (Scaled k) ((rotate p q c s cols).get j) ((rotate p q c s cols').get j) := by
  have hturned := forall₂_of_mem (forall₂_zip (hcols p) (hcols q)) h h'
  rw [get_rotate, get_rotate]
  split
  · rw [zipWith_eq_map, zipWith_eq_map, List.forall₂_map_left_iff, List.forall₂_map_right_iff]
    exact hturned.imp fun _ _ hxy => (scaled_turned hxy.1 hxy.2.1 hxy.2.2).2
  · split
    · rw [zipWith_eq_map, zipWith_eq_map, List.forall₂_map_left_iff, List.forall₂_map_right_iff]
      exact hturned.imp fun _ _ hxy => (scaled_turned hxy.1 hxy.2.1 hxy.2.2).1
    · exact hcols j

/-! ## Sweeps -/

variable {frame frame' : Frame n} {st st' : Frame n × Nat}

/-- Columns that are scaled, and the same rotations so far. -/
structure ScaledFrame (k : Int) (frame frame' : Frame n) : Prop where
  work : ∀ j, List.Forall₂ (Scaled k) (frame.work.get j) (frame'.work.get j)
  turns : frame'.turns = frame.turns

/-- The same for a frame in the middle of a sweep. -/
structure ScaledState (k : Int) (st st' : Frame n × Nat) : Prop where
  frame : ScaledFrame k st.1 st'.1
  count : st'.2 = st.2

/-- Turn two columns of both matrices. -/
def rotateBoth (p q : Fin n) (c s : Float) (frame : Frame n) : Frame n :=
  ⟨rotate p q c s frame.work, rotate p q c s frame.turns⟩

theorem turn_eq (f : Floors) (st : Frame n × Nat) (p q : Fin n) : turn f st (p, q) =
    if settled f (products (st.1.work.get p) (st.1.work.get q)) then st
    else (rotateBoth p q (cosine (products (st.1.work.get p) (st.1.work.get q)))
      (sine (products (st.1.work.get p) (st.1.work.get q))) st.1, st.2 + 1) := rfl

theorem sweeps_succ (f : Floors) (fuel : Nat) (frame : Frame n) : sweeps f (fuel + 1) frame =
    if (sweep f frame).2 = 0 then some (sweep f frame).1
    else sweeps f fuel (sweep f frame).1 := rfl

theorem ScaledFrame.rotateBoth {p q : Fin n} {c s : Float} (hframe : ScaledFrame k frame frame')
    (h : ∀ xy ∈ (frame.work.get p).zip (frame.work.get q), TurnedInRange c s xy)
    (h' : ∀ xy ∈ (frame'.work.get p).zip (frame'.work.get q), TurnedInRange c s xy) :
    ScaledFrame k (rotateBoth p q c s frame) (rotateBoth p q c s frame') :=
  ⟨scaled_rotate hframe.work h h', congrArg (rotate p q c s) hframe.turns⟩

/-- **A turn does the same to scaled columns.** -/
theorem scaled_turn (hf : ScaledFloors (k + k) f f') (hst : ScaledState k st st')
    {pq : Fin n × Fin n} (h : PairInRange f (st.1.work.get pq.1) (st.1.work.get pq.2))
    (h' : PairInRange f' (st'.1.work.get pq.1) (st'.1.work.get pq.2)) :
    ScaledState k (turn f st pq) (turn f' st' pq) := by
  obtain ⟨p, q⟩ := pq
  have hproducts := scaled_products (hst.frame.work p) (hst.frame.work q) h.lengths h'.lengths
  have hsettled := settled_eq_of_scaled hf hproducts h.relative h'.relative
  -- both take the same branch, so what is only in range on that branch is in range for both
  rw [turn_eq, turn_eq, hsettled]
  split
  · exact hst
  · rename_i hopen
    have hopen := Bool.eq_false_of_not_eq_true hopen
    have hopen' := hsettled.trans hopen
    have htangent := tangent_eq hproducts (h.angle hopen) (h'.angle hopen')
    have hcosine : cosine (products (st'.1.work.get p) (st'.1.work.get q))
        = cosine (products (st.1.work.get p) (st.1.work.get q)) := by
      rw [cosine, cosine, htangent]
    have hsine : sine (products (st'.1.work.get p) (st'.1.work.get q))
        = sine (products (st.1.work.get p) (st.1.work.get q)) := by
      rw [sine, sine, hcosine, htangent]
    have hturned' := h'.turned hopen'
    simp only [hcosine, hsine] at hturned' ⊢
    exact ⟨hst.frame.rotateBoth (h.turned hopen) hturned', congrArg (· + 1) hst.count⟩

/-- The turns of a sweep are in range. -/
def TurnsInRange (f : Floors) : List (Fin n × Fin n) → Frame n × Nat → Prop
  | [], _ => True
  | pq :: pqs, st => PairInRange f (st.1.work.get pq.1) (st.1.work.get pq.2) ∧
      TurnsInRange f pqs (turn f st pq)

instance decidableTurnsInRange (f : Floors) :
    (pqs : List (Fin n × Fin n)) → (st : Frame n × Nat) → Decidable (TurnsInRange f pqs st)
  | [], _ => instDecidableTrue
  | pq :: pqs, st =>
    have := decidableTurnsInRange f pqs (turn f st pq)
    inferInstanceAs (Decidable (_ ∧ _))

theorem scaled_turns (hf : ScaledFloors (k + k) f f') {pqs : List (Fin n × Fin n)}
    (hst : ScaledState k st st') (h : TurnsInRange f pqs st) (h' : TurnsInRange f' pqs st') :
    ScaledState k (pqs.foldl (turn f) st) (pqs.foldl (turn f') st') := by
  induction pqs generalizing st st' with
  | nil => exact hst
  | cons pq pqs ih => exact ih (scaled_turn hf hst h.1 h'.1) h.2 h'.2

/-- The sweeps that are made are in range. -/
def SweepsInRange (f : Floors) : Nat → Frame n → Prop
  | 0, _ => True
  | fuel + 1, frame => TurnsInRange f (pairs n) (frame, 0) ∧
      ((sweep f frame).2 ≠ 0 → SweepsInRange f fuel (sweep f frame).1)

instance decidableSweepsInRange (f : Floors) :
    (fuel : Nat) → (frame : Frame n) → Decidable (SweepsInRange f fuel frame)
  | 0, _ => instDecidableTrue
  | fuel + 1, frame =>
    have := decidableSweepsInRange f fuel (sweep f frame).1
    inferInstanceAs (Decidable (_ ∧ _))

/-- **Sweeps take scaled columns to scaled columns**, with the same rotations, or give up on both. -/
theorem rel_sweeps (hf : ScaledFloors (k + k) f f') {fuel : Nat} (hframe : ScaledFrame k frame frame')
    (h : SweepsInRange f fuel frame) (h' : SweepsInRange f' fuel frame') :
    Option.Rel (ScaledFrame k) (sweeps f fuel frame) (sweeps f' fuel frame') := by
  induction fuel generalizing frame frame' with
  | zero =>
    rw [sweeps, sweeps]
    split
    · exact .some hframe
    · exact .none
  | succ fuel ih =>
    have hsweep : ScaledState k (sweep f frame) (sweep f' frame') :=
      scaled_turns hf ⟨hframe, rfl⟩ h.1 h'.1
    rw [sweeps_succ, sweeps_succ]
    by_cases hcount : (sweep f frame).2 = 0
    -- the counts are equal, so the one stops when the other does
    · rw [if_pos hcount, if_pos (hsweep.count.trans hcount)]
      exact .some hsweep.frame
    · have hcount' : (sweep f' frame').2 ≠ 0 := hsweep.count ▸ hcount
      rw [if_neg hcount, if_neg hcount']
      exact ih hsweep.frame (h.2 hcount) (h'.2 hcount')

end Svd
end ProductQuantization
