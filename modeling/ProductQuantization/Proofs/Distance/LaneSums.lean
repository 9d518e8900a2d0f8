import Mathlib.Data.List.Forall2
import Mathlib.Tactic.Abel
import ProductQuantization.Distance

/-!
# Sums over four lanes

The single-precision kernels take their terms eight at a time, spread them over four running sums
and add what is left at the end to the first of them.  That order matters to every sum of floats, but
to few arguments about one.  Here the loop is gone through once for each kind of argument.

Two sums of related terms are related (`laneSum_rel`), and what all terms have in common, the sum has
(`laneSum_induction`).  Nor is a term lost or counted twice, however many there are: if the terms
stand for elements of a commutative monoid, the result stands for the sum of these (`laneSum_sum`).
-/

set_option autoImplicit false

namespace ProductQuantization

/-! ## Related terms -/

namespace Lanes

variable {R : Single → Single → Prop}

/-- The four sums are related to four others. -/
def Rel (R : Single → Single → Prop) (l l' : Lanes) : Prop :=
  R l.s0 l'.s0 ∧ R l.s1 l'.s1 ∧ R l.s2 l'.s2 ∧ R l.s3 l'.s3

theorem Rel.add (hadd : ∀ {x x' y y'}, R x x' → R y y' → R (x + y) (x' + y')) {l l' : Lanes}
    {terms terms' : List Single} (hl : l.Rel R l') (h : List.Forall₂ R terms terms') :
    (l.add terms).Rel R (l'.add terms') := by
  induction l, terms using Lanes.add.induct generalizing l' terms' with
  | case1 l t0 t1 t2 t3 t4 t5 t6 t7 rest ih =>
    obtain ⟨l0, l1, l2, l3⟩ := hl
    simp only [List.forall₂_cons_left_iff] at h
    obtain ⟨u0, _, h0, ⟨u1, _, h1, ⟨u2, _, h2, ⟨u3, _, h3, ⟨u4, _, h4, ⟨u5, _, h5, ⟨u6, _, h6,
      ⟨u7, rest', h7, hrest, rfl⟩, rfl⟩, rfl⟩, rfl⟩, rfl⟩, rfl⟩, rfl⟩, rfl⟩ := h
    rw [Lanes.add, Lanes.add]
    exact ih ⟨hadd l0 (hadd h0 h4), hadd l1 (hadd h1 h5), hadd l2 (hadd h2 h6),
      hadd l3 (hadd h3 h7)⟩ hrest
  | case2 l rest hshort =>
    have hshort' : ∀ t0 t1 t2 t3 t4 t5 t6 t7 rest',
        terms' = t0 :: t1 :: t2 :: t3 :: t4 :: t5 :: t6 :: t7 :: rest' → False := by
      rintro t0 t1 t2 t3 t4 t5 t6 t7 rest' rfl
      simp only [List.forall₂_cons_right_iff] at h
      obtain ⟨_, _, -, ⟨_, _, -, ⟨_, _, -, ⟨_, _, -, ⟨_, _, -, ⟨_, _, -, ⟨_, _, -,
        ⟨_, _, -, -, rfl⟩, rfl⟩, rfl⟩, rfl⟩, rfl⟩, rfl⟩, rfl⟩, rfl⟩ := h
      exact hshort _ _ _ _ _ _ _ _ _ rfl
    rw [Lanes.add.eq_2 _ _ hshort, Lanes.add.eq_2 _ _ hshort']
    have hfold : R (rest.foldl (· + ·) l.s0) (terms'.foldl (· + ·) l'.s0) :=
      List.rel_foldl (P := R) (R := R) (fun _ _ hx _ _ hy => hadd hx hy) hl.1 h
    exact ⟨hfold, hl.2⟩

end Lanes

/-- Sums of related terms are related. -/
theorem laneSum_rel {R : Single → Single → Prop} (hzero : R .zero .zero)
    (hadd : ∀ {x x' y y'}, R x x' → R y y' → R (x + y) (x' + y')) {terms terms' : List Single}
    (h : List.Forall₂ R terms terms') : R (laneSum terms) (laneSum terms') := by
  have hstart : Lanes.zero.Rel R Lanes.zero := ⟨hzero, hzero, hzero, hzero⟩
  obtain ⟨h0, h1, h2, h3⟩ := hstart.add hadd h
  exact hadd (hadd (hadd h0 h1) h2) h3

/-- What holds of zero and is kept by addition holds of a sum over four running sums. -/
theorem laneSum_induction {P : Single → Prop} (hzero : P .zero)
    (hadd : ∀ x y, P x → P y → P (x + y)) {terms : List Single} (h : ∀ t ∈ terms, P t) :
    P (laneSum terms) := by
  have hsame : List.Forall₂ (fun x _ => P x) terms terms := List.forall₂_same.2 h
  exact laneSum_rel (R := fun x _ => P x) hzero (hadd _ _) hsame

/-! ## Every term once -/

section Sums

variable {M : Type} [AddCommMonoid M]

/-- The loop from left to right stands for the sum of its terms. -/
theorem foldl_sum {α : Type} [Add α] {R : α → M → Prop}
    (hadd : ∀ {x y a b}, R x a → R y b → R (x + y) (a + b)) {start : α} {a : M} (hstart : R start a)
    {terms : List α} {as : List M} (h : List.Forall₂ R terms as) :
    R (terms.foldl (· + ·) start) (a + as.sum) := by
  induction h generalizing start a with
  | nil => rwa [List.sum_nil, add_zero]
  | cons ht _ ih =>
    rw [List.sum_cons, ← add_assoc]
    exact ih (hadd hstart ht)

namespace Lanes

variable {R : Single → M → Prop}

/-- The four sums stand for elements that add up to `a`. -/
def Sums (R : Single → M → Prop) (l : Lanes) (a : M) : Prop :=
  ∃ a0 a1 a2 a3, R l.s0 a0 ∧ R l.s1 a1 ∧ R l.s2 a2 ∧ R l.s3 a3 ∧ a0 + a1 + a2 + a3 = a

/-- What is added to the sums is added to what they stand for. -/
theorem Sums.add (hadd : ∀ {x y a b}, R x a → R y b → R (x + y) (a + b)) {l : Lanes} {a : M}
    {terms : List Single} {as : List M} (hl : l.Sums R a) (h : List.Forall₂ R terms as) :
    (l.add terms).Sums R (a + as.sum) := by
  induction l, terms using Lanes.add.induct generalizing a as with
  | case1 l t0 t1 t2 t3 t4 t5 t6 t7 rest ih =>
    obtain ⟨a0, a1, a2, a3, h0, h1, h2, h3, rfl⟩ := hl
    simp only [List.forall₂_cons_left_iff] at h
    obtain ⟨b0, _, g0, ⟨b1, _, g1, ⟨b2, _, g2, ⟨b3, _, g3, ⟨b4, _, g4, ⟨b5, _, g5, ⟨b6, _, g6,
      ⟨b7, bs, g7, hrest, rfl⟩, rfl⟩, rfl⟩, rfl⟩, rfl⟩, rfl⟩, rfl⟩, rfl⟩ := h
    have hblock := ih (a := a0 + (b0 + b4) + (a1 + (b1 + b5)) + (a2 + (b2 + b6)) + (a3 + (b3 + b7)))
      ⟨_, _, _, _, hadd h0 (hadd g0 g4), hadd h1 (hadd g1 g5), hadd h2 (hadd g2 g6),
        hadd h3 (hadd g3 g7), rfl⟩ hrest
    rw [Lanes.add]
    -- terms `j` and `j + 4` went together; in the monoid that is only another order
    convert hblock using 1
    simp only [List.sum_cons]
    abel
  | case2 l rest hshort =>
    obtain ⟨a0, a1, a2, a3, h0, h1, h2, h3, rfl⟩ := hl
    rw [Lanes.add.eq_2 _ _ hshort]
    refine ⟨a0 + as.sum, a1, a2, a3, foldl_sum hadd h0 h, h1, h2, h3, ?_⟩
    abel

end Lanes

/-- **No term is lost and none is counted twice.** -/
theorem laneSum_sum {R : Single → M → Prop} (hzero : R .zero 0)
    (hadd : ∀ {x y a b}, R x a → R y b → R (x + y) (a + b)) {terms : List Single} {as : List M}
    (h : List.Forall₂ R terms as) : R (laneSum terms) as.sum := by
  have hstart : Lanes.zero.Sums R (0 : M) :=
    ⟨0, 0, 0, 0, hzero, hzero, hzero, hzero, by rw [add_zero, add_zero, add_zero]⟩
  obtain ⟨a0, a1, a2, a3, h0, h1, h2, h3, hsum⟩ := hstart.add hadd h
  rw [← zero_add as.sum, ← hsum]
  exact hadd (hadd (hadd h0 h1) h2) h3

end Sums

end ProductQuantization
