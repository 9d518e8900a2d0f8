import ProductQuantization.Proofs.Number.FiniteMean
import ProductQuantization.Proofs.Number.Ordinal
import ProductQuantization.Proofs.Number.SignedZero

/-!
# Numbers that are not negative

The difference of a finite number and any other is a number, even where it is infinite, and the
square of a number is not negative.  Adding numbers that are not negative never leaves them, because
there are no two infinities of different signs among them.  Storing a number in either precision keeps
its sign.

The two differences of two numbers have one size, and a square looks at nothing else: a squared
difference is the same in either order (`Single.IsFinite.squared_sub_comm`).
-/

set_option autoImplicit false

namespace ProductQuantization

open Float.Model (Format UnpackedFloat)
open Float.Model.UnpackedFloat
open Rounding

/-! ## Exact values -/

namespace Unpacked

variable {format : Format} {u v : UnpackedFloat}

/-- Zero with either sign, or a number with a positive sign. -/
inductive NonNegative : UnpackedFloat → Prop where
  | infinity : NonNegative (.infinity .positive)
  | zero (s : Sign) : NonNegative (.zero s)
  | finite {m : Nat} {e : Int} (hm : 0 < m) : NonNegative (.finite .positive m e hm)

theorem NonNegative.isNaN_eq (h : NonNegative u) : u.isNaN = false := by
  cases h <;> rfl

theorem NonNegative.ordinal_nonneg (h : NonNegative u) : 0 ≤ ordinal format u := by
  cases h with
  | infinity => exact Int.natCast_nonneg _
  | zero s => exact Int.le_refl _
  | finite hm => exact Int.natCast_nonneg _

theorem nonNegative_roundWithAccuracy (m : Nat) (e : Int) (a : Accuracy) :
    NonNegative (roundWithAccuracy format .positive m e a) := by
  rw [roundWithAccuracy]
  dsimp only
  split
  · exact .zero _
  · exact .finite _

theorem nonNegative_normalize {m : Int} (h : 0 ≤ m) (e : Int) (s : Sign) :
    NonNegative (normalize format m e s) := by
  rw [UnpackedFloat.normalize]
  split
  · rename_i hlt
    exact absurd (compare_lt_iff_lt.1 hlt) (Int.not_lt.2 h)
  · exact .zero _
  · exact nonNegative_roundWithAccuracy _ _ _

theorem NonNegative.add (hu : NonNegative u) (hv : NonNegative v) :
    NonNegative (UnpackedFloat.add format u v) := by
  cases hu with
  | infinity => cases hv <;> exact .infinity
  | zero s =>
    cases hv with
    | infinity => exact .infinity
    | zero t => cases s <;> cases t <;> exact .zero _
    | finite hm => exact .finite hm
  | finite hm =>
    cases hv with
    | infinity => exact .infinity
    | zero t => exact .finite hm
    | finite hm' =>
      exact nonNegative_normalize (Int.add_nonneg (Int.natCast_nonneg _) (Int.natCast_nonneg _)) _ _

theorem NonNegative.mul (hu : NonNegative u) (hv : NonNegative v)
    (h : (UnpackedFloat.mul format u v).isNaN = false) : NonNegative (UnpackedFloat.mul format u v) := by
  cases hu with
  | infinity =>
    cases hv with
    | infinity => exact .infinity
    | zero t => cases h
    | finite hm => exact .infinity
  | zero s =>
    cases hv with
    | infinity => cases h
    | zero t => exact .zero _
    | finite hm => exact .zero _
  | finite hm =>
    cases hv with
    | infinity => exact .infinity
    | zero t => exact .zero _
    | finite hm' => exact nonNegative_roundWithAccuracy _ _ _

/-- A square has no sign. -/
theorem nonNegative_mul_self (hu : u.isNaN = false) : NonNegative (UnpackedFloat.mul format u u) := by
  cases u with
  | notANumber => cases hu
  | infinity s => cases s <;> exact .infinity
  | zero s => exact .zero _
  | finite s m e hm => cases s <;> exact nonNegative_roundWithAccuracy _ _ _

theorem nonNegative_unpack_packComponents (e : BitVec format.exponentBits)
    (m : BitVec format.mantissaBitsWithoutImplicit)
    (h : (unpack format (packComponents format .positive e m)).isNaN = false) :
    NonNegative (unpack format (packComponents format .positive e m)) := by
  rw [unpack_packComponents] at h ⊢
  split at h
  · split at h
    · rw [if_pos ‹_›, if_pos ‹_›]
      exact .infinity
    · cases h
  · rw [if_neg ‹_›]
    split
    · split
      · exact .zero _
      · exact .finite _
    · exact .finite _

/-- Storing a number keeps its sign. -/
theorem NonNegative.stored (hu : NonNegative u) : NonNegative (unpack format (pack format u)) := by
  have hnan : (unpack format (pack format u)).isNaN = false :=
    (isNaN_unpack_pack u).trans hu.isNaN_eq
  cases hu with
  | infinity => exact nonNegative_unpack_packComponents _ _ hnan
  | zero s =>
    show NonNegative (unpack format (packedZero format s))
    rw [unpack_packedZero]
    exact .zero s
  | @finite m e hm =>
    by_cases hstorable : Storable format e
    · rw [pack_finite hstorable] at hnan ⊢
      split at hnan
      · rw [if_pos ‹_›]
        exact nonNegative_unpack_packComponents _ _ hnan
      · rw [if_neg ‹_›]
        exact nonNegative_unpack_packComponents _ _ hnan
    · rw [pack_eq_packedInfinity hstorable, unpack_packedInfinity]
      exact .infinity

/-! ## Differences -/

theorem isNaN_normalize (m e : Int) (s : Sign) :
    (UnpackedFloat.normalize format m e s).isNaN = false := by
  rw [UnpackedFloat.normalize]
  split
  · exact isNaN_roundWithAccuracy _ _ _ _ _
  · rfl
  · exact isNaN_roundWithAccuracy _ _ _ _ _

theorem isNaN_sub (hu : u.isFinite = true) (hv : v.isFinite = true) :
    (UnpackedFloat.sub format u v).isNaN = false := by
  obtain ⟨s, rfl⟩ | ⟨s, m, e, hm, rfl⟩ := zero_or_finite hu
  · obtain ⟨t, rfl⟩ | ⟨t, m', e', hm', rfl⟩ := zero_or_finite hv
    · cases s <;> cases t <;> rfl
    · rfl
  · obtain ⟨t, rfl⟩ | ⟨t, m', e', hm', rfl⟩ := zero_or_finite hv
    · rfl
    · exact isNaN_normalize _ _ _

/-- Nothing that is a number is too large to be taken from a finite number. -/
theorem isNaN_sub_number (hu : u.isFinite = true) (hv : v.isNaN = false) :
    (UnpackedFloat.sub format u v).isNaN = false := by
  cases v with
  | notANumber => cases hv
  | infinity s => cases u <;> first | rfl | cases hu
  | zero s => exact isNaN_sub hu rfl
  | finite s m e hm => exact isNaN_sub hu rfl

/-- A number less itself is the positive zero. -/
theorem sub_self (hu : u.isFinite = true) : UnpackedFloat.sub format u u = .zero .positive := by
  obtain ⟨s, rfl⟩ | ⟨s, m, e, hm, rfl⟩ := zero_or_finite hu
  · cases s <;> rfl
  · simp only [UnpackedFloat.sub, Int.sub_self]
    rfl

/-! ## Sizes -/

theorem abs_roundWithAccuracy (s : Sign) (m : Nat) (e : Int) (a : Accuracy) :
    (roundWithAccuracy format s m e a).abs = roundWithAccuracy format .positive m e a := by
  simp only [roundWithAccuracy]
  split <;> rfl

theorem abs_round (s : Sign) (m : Nat) (e : Int) :
    (UnpackedFloat.round format s m e).abs = UnpackedFloat.round format .positive m e :=
  abs_roundWithAccuracy s _ _ _

/-- Rounding does not look at the sign. -/
theorem abs_normalize_neg (m e : Int) (s : Sign) :
    (UnpackedFloat.normalize format (-m) e s).abs = (UnpackedFloat.normalize format m e s).abs := by
  rcases lt_trichotomy m 0 with h | rfl | h
  · rw [UnpackedFloat.normalize, UnpackedFloat.normalize, compare_lt_iff_lt.2 h,
      compare_gt_iff_gt.2 (Int.neg_pos_of_neg h)]
    exact (abs_round _ _ _).trans (abs_round _ _ _).symm
  · rfl
  · rw [UnpackedFloat.normalize, UnpackedFloat.normalize, compare_gt_iff_gt.2 h,
      compare_lt_iff_lt.2 (Int.neg_neg_of_pos h), Int.neg_neg]
    exact (abs_round _ _ _).trans (abs_round _ _ _).symm

/-- The two differences of two numbers have one size. -/
theorem abs_sub_comm (u v : UnpackedFloat) :
    (UnpackedFloat.sub format u v).abs = (UnpackedFloat.sub format v u).abs := by
  cases u with
  | notANumber => cases v <;> rfl
  | infinity s =>
    cases v with
    | infinity t => cases s <;> cases t <;> rfl
    | _ => rfl
  | zero s =>
    cases v with
    | zero t => cases s <;> cases t <;> rfl
    | _ => rfl
  | finite s m e hm =>
    cases v with
    | finite t m' e' hm' =>
      simp only [UnpackedFloat.sub, Int.min_comm e' e]
      rw [← Int.neg_sub]
      exact abs_normalize_neg _ _ _
    | _ => rfl

/-- Storing a number does not look at the sign. -/
theorem abs_stored (u : UnpackedFloat) :
    (unpack format (pack format u)).abs = unpack format (pack format u.abs) := by
  have hcomponents : ∀ (s : Sign) (e : BitVec format.exponentBits)
      (m : BitVec format.mantissaBitsWithoutImplicit),
      (unpack format (packComponents format s e m)).abs
        = unpack format (packComponents format .positive e m) := fun s e m => by
    rw [unpack_packComponents, unpack_packComponents]
    split
    · split <;> rfl
    · split
      · split <;> rfl
      · rfl
  cases u with
  | notANumber => exact (congrArg UnpackedFloat.abs unpack_packedNaN).trans unpack_packedNaN.symm
  | infinity s => exact hcomponents _ _ _
  | zero s => exact hcomponents _ _ _
  | finite s m e hm =>
    show _ = unpack format (pack format (.finite .positive m e hm))
    by_cases hstorable : Storable format e
    · rw [pack_finite hstorable, pack_finite hstorable]
      split <;> exact hcomponents _ _ _
    · rw [pack_eq_packedInfinity hstorable, pack_eq_packedInfinity hstorable]
      exact hcomponents _ _ _

/-- A square is the square of the size. -/
theorem mul_self_abs (u : UnpackedFloat) :
    UnpackedFloat.mul format u.abs u.abs = UnpackedFloat.mul format u u := by
  cases u with
  | notANumber => rfl
  | _ s => cases s <;> rfl

end Unpacked

/-! ## Stored numbers -/

namespace Single

variable {x y : Single}

/-- A number that is not negative; either zero is one. -/
def NonNegative (x : Single) : Prop := Unpacked.NonNegative x.value.toModel.unpack

theorem NonNegative.isNaN_eq (h : x.NonNegative) : x.isNaN = false :=
  (Single.isNaN_eq x).trans (Unpacked.NonNegative.isNaN_eq h)

theorem NonNegative.zero_le (h : x.NonNegative) : zero.value ≤ x.value :=
  le_iff_ordinal32.2 ⟨rfl, Unpacked.NonNegative.isNaN_eq h, Unpacked.NonNegative.ordinal_nonneg h⟩

/-- Only zero is not above zero. -/
theorem NonNegative.sameValue_zero (h : x.NonNegative) (hle : x.value ≤ zero.value) :
    x.sameValue zero = true := by
  rw [le_iff_ordinal32] at hle
  exact beq_iff_ordinal32.2 ⟨hle.1, rfl,
    Int.le_antisymm hle.2.2 (Unpacked.NonNegative.ordinal_nonneg h)⟩

/-- An operation on numbers whose result is not negative. -/
theorem nonNegative_lift (op : Float32 → Float32 → Float32) (hx : x.isNaN = false)
    (hy : y.isNaN = false) (h : Unpacked.NonNegative (op x.value y.value).toModel.unpack) :
    (lift op x y).NonNegative := by
  rw [lift_eq hx hy h.isNaN_eq, NonNegative, value_ofValue]
  exact h

theorem nonNegative_zero : zero.NonNegative := .zero .positive

theorem NonNegative.add (hx : x.NonNegative) (hy : y.NonNegative) : (x + y).NonNegative :=
  nonNegative_lift (· + ·) hx.isNaN_eq hy.isNaN_eq
    (Unpacked.NonNegative.stored (Unpacked.NonNegative.add hx hy))

theorem nonNegative_value_mul_self (hx : x.isNaN = false) :
    Unpacked.NonNegative (x.value * x.value).toModel.unpack :=
  Unpacked.NonNegative.stored <|
    Unpacked.nonNegative_mul_self ((Single.isNaN_eq x).symm.trans hx)

theorem nonNegative_mul_self (hx : x.isNaN = false) : (x * x).NonNegative :=
  nonNegative_lift (· * ·) hx hx (nonNegative_value_mul_self hx)

theorem mul_self_eq (hx : x.isNaN = false) : x * x = ofValue (x.value * x.value) :=
  lift_eq hx hx (nonNegative_value_mul_self hx).isNaN_eq

theorem IsFinite.isNaN_value_sub (hx : x.IsFinite) (hy : y.isNaN = false) :
    (x.value - y.value).isNaN = false :=
  (isNaN_unpack_pack _).trans (Unpacked.isNaN_sub_number hx ((Single.isNaN_eq y).symm.trans hy))

theorem IsFinite.sub_eq (hx : x.IsFinite) (hy : y.isNaN = false) :
    x - y = ofValue (x.value - y.value) := lift_eq hx.isNaN_eq hy (hx.isNaN_value_sub hy)

theorem IsFinite.isNaN_sub_number (hx : x.IsFinite) (hy : y.isNaN = false) :
    (x - y).isNaN = false := by
  rw [hx.sub_eq hy, isNaN_ofValue]
  exact hx.isNaN_value_sub hy

theorem IsFinite.isNaN_sub (hx : x.IsFinite) (hy : y.IsFinite) : (x - y).isNaN = false :=
  hx.isNaN_sub_number hy.isNaN_eq

theorem IsFinite.sub_self (hx : x.IsFinite) : x - x = zero := by
  have hvalue : x.value - x.value = zero.value :=
    congrArg (fun u => Float32.ofModel (.pack u)) (Unpacked.sub_self hx)
  show lift (· - ·) x x = zero
  rw [lift_eq hx.isNaN_eq hx.isNaN_eq (by rw [hvalue]; rfl), hvalue]
  rfl

/-- **A squared difference is the same in either order.** -/
theorem IsFinite.squared_sub_comm (hx : x.IsFinite) (hy : y.IsFinite) :
    (x - y) * (x - y) = (y - x) * (y - x) := by
  have habs : (x.value - y.value).toModel.unpack.abs = (y.value - x.value).toModel.unpack.abs := by
    refine (Unpacked.abs_stored _).trans (Eq.trans ?_ (Unpacked.abs_stored _).symm)
    rw [Unpacked.abs_sub_comm]
  have hsquare : (x.value - y.value) * (x.value - y.value)
      = (y.value - x.value) * (y.value - x.value) := by
    refine congrArg (fun u => Float32.ofModel (.pack u)) ?_
    rw [← Unpacked.mul_self_abs, habs, Unpacked.mul_self_abs]
  rw [mul_self_eq (hx.isNaN_sub hy), mul_self_eq (hy.isNaN_sub hx), hx.sub_eq hy.isNaN_eq,
    hy.sub_eq hx.isNaN_eq, value_ofValue, value_ofValue, hsquare]

/-- Not below zero: not negative, or not a number. -/
def Unsigned (x : Single) : Prop := x.isNaN = true ∨ x.NonNegative

theorem Unsigned.add (hx : x.Unsigned) (hy : y.Unsigned) : (x + y).Unsigned := by
  rcases hx with hx | hx
  · exact .inl (isNaN_lift (.inl hx))
  · rcases hy with hy | hy
    · exact .inl (isNaN_lift (.inr hy))
    · exact .inr (hx.add hy)

/-- A square is not below zero, whatever is squared. -/
theorem unsigned_mul_self (x : Single) : (x * x).Unsigned := by
  by_cases hx : x.isNaN = true
  · exact .inl (isNaN_lift (.inl hx))
  · exact .inr (nonNegative_mul_self (Bool.eq_false_of_not_eq_true hx))

/-- Infinity is the only number that is not negative and not below it. -/
theorem NonNegative.eq_infinity (h : x.NonNegative) (hle : ¬ x.value < infinity.value) :
    x.value = infinity.value := by
  have hnumber := stored32 x.value (Unpacked.NonNegative.isNaN_eq h)
  have hlt : ¬ ordinal32 x.value < Unpacked.top .binary32 := fun hlt =>
    hle (lt_iff_ordinal32.2 ⟨Unpacked.NonNegative.isNaN_eq h, rfl, hlt⟩)
  refine eq_of_unpack_eq32 ?_
  rw [NonNegative] at h
  rw [ordinal32] at hlt
  generalize x.value.toModel.unpack = u at h hnumber hlt
  cases h with
  | infinity => rfl
  | zero s => exact absurd (Int.natCast_pos.2 (Unpacked.top_pos .binary32)) hlt
  | finite hm =>
    cases hnumber with
    | finite _ _ hkept hstorable =>
      exact absurd (Unpacked.abs_ordinal_lt_top _ hm hkept hstorable).2 hlt

end Single

end ProductQuantization
