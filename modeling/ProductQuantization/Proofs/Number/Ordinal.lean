import ProductQuantization.Number.Order
import ProductQuantization.Number.Single
import ProductQuantization.Proofs.Number.Rounding

/-!
# Counting numbers

The numbers of a format stand in a row: zero, the smallest number above it, the next one, and so on
up to infinity, and the same below zero.  The place of a number in this row is its *ordinal*, and to
compare two numbers is to compare their ordinals (`lt_iff_ordinal32`, `le_iff_ordinal64` and so on).
What is not a number has no place, and every comparison with it fails.

The ordinal is read off mantissa and exponent: each exponent above the least one begins where the
mantissas of the exponent before it end.  In double precision it is also read off the bits, so that
sorting by them is sorting by size (`rank64_eq`).
-/

set_option autoImplicit false

namespace ProductQuantization

open Float.Model (Format UnpackedFloat totalExponent)
open Float.Model.UnpackedFloat
open Rounding

namespace Unpacked

variable {format : Format}

/-! ## Mantissa and exponent -/

/-- A mantissa and an exponent as the format keeps them: as many digits as it has, or fewer at the
least exponent. -/
structure Kept (format : Format) (m : Nat) (e : Int) : Prop where
  minExponent_le : format.minExponent ≤ e
  lt : m < 2 ^ (format.mantissaBitsWithoutImplicit + 1)
  full : e = format.minExponent ∨ 2 ^ format.mantissaBitsWithoutImplicit ≤ m

theorem kept_of_canonical {m : Nat} {e : Int} (hm : 0 < m) (h : Canonical format m e)
    (hlt : m < 2 ^ format.mantissaBits) : Kept format m e := by
  rw [Canonical, Format.targetExponent, totalExponent, Format.mantissaBits] at h
  rw [Format.mantissaBits, Nat.add_comm] at hlt
  refine ⟨by omega, hlt, ?_⟩
  by_cases he : e = format.minExponent
  · exact .inl he
  · have hlog : m.log2 = format.mantissaBitsWithoutImplicit := by omega
    exact .inr (hlog ▸ Nat.log2_self_le (Nat.ne_of_gt hm))

/-- The ordinal of a positive number. -/
def magnitude (format : Format) (m : Nat) (e : Int) : Nat :=
  (e - format.minExponent).toNat * 2 ^ format.mantissaBitsWithoutImplicit + m

/-- The ordinal of infinity. -/
def top (format : Format) : Nat :=
  (2 ^ format.exponentBits - 1) * 2 ^ format.mantissaBitsWithoutImplicit

theorem magnitude_lt_of_lt {m m' : Nat} {e e' : Int} (h : Kept format m e)
    (h' : Kept format m' e') (he : e < e') : magnitude format m e < magnitude format m' e' := by
  have hlo := h.minExponent_le
  have hfull : 2 ^ format.mantissaBitsWithoutImplicit ≤ m' := h'.full.resolve_left (by omega)
  have hstep : (e - format.minExponent).toNat + 1 ≤ (e' - format.minExponent).toNat := by omega
  have hlt := h.lt
  rw [Nat.pow_succ] at hlt
  calc magnitude format m e
      < (e - format.minExponent).toNat * 2 ^ format.mantissaBitsWithoutImplicit
          + 2 ^ format.mantissaBitsWithoutImplicit * 2 := Nat.add_lt_add_left hlt _
    _ = ((e - format.minExponent).toNat + 1) * 2 ^ format.mantissaBitsWithoutImplicit
          + 2 ^ format.mantissaBitsWithoutImplicit := by ring
    _ ≤ magnitude format m' e' := Nat.add_le_add (Nat.mul_le_mul_right _ hstep) hfull

/-- Larger exponents come after smaller ones, and of one exponent larger mantissas after smaller
ones. -/
theorem compare_magnitude {m m' : Nat} {e e' : Int} (h : Kept format m e) (h' : Kept format m' e') :
    (compare e e').then (compare m m') = compare (magnitude format m e) (magnitude format m' e') := by
  rcases lt_trichotomy e e' with he | rfl | he
  · rw [compare_lt_iff_lt.2 he, compare_lt_iff_lt.2 (magnitude_lt_of_lt h h' he)]
    rfl
  · rw [compare_eq_iff_eq.2 rfl, Ordering.then, magnitude, magnitude]
    rcases lt_trichotomy m m' with hm | rfl | hm
    · rw [compare_lt_iff_lt.2 hm, compare_lt_iff_lt.2 (Nat.add_lt_add_left hm _)]
    · rw [compare_eq_iff_eq.2 rfl, compare_eq_iff_eq.2 rfl]
    · rw [compare_gt_iff_gt.2 hm, compare_gt_iff_gt.2 (Nat.add_lt_add_left hm _)]
  · rw [compare_gt_iff_gt.2 he, compare_gt_iff_gt.2 (magnitude_lt_of_lt h' h he)]
    rfl

theorem magnitude_lt_top {m : Nat} {e : Int} (h : Kept format m e) (hs : Storable format e) :
    magnitude format m e < top format := by
  have hlt := h.lt
  have hlo := h.minExponent_le
  rw [Storable, storedExponent, ← cast_two_pow] at hs
  rw [minExponent_eq] at hlo
  have hstep : (e - format.minExponent).toNat + 2 ≤ 2 ^ format.exponentBits - 1 := by
    rw [minExponent_eq]
    omega
  rw [Nat.pow_succ] at hlt
  calc magnitude format m e
      < (e - format.minExponent).toNat * 2 ^ format.mantissaBitsWithoutImplicit
          + 2 ^ format.mantissaBitsWithoutImplicit * 2 := Nat.add_lt_add_left hlt _
    _ = ((e - format.minExponent).toNat + 2) * 2 ^ format.mantissaBitsWithoutImplicit := by ring
    _ ≤ top format := Nat.mul_le_mul_right _ hstep

theorem top_pos (format : Format) : 0 < top format := by
  have hone : 2 ^ 1 ≤ 2 ^ format.exponentBits := Nat.pow_le_pow_right (by decide) format.he
  exact Nat.mul_pos (by omega) (Nat.two_pow_pos _)

/-! ## Ordinals -/

/-- The place of a number in the row of all numbers of its format, counted from zero. -/
def ordinal (format : Format) : UnpackedFloat → Int
  | .notANumber => 0
  | .infinity s => s.apply (top format)
  | .zero _ => 0
  | .finite s m e _ => s.apply (magnitude format m e)

/-- A number of the format, infinite ones included. -/
inductive Number (format : Format) : UnpackedFloat → Prop where
  | infinity (s : Sign) : Number format (.infinity s)
  | zero (s : Sign) : Number format (.zero s)
  | finite (s : Sign) {m : Nat} {e : Int} (hm : 0 < m) (hkept : Kept format m e)
      (hstorable : Storable format e) : Number format (.finite s m e hm)

theorem number_unpack (hformat : 2 ≤ format.exponentBits) {b : BitVec format.numBits}
    (h : (unpack format b).isNaN = false) : Number format (unpack format b) := by
  cases hb : unpack format b with
  | notANumber => rw [hb] at h; cases h
  | infinity s => exact .infinity s
  | zero s => exact .zero s
  | finite s m e hm =>
    obtain ⟨hcanonical, hdigits, hstorable⟩ := canonical_of_unpack hformat hb
    exact .finite s hm (kept_of_canonical hm hcanonical hdigits) hstorable

theorem compare_neg (a b : Int) : compare (-a) (-b) = (compare a b).swap := by
  rcases lt_trichotomy a b with h | rfl | h
  · rw [compare_lt_iff_lt.2 h, compare_gt_iff_gt.2 (Int.neg_lt_neg h)]
    rfl
  · rw [compare_eq_iff_eq.2 rfl, compare_eq_iff_eq.2 rfl]
    rfl
  · rw [compare_gt_iff_gt.2 h, compare_lt_iff_lt.2 (Int.neg_lt_neg h)]
    rfl

theorem compare_natCast (a b : Nat) : compare (a : Int) (b : Int) = compare a b := by
  rcases lt_trichotomy a b with h | rfl | h
  · rw [compare_lt_iff_lt.2 h, compare_lt_iff_lt.2 (Int.ofNat_lt.2 h)]
  · rw [compare_eq_iff_eq.2 rfl, compare_eq_iff_eq.2 rfl]
  · rw [compare_gt_iff_gt.2 h, compare_gt_iff_gt.2 (Int.ofNat_lt.2 h)]

/-- Below infinity, and above minus infinity. -/
theorem abs_ordinal_lt_top (s : Sign) {m : Nat} {e : Int} (hm : 0 < m) (hkept : Kept format m e)
    (hstorable : Storable format e) :
    -(top format : Int) < ordinal format (.finite s m e hm) ∧
      ordinal format (.finite s m e hm) < top format := by
  have hlt := magnitude_lt_top hkept hstorable
  cases s with
  | negative =>
    show -(top format : Int) < -(magnitude format m e : Int) ∧ -(magnitude format m e : Int) < _
    omega
  | positive =>
    show -(top format : Int) < (magnitude format m e : Int) ∧ (magnitude format m e : Int) < _
    omega

theorem ordinal_negative_lt {m : Nat} {e : Int} {hm : 0 < m} :
    ordinal format (.finite .negative m e hm) < 0 := by
  have hpos : 0 < magnitude format m e := Nat.add_pos_right _ hm
  show -(magnitude format m e : Int) < 0
  omega

theorem lt_ordinal_positive {m : Nat} {e : Int} {hm : 0 < m} :
    0 < ordinal format (.finite .positive m e hm) := by
  have hpos : 0 < magnitude format m e := Nat.add_pos_right _ hm
  show 0 < (magnitude format m e : Int)
  omega

theorem ordinal_infinity_negative_lt : ordinal format (.infinity .negative) < 0 := by
  have htop := top_pos format
  show -(top format : Int) < 0
  omega

theorem lt_ordinal_infinity_positive : 0 < ordinal format (.infinity .positive) := by
  have htop := top_pos format
  show 0 < (top format : Int)
  omega

theorem ordinal_le_top {u : UnpackedFloat} (h : Number format u) :
    ordinal format u ≤ top format := by
  cases h with
  | infinity s =>
    cases s with
    | negative => exact Int.le_trans (Int.le_of_lt ordinal_infinity_negative_lt) (Int.natCast_nonneg _)
    | positive => exact Int.le_refl _
  | zero s => exact Int.natCast_nonneg _
  | finite s hm hkept hstorable => exact Int.le_of_lt (abs_ordinal_lt_top s hm hkept hstorable).2

/-- **To compare numbers is to compare their ordinals.** -/
theorem compare_eq_ordinal {u v : UnpackedFloat} (hu : Number format u) (hv : Number format v) :
    u.compare v = some (compare (ordinal format u) (ordinal format v)) := by
  have hlt {a b : Int} (h : a < b) : some Ordering.lt = some (compare a b) :=
    congrArg some (compare_lt_iff_lt.2 h).symm
  have hgt {a b : Int} (h : b < a) : some Ordering.gt = some (compare a b) :=
    congrArg some (compare_gt_iff_gt.2 h).symm
  have heq (a : Int) : some Ordering.eq = some (compare a a) :=
    congrArg some (compare_eq_iff_eq.2 rfl).symm
  cases hu with
  | infinity s =>
    cases hv with
    | infinity t =>
      cases s <;> cases t
      · exact heq _
      · exact hlt (Int.lt_trans ordinal_infinity_negative_lt lt_ordinal_infinity_positive)
      · exact hgt (Int.lt_trans ordinal_infinity_negative_lt lt_ordinal_infinity_positive)
      · exact heq _
    | zero t =>
      cases s
      · exact hlt ordinal_infinity_negative_lt
      · exact hgt lt_ordinal_infinity_positive
    | finite t hm hkept hstorable =>
      obtain ⟨hlo, hhi⟩ := abs_ordinal_lt_top t hm hkept hstorable
      cases s
      · exact hlt hlo
      · exact hgt hhi
  | zero s =>
    cases hv with
    | infinity t =>
      cases t
      · exact hgt ordinal_infinity_negative_lt
      · exact hlt lt_ordinal_infinity_positive
    | zero t => exact heq _
    | finite t hm hkept hstorable =>
      cases t
      · exact hgt ordinal_negative_lt
      · exact hlt lt_ordinal_positive
  | @finite s m e hm hkept hstorable =>
    obtain ⟨hlo, hhi⟩ := abs_ordinal_lt_top s hm hkept hstorable
    cases hv with
    | infinity t =>
      cases t
      · cases s <;> exact hgt hlo
      · cases s <;> exact hlt hhi
    | zero t =>
      cases s
      · exact hlt ordinal_negative_lt
      · exact hgt lt_ordinal_positive
    | @finite t m' e' hm' hkept' hstorable' =>
      have hmagnitude := compare_magnitude hkept hkept'
      cases s <;> cases t
      · refine congrArg some ?_
        show ((compare e e').then (compare m m')).swap
          = compare (-(magnitude format m e : Int)) (-(magnitude format m' e' : Int))
        rw [compare_neg, compare_natCast, hmagnitude]
      · exact hlt (Int.lt_trans ordinal_negative_lt lt_ordinal_positive)
      · exact hgt (Int.lt_trans ordinal_negative_lt lt_ordinal_positive)
      · exact congrArg some (hmagnitude.trans (compare_natCast _ _).symm)

/-- What is a number of the format, if it is a number. -/
def Stored (format : Format) (u : UnpackedFloat) : Prop := u.isNaN = false → Number format u

theorem compare_eq_none {u v : UnpackedFloat} (h : u.isNaN = true ∨ v.isNaN = true) :
    u.compare v = none := by
  cases u with
  | notANumber => rfl
  | _ =>
    cases v with
    | notANumber => rfl
    | _ => rcases h with h | h <;> cases h

/-- Comparing gives an answer for numbers only. -/
theorem compare_eq_some_iff {u v : UnpackedFloat} (hu : Stored format u) (hv : Stored format v)
    {o : Ordering} : u.compare v = some o ↔
      u.isNaN = false ∧ v.isNaN = false ∧ compare (ordinal format u) (ordinal format v) = o := by
  cases hnu : u.isNaN with
  | true => simp [compare_eq_none (v := v) (.inl hnu)]
  | false =>
    cases hnv : v.isNaN with
    | true => simp [compare_eq_none (u := u) (.inr hnv)]
    | false => simp [compare_eq_ordinal (hu hnu) (hv hnv)]

theorem lt_iff_ordinal {u v : UnpackedFloat} (hu : Stored format u) (hv : Stored format v) :
    u.lt v = true ↔ u.isNaN = false ∧ v.isNaN = false ∧ ordinal format u < ordinal format v := by
  rw [UnpackedFloat.lt, beq_iff_eq, compare_eq_some_iff hu hv, compare_lt_iff_lt]

theorem le_iff_ordinal {u v : UnpackedFloat} (hu : Stored format u) (hv : Stored format v) :
    u.le v = true ↔ u.isNaN = false ∧ v.isNaN = false ∧ ordinal format u ≤ ordinal format v := by
  rw [UnpackedFloat.le, Option.any_eq_true]
  constructor
  · rintro ⟨o, ho, hle⟩
    obtain ⟨hnu, hnv, rfl⟩ := (compare_eq_some_iff hu hv).1 ho
    exact ⟨hnu, hnv, compare_le_iff_le.1 (Ordering.isLE_iff_ne_gt.1 hle)⟩
  · rintro ⟨hnu, hnv, hle⟩
    exact ⟨_, (compare_eq_some_iff hu hv).2 ⟨hnu, hnv, rfl⟩,
      Ordering.isLE_iff_ne_gt.2 (compare_le_iff_le.2 hle)⟩

theorem beq_iff_ordinal {u v : UnpackedFloat} (hu : Stored format u) (hv : Stored format v) :
    u.beq v = true ↔ u.isNaN = false ∧ v.isNaN = false ∧ ordinal format u = ordinal format v := by
  rw [UnpackedFloat.beq, beq_iff_eq, compare_eq_some_iff hu hv, compare_eq_iff_eq]

/-! ## Ordinals and bits -/

theorem toNat_unpackMantissa (b : BitVec Format.binary64.numBits) :
    (unpackMantissa b).toNat = b.toNat % 2 ^ 52 := by
  simp [unpackMantissa]

theorem toNat_unpackExponent (b : BitVec Format.binary64.numBits) :
    (unpackExponent b).toNat = b.toNat / 2 ^ 52 % 2 ^ 11 := by
  simp [unpackExponent, Nat.shiftRight_eq_div_pow]

theorem toNat_unpackSign (b : BitVec Format.binary64.numBits) :
    (unpackSign b).toNat = b.toNat / 2 ^ 63 % 2 := by
  simp [unpackSign, Nat.shiftRight_eq_div_pow]

theorem magnitude_stored {m : Nat} {e : Int} {k : Nat} (h : e = k - 1074) :
    magnitude .binary64 m e = k * 2 ^ 52 + m := by
  have hk : (e - Format.binary64.minExponent).toNat = k := by
    have hmin : Format.binary64.minExponent = -1074 := rfl
    omega
  rw [magnitude, hk]

/-- The ordinal is what the bits after the first say, with the sign that the first one gives. -/
theorem ordinal_unpack (b : BitVec Format.binary64.numBits)
    (h : (unpack .binary64 b).isNaN = false) :
    ordinal .binary64 (unpack .binary64 b)
      = (Sign.ofBitVec (unpackSign b)).apply (b.toNat % 2 ^ 63 : Nat) := by
  have hmantissa := toNat_unpackMantissa b
  have hexponent := toNat_unpackExponent b
  have hsplit : b.toNat % 2 ^ 63 = (unpackExponent b).toNat * 2 ^ 52 + (unpackMantissa b).toNat := by
    omega
  have hbias : ((Format.binary64.exponentBias : Nat) + (52 : Nat) : Int) = 1075 := rfl
  rw [hsplit]
  rw [unpack] at h ⊢
  dsimp only at h ⊢
  rw [hbias] at h ⊢
  split at h
  · rename_i hones
    rw [if_pos hones]
    split at h
    · rename_i hzero
      rw [if_pos hzero, ordinal, hones, hzero, BitVec.toNat_zero, Nat.add_zero]
      rfl
    · cases h
  · rename_i hones
    rw [if_neg hones]
    split
    · rename_i hzeros
      have hnone : (unpackExponent b).toNat = 0 := by rw [hzeros, BitVec.toNat_zero]
      split
      · rename_i hzero
        rw [ordinal, hnone, hzero, BitVec.toNat_zero, Nat.zero_mul]
        cases Sign.ofBitVec (unpackSign b) <;> rfl
      · rw [ordinal, magnitude_stored (k := 0) (by omega), hnone]
    · rename_i hzeros
      have hsome : (unpackExponent b).toNat ≠ 0 := fun h0 =>
        hzeros (BitVec.eq_of_toNat_eq (by rw [h0, BitVec.toNat_zero]))
      rw [ordinal, magnitude_stored (k := (unpackExponent b).toNat - 1) (by omega),
        @toNat_implicit .binary64]
      have hsum : ((unpackExponent b).toNat - 1) * 2 ^ 52 + (2 ^ 52 + (unpackMantissa b).toNat)
          = (unpackExponent b).toNat * 2 ^ 52 + (unpackMantissa b).toNat := by omega
      exact congrArg (fun k : Nat => (Sign.ofBitVec (unpackSign b)).apply k) hsum

end Unpacked

/-! ## The two precisions -/

open Unpacked (ordinal Stored number_unpack lt_iff_ordinal le_iff_ordinal beq_iff_ordinal)

/-- The ordinal of a single-precision number. -/
def ordinal32 (x : Float32) : Int := ordinal .binary32 x.toModel.unpack

/-- The ordinal of a double-precision number. -/
def ordinal64 (x : Float) : Int := ordinal .binary64 x.toModel.unpack

theorem stored32 (x : Float32) : Stored .binary32 x.toModel.unpack :=
  fun h => number_unpack (by decide) h

theorem stored64 (x : Float) : Stored .binary64 x.toModel.unpack :=
  fun h => number_unpack (by decide) h

theorem lt_iff_ordinal32 {x y : Float32} :
    x < y ↔ x.isNaN = false ∧ y.isNaN = false ∧ ordinal32 x < ordinal32 y :=
  decide_eq_true_iff.trans (lt_iff_ordinal (stored32 x) (stored32 y))

theorem le_iff_ordinal32 {x y : Float32} :
    x ≤ y ↔ x.isNaN = false ∧ y.isNaN = false ∧ ordinal32 x ≤ ordinal32 y :=
  decide_eq_true_iff.trans (le_iff_ordinal (stored32 x) (stored32 y))

theorem beq_iff_ordinal32 {x y : Float32} :
    (x == y) = true ↔ x.isNaN = false ∧ y.isNaN = false ∧ ordinal32 x = ordinal32 y :=
  beq_iff_ordinal (stored32 x) (stored32 y)

theorem isNaN_of_lt32 {x y : Float32} (h : x < y) : x.isNaN = false := (lt_iff_ordinal32.1 h).1

theorem le_refl32 {x : Float32} (h : x.isNaN = false) : x ≤ x :=
  le_iff_ordinal32.2 ⟨h, h, Int.le_refl _⟩

theorem le_trans32 {x y z : Float32} (h : x ≤ y) (h' : y ≤ z) : x ≤ z := by
  rw [le_iff_ordinal32] at *
  exact ⟨h.1, h'.2.1, Int.le_trans h.2.2 h'.2.2⟩

theorem le_of_lt32 {x y : Float32} (h : x < y) : x ≤ y := by
  rw [lt_iff_ordinal32] at h
  rw [le_iff_ordinal32]
  exact ⟨h.1, h.2.1, Int.le_of_lt h.2.2⟩

theorem lt_of_le_of_lt32 {x y z : Float32} (h : x ≤ y) (h' : y < z) : x < z := by
  rw [le_iff_ordinal32] at h
  rw [lt_iff_ordinal32] at h' ⊢
  exact ⟨h.1, h'.2.1, Int.lt_of_le_of_lt h.2.2 h'.2.2⟩

theorem lt_of_lt_of_le32 {x y z : Float32} (h : x < y) (h' : y ≤ z) : x < z := by
  rw [le_iff_ordinal32] at h'
  rw [lt_iff_ordinal32] at h ⊢
  exact ⟨h.1, h'.2.1, Int.lt_of_lt_of_le h.2.2 h'.2.2⟩

theorem le_infinity32 {x : Float32} (h : x.isNaN = false) : x ≤ Single.infinity.value :=
  le_iff_ordinal32.2 ⟨h, rfl, Unpacked.ordinal_le_top (stored32 x h)⟩

theorem not_lt_of_le32 {x y : Float32} (h : x ≤ y) : ¬ y < x := by
  rw [le_iff_ordinal32] at h
  rw [lt_iff_ordinal32]
  exact fun h' => Int.not_lt.2 h.2.2 h'.2.2

/-- Of two numbers one is not above the other. -/
theorem le_of_not_lt32 {x y : Float32} (hx : x.isNaN = false) (hy : y.isNaN = false)
    (h : ¬ y < x) : x ≤ y := by
  rw [lt_iff_ordinal32] at h
  rw [le_iff_ordinal32]
  exact ⟨hx, hy, Int.not_lt.1 fun hlt => h ⟨hy, hx, hlt⟩⟩

theorem lt_iff_ordinal64 {x y : Float} :
    x < y ↔ x.isNaN = false ∧ y.isNaN = false ∧ ordinal64 x < ordinal64 y :=
  decide_eq_true_iff.trans (lt_iff_ordinal (stored64 x) (stored64 y))

theorem le_iff_ordinal64 {x y : Float} :
    x ≤ y ↔ x.isNaN = false ∧ y.isNaN = false ∧ ordinal64 x ≤ ordinal64 y :=
  decide_eq_true_iff.trans (le_iff_ordinal (stored64 x) (stored64 y))

theorem beq_iff_ordinal64 {x y : Float} :
    (x == y) = true ↔ x.isNaN = false ∧ y.isNaN = false ∧ ordinal64 x = ordinal64 y :=
  beq_iff_ordinal (stored64 x) (stored64 y)

theorem le_refl64 {x : Float} (h : x.isNaN = false) : x ≤ x :=
  le_iff_ordinal64.2 ⟨h, h, Int.le_refl _⟩

theorem le_trans64 {x y z : Float} (h : x ≤ y) (h' : y ≤ z) : x ≤ z := by
  rw [le_iff_ordinal64] at *
  exact ⟨h.1, h'.2.1, Int.le_trans h.2.2 h'.2.2⟩

/-! ## The total order -/

/-- **The total order and the order of numbers.**  The place of a number in the total order is its
ordinal, counted from the middle; what has a minus sign, zero included, stands one place lower. -/
theorem rank64_eq {x : Float} (h : x.isNaN = false) :
    0 ≤ ordinal64 x ∧ (rank64 x : Int) = 2 ^ 63 + ordinal64 x ∨
      ordinal64 x ≤ 0 ∧ (rank64 x : Int) = 2 ^ 63 + ordinal64 x - 1 := by
  have hlt := x.toBits.toNat_lt
  have hwords : wordValues (64 - 1) = 2 ^ 63 := by decide
  have hwords' : wordValues 64 = 2 ^ 64 := by decide
  have hordinal : ordinal64 x = (Sign.ofBitVec (@unpackSign .binary64
      x.toBits.toBitVec)).apply (x.toBits.toNat % 2 ^ 63 : Nat) :=
    Unpacked.ordinal_unpack x.toBits.toBitVec h
  have hsign : (@unpackSign .binary64 x.toBits.toBitVec).toNat
      = x.toBits.toNat / 2 ^ 63 % 2 := Unpacked.toNat_unpackSign x.toBits.toBitVec
  rw [hordinal, rank64, rankOfBits, hwords, hwords']
  by_cases hsmall : x.toBits.toNat < 2 ^ 63
  · have hzero : @unpackSign .binary64 x.toBits.toBitVec = 0#1 := by
      refine BitVec.eq_of_toNat_eq ?_
      rw [hsign, Nat.div_eq_of_lt hsmall]
      rfl
    have happly : (Sign.ofBitVec 0#1).apply (x.toBits.toNat % 2 ^ 63 : Nat)
        = (x.toBits.toNat % 2 ^ 63 : Nat) := rfl
    rw [hzero, happly, if_pos hsmall]
    omega
  · have hone : @unpackSign .binary64 x.toBits.toBitVec = 1#1 := by
      refine BitVec.eq_of_toNat_eq ?_
      rw [hsign, BitVec.toNat_ofNat]
      omega
    have happly : (Sign.ofBitVec 1#1).apply (x.toBits.toNat % 2 ^ 63 : Nat)
        = -(x.toBits.toNat % 2 ^ 63 : Nat) := rfl
    rw [hone, happly, if_neg hsmall]
    omega

/-- What comes first in the total order is not larger. -/
theorem le_of_rank64_le {x y : Float} (hx : x.isNaN = false) (hy : y.isNaN = false)
    (h : rank64 x ≤ rank64 y) : x ≤ y := by
  have hrankx := rank64_eq hx
  have hranky := rank64_eq hy
  exact le_iff_ordinal64.2 ⟨hx, hy, by omega⟩

end ProductQuantization
