import ProductQuantization.Proofs.Distance.LaneSums
import ProductQuantization.Proofs.Number.FiniteMean
import ProductQuantization.Proofs.Number.Ordinal
import ProductQuantization.Proofs.Number.SignedZero

/-!
# One, zero, and sums with one term

Multiplying a finite number by one gives that number, bit for bit, and multiplying it by zero gives a
zero of one sign or the other.  Adding a zero changes a number at most if it is a zero itself, and
then only its sign, which comparisons do not see.

So a sum whose terms are all zero, but for one of them, is that one up to the sign of a zero.
`Single.Holds v n x` says how often `x` has `v` in it, zero times or once; adding adds these numbers
up (`Holds.add`), and so does the sum over four running sums (`agree_laneSum`).
-/

set_option autoImplicit false

namespace ProductQuantization

open Float.Model (Format UnpackedFloat)
open Float.Model.UnpackedFloat
open Rounding

/-! ## Single precision -/

theorem ofModel_pack_unpack (x : Float32) : Float32.ofModel (.pack x.toModel.unpack) = x :=
  Float32.toBits_inj.1 <| UInt32.toBitVec_inj.1 <| pack_unpack_of_valid x.toModel.valid

theorem unpack_one :
    Single.one.value.toModel.unpack = .finite .positive (2 ^ 23) (-23) (Nat.two_pow_pos 23) := by
  rfl

theorem unpack_zero : Single.zero.value.toModel.unpack = .zero .positive := by
  rfl

theorem mul_positive (s : Sign) : s * .positive = s := by
  cases s <;> rfl

/-- Multiplying by one changes nothing, not even the sign of a zero. -/
theorem mul_one_of_isFinite {x : Float32} (h : x.isFinite = true) : x * Single.one.value = x := by
  have hmul : UnpackedFloat.mul .binary32 x.toModel.unpack Single.one.value.toModel.unpack
      = x.toModel.unpack := by
    rw [unpack_one]
    obtain ⟨s, hx⟩ | ⟨s, m, e, hm, hx⟩ := zero_or_finite (u := x.toModel.unpack) h
    · rw [hx]
      exact congrArg UnpackedFloat.zero (mul_positive s)
    · have hcanonical := (canonical_of_unpack (by decide) hx).1
      have hround := roundWithAccuracy_of_canonical hm hcanonical (s * .positive) 23
      rw [hx]
      exact hround.trans (by rw [mul_positive])
  calc x * Single.one.value
      = .ofModel (.pack (UnpackedFloat.mul .binary32 x.toModel.unpack
          Single.one.value.toModel.unpack)) := rfl
    _ = .ofModel (.pack x.toModel.unpack) := by rw [hmul]
    _ = x := ofModel_pack_unpack x

theorem unpack_mul_zero {x : Float32} (h : x.isFinite = true) :
    ∃ s, (x * Single.zero.value).toModel.unpack = .zero s := by
  have hmul : ∃ s, UnpackedFloat.mul .binary32 x.toModel.unpack Single.zero.value.toModel.unpack
      = .zero s := by
    rw [unpack_zero]
    obtain ⟨s, hx⟩ | ⟨s, m, e, hm, hx⟩ := zero_or_finite (u := x.toModel.unpack) h
    · exact ⟨_, by rw [hx]; rfl⟩
    · exact ⟨_, by rw [hx]; rfl⟩
  obtain ⟨s, hs⟩ := hmul
  refine ⟨s, ?_⟩
  show unpack .binary32 (pack .binary32 (UnpackedFloat.mul .binary32 x.toModel.unpack
    Single.zero.value.toModel.unpack)) = .zero s
  rw [hs]
  exact unpack_packedZero

/-- Adding a zero changes at most the sign of a zero. -/
theorem agree32_add_zero {x y : Float32} {s : Sign} (hy : y.toModel.unpack = .zero s) :
    Agree32 (x + y) x := by
  have h := agree32_ofModel (@Unpacked.Agree.add_zero .binary32 x.toModel.unpack s)
  rwa [← hy, ofModel_pack_unpack] at h

theorem agree32_zero_add {x y : Float32} {s : Sign} (hx : x.toModel.unpack = .zero s) :
    Agree32 (x + y) y := by
  have h := agree32_ofModel (@Unpacked.Agree.zero_add .binary32 s y.toModel.unpack)
  rwa [← hx, ofModel_pack_unpack] at h

/-! ## Double precision -/

section Double

variable {x x' y y' z : Float}

theorem ofModel_pack_unpack64 (x : Float) : Float.ofModel (.pack x.toModel.unpack) = x :=
  Float.toBits_inj.1 <| UInt64.toBitVec_inj.1 <| pack_unpack_of_valid x.toModel.valid

theorem unpack_zero64 : (0.0 : Float).toModel.unpack = .zero .positive := by
  rfl

theorem agree64_zero_of_unpack {s : Sign} (h : x.toModel.unpack = .zero s) : Agree64 x 0.0 := by
  rw [Agree64, h, unpack_zero64]
  exact .zeros _ _

theorem exists_sign_of_agree64_zero (h : Agree64 x 0.0) : ∃ s, x.toModel.unpack = .zero s := by
  obtain h | ⟨s, -, hs, -⟩ := Unpacked.Agree.eq_or_zeros h
  · exact ⟨_, h.trans unpack_zero64⟩
  · exact ⟨s, hs⟩

theorem not_agree64_zero {s : Sign} {m : Nat} {e : Int} {hm : 0 < m}
    (h : x.toModel.unpack = .finite s m e hm) : ¬ Agree64 x 0.0 := by
  intro hzero
  obtain ⟨t, ht⟩ := exists_sign_of_agree64_zero hzero
  cases h.symm.trans ht

theorem beq_zero_of_not_agree (h : ¬ Agree64 x 0.0) : (x == 0.0) = false := by
  cases hx : (x == 0.0) with
  | false => rfl
  | true => exact absurd (Unpacked.Agree.of_beq hx) h

theorem beq_zero_of_unpack {s : Sign} (h : x.toModel.unpack = .zero s) : (x == 0.0) = true :=
  Unpacked.Agree.beq_eq_true (agree64_zero_of_unpack h) (congrArg UnpackedFloat.isNaN h)

/-- What agrees with a number that is not zero is that number. -/
theorem eq_of_agree64 (h : Agree64 x y) (hy : ¬ Agree64 y 0.0) : x = y := by
  obtain h | ⟨s, t, -, ht⟩ := Unpacked.Agree.eq_or_zeros h
  · exact eq_of_unpack_eq64 h
  · exact absurd (agree64_zero_of_unpack ht) hy

/-! ### Comparisons -/

theorem Agree64.ordinal_eq (h : Agree64 x y) : ordinal64 x = ordinal64 y := by
  rw [ordinal64, ordinal64]
  obtain h | ⟨s, t, hx, hy⟩ := Unpacked.Agree.eq_or_zeros h
  · rw [h]
  · rw [hx, hy]
    rfl

theorem Agree64.lt_iff (hx : Agree64 x x') (hy : Agree64 y y') : x < y ↔ x' < y' := by
  rw [lt_iff_ordinal64, lt_iff_ordinal64, hx.isNaN_eq, hy.isNaN_eq, hx.ordinal_eq, hy.ordinal_eq]

theorem Agree64.le_iff (hx : Agree64 x x') (hy : Agree64 y y') : x ≤ y ↔ x' ≤ y' := by
  rw [le_iff_ordinal64, le_iff_ordinal64, hx.isNaN_eq, hy.isNaN_eq, hx.ordinal_eq, hy.ordinal_eq]

/-! ### Zero as an operand -/

theorem agree64_add_zero (hy : Agree64 y 0.0) : Agree64 (x + y) x := by
  obtain ⟨s, hs⟩ := exists_sign_of_agree64_zero hy
  have h := agree64_ofModel (@Unpacked.Agree.add_zero .binary64 x.toModel.unpack s)
  rwa [← hs, ofModel_pack_unpack64] at h

theorem agree64_zero_add (hx : Agree64 x 0.0) : Agree64 (x + y) y := by
  obtain ⟨s, hs⟩ := exists_sign_of_agree64_zero hx
  have h := agree64_ofModel (@Unpacked.Agree.zero_add .binary64 s y.toModel.unpack)
  rwa [← hs, ofModel_pack_unpack64] at h

/-- Adding zero to another number does not change it. -/
theorem add_eq_left {s : Sign} (hx : ¬ Agree64 x 0.0) (hy : y.toModel.unpack = .zero s) : x + y = x :=
  eq_of_agree64 (agree64_add_zero (agree64_zero_of_unpack hy)) hx

theorem add_eq_right {s : Sign} (hx : x.toModel.unpack = .zero s) (hy : ¬ Agree64 y 0.0) : x + y = y :=
  eq_of_agree64 (agree64_zero_add (agree64_zero_of_unpack hx)) hy

theorem agree64_sub_zero (hy : Agree64 y 0.0) : Agree64 (x - y) x := by
  obtain ⟨s, hs⟩ := exists_sign_of_agree64_zero hy
  have h := agree64_ofModel (@Unpacked.Agree.sub_zero .binary64 x.toModel.unpack s)
  rwa [← hs, ofModel_pack_unpack64] at h

/-- A finite number times zero is a zero. -/
theorem agree64_mul_zero (hx : x.isFinite = true) (hy : Agree64 y 0.0) : Agree64 (x * y) 0.0 := by
  have hmul : Agree64 (x * 0.0) 0.0 := by
    obtain ⟨s, hs⟩ | ⟨s, m, e, hm, hs⟩ := zero_or_finite (u := x.toModel.unpack) hx <;>
    · refine agree64_zero_of_unpack (s := s * .positive) ?_
      show unpack .binary64 (pack .binary64 (UnpackedFloat.mul .binary64 x.toModel.unpack
        (0.0 : Float).toModel.unpack)) = _
      rw [hs, unpack_zero64]
      exact unpack_packedZero
  exact (Agree64.mul (.refl x) hy).trans hmul

theorem agree64_zero_mul (hx : Agree64 x 0.0) (hy : y.isFinite = true) : Agree64 (x * y) 0.0 := by
  have hmul : Agree64 (0.0 * y) 0.0 := by
    obtain ⟨s, hs⟩ | ⟨s, m, e, hm, hs⟩ := zero_or_finite (u := y.toModel.unpack) hy <;>
    · refine agree64_zero_of_unpack (s := .positive * s) ?_
      show unpack .binary64 (pack .binary64 (UnpackedFloat.mul .binary64
        (0.0 : Float).toModel.unpack y.toModel.unpack)) = _
      rw [hs, unpack_zero64]
      exact unpack_packedZero
  exact (Agree64.mul hx (.refl y)).trans hmul

/-- Zero over what is not zero is a zero. -/
theorem agree64_zero_div (hx : Agree64 x 0.0) (hy : y.isNaN = false) (hne : ¬ Agree64 y 0.0) :
    Agree64 (x / y) 0.0 := by
  refine (hx.div y).trans ?_
  have hdiv : ∃ s, UnpackedFloat.div .binary64 (0.0 : Float).toModel.unpack y.toModel.unpack
      = .zero s := by
    rw [unpack_zero64]
    have hnan : y.toModel.unpack.isNaN = false := hy
    cases hu : y.toModel.unpack with
    | notANumber =>
      rw [hu] at hnan
      cases hnan
    | infinity s => exact ⟨_, rfl⟩
    | zero s => exact absurd (agree64_zero_of_unpack hu) hne
    | finite s m e hm => exact ⟨_, rfl⟩
  obtain ⟨s, hs⟩ := hdiv
  refine agree64_zero_of_unpack (s := s) ?_
  show unpack .binary64 (pack .binary64 (UnpackedFloat.div .binary64 (0.0 : Float).toModel.unpack
    y.toModel.unpack)) = _
  rw [hs]
  exact unpack_packedZero

end Double

/-! ## Stored numbers -/

namespace Single

variable {v x y : Single}

theorem IsFinite.mul_one (h : x.IsFinite) : x * one = x := by
  have hvalue := mul_one_of_isFinite h
  have hx := h.isNaN_eq
  have hnan : (x.value * one.value).isNaN = false := by rw [hvalue, ← Single.isNaN_eq, hx]
  show lift (· * ·) x one = x
  rw [lift_eq hx rfl hnan, hvalue, ofValue_value hx]

theorem IsFinite.mul_zero (h : x.IsFinite) : (x * zero).IsZero := by
  obtain ⟨s, hs⟩ := unpack_mul_zero h
  have hnan : (x.value * zero.value).isNaN = false := congrArg UnpackedFloat.isNaN hs
  show (lift (· * ·) x zero).IsZero
  rw [lift_eq h.isNaN_eq rfl hnan]
  exact isZero_ofValue hs

/-- An operation whose result agrees with a number. -/
theorem agree_lift {op : Float32 → Float32 → Float32} {z : Single} (hx : x.isNaN = false)
    (hy : y.isNaN = false) (hz : z.isNaN = false) (h : Agree32 (op x.value y.value) z.value) :
    (lift op x y).Agree z := by
  have hnan : (op x.value y.value).isNaN = false := by rw [h.isNaN_eq, ← Single.isNaN_eq, hz]
  have hagree := agree_ofValue h
  rw [ofValue_value hz] at hagree
  rw [lift_eq hx hy hnan]
  exact hagree

theorem IsZero.zero_add (hx : x.IsZero) (hy : y.isNaN = false) : (x + y).Agree y := by
  obtain ⟨s, hs⟩ := hx.exists_sign
  exact agree_lift hx.isNaN_eq hy hy (agree32_zero_add hs)

theorem IsZero.add_zero (hy : y.IsZero) (hx : x.isNaN = false) : (x + y).Agree x := by
  obtain ⟨s, hs⟩ := hy.exists_sign
  exact agree_lift hx hy.isNaN_eq hx (agree32_add_zero hs)

/-! ## Sums in which a number is a term at most once -/

/-- A sum in which `v` is a term `n` times, zero times or once, and all else is zero. -/
inductive Holds (v : Single) : Nat → Single → Prop where
  | never {x : Single} (h : x.IsZero) : Holds v 0 x
  | once {x : Single} (h : x.Agree v) : Holds v 1 x

theorem Holds.add {k n : Nat} (hv : v.isNaN = false) (hx : Holds v k x) (hy : Holds v n y)
    (hle : k + n ≤ 1) : Holds v (k + n) (x + y) := by
  cases hx with
  | never hx =>
    cases hy with
    | never hy => exact .never ((hx.zero_add hy.isNaN_eq).isZero hy)
    | once hy => exact .once ((hx.zero_add (hy.isNaN_eq.trans hv)).trans hy)
  | once hx =>
    cases hy with
    | never hy => exact .once ((hy.add_zero (hx.isNaN_eq.trans hv)).trans hx)
    | once hy => omega

end Single

end ProductQuantization
