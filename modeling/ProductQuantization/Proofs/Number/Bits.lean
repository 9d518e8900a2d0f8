import Mathlib
import ProductQuantization.Number.Double

/-!
# Bits and the numbers behind them

A stored number is its bits, and the number behind them forgets only one thing, which of the many
patterns that are not a number it was.  So the two ways of asking for a number agree: looking at the
bits, as arithmetic on stored numbers does, and looking at the number behind them (`isNaN_eq`).
Numbers that are there lose nothing on the way to their value and back (`ofValue_value`).
-/

set_option autoImplicit false

namespace ProductQuantization

open Float.Model (Format UnpackedFloat)
open Float.Model.UnpackedFloat

/-! ## Patterns of any format -/

section Patterns

variable {format : Format}

theorem isNaNBits_iff (b : BitVec format.numBits) :
    isNaNBits b = true ↔
      b.toNat / 2 ^ format.mantissaBitsWithoutImplicit % 2 ^ format.exponentBits
          = 2 ^ format.exponentBits - 1 ∧
        b.toNat % 2 ^ format.mantissaBitsWithoutImplicit ≠ 0 := by
  rw [isNaNBits, decide_eq_true_eq, unpackExponent_def, unpackMantissa_def, ← BitVec.toNat_inj, Ne,
    ← BitVec.toNat_inj, BitVec.extractLsb'_toNat, BitVec.extractLsb'_toNat,
    Nat.shiftRight_eq_div_pow, Nat.shiftRight_zero, BitVec.neg_one_eq_allOnes, BitVec.toNat_allOnes,
    BitVec.toNat_ofNat, Nat.zero_mod]

/-- Only the patterns that are not a number are changed by packing what they stand for. -/
theorem isNaN_unpack_pack_unpack (h : 2 ≤ format.exponentBits) (b : BitVec format.numBits) :
    (unpack format (pack format (unpack format b))).isNaN = isNaNBits b := by
  rw [Bool.eq_iff_iff, isNaN_unpack_iff_of_valid valid_pack h, pack_unpack b h]
  by_cases hb : isNaNBits b = true
  · rw [if_pos hb]
    exact iff_of_true rfl hb
  · rw [if_neg hb]
    exact iff_of_false (fun h0 => hb (h0 ▸ isNaNBits_packedNaN)) hb

end Patterns

/-! ## Single precision -/

namespace Single

theorem isNaN_iff (x : Single) : x.isNaN = true ↔ @isNaNBits .binary32 x.bits.toBitVec := by
  have hmask : (x.bits &&& 0x7fffffff).toNat = x.bits.toNat % 2 ^ 31 := by
    rw [UInt32.toNat_and]
    exact Nat.and_two_pow_sub_one_eq_mod x.bits.toNat 31
  have hlt := x.bits.toNat_lt
  rw [isNaNBits_iff, isNaN, decide_eq_true_eq, UInt32.lt_iff_toNat_lt, hmask]
  show 0x7f800000 < x.bits.toNat % 2 ^ 31 ↔
    x.bits.toNat / 2 ^ 23 % 2 ^ 8 = 2 ^ 8 - 1 ∧ x.bits.toNat % 2 ^ 23 ≠ 0
  omega

/-- The bits tell whether there is a number behind them. -/
theorem isNaN_eq (x : Single) : x.isNaN = x.value.isNaN := by
  rw [Bool.eq_iff_iff, isNaN_iff, ← isNaN_unpack_pack_unpack (by decide)]
  rfl

theorem value_ofValue (x : Float32) : (ofValue x).value = x := Float32.ofBits_toBits x

theorem isNaN_ofValue (x : Float32) : (ofValue x).isNaN = x.isNaN := by
  rw [isNaN_eq, value_ofValue]

/-- A number keeps its bits. -/
theorem ofValue_value {x : Single} (h : x.isNaN = false) : ofValue x.value = x := by
  have hbits : pack .binary32 (unpack .binary32 x.bits.toBitVec) = x.bits.toBitVec := by
    rw [pack_unpack, if_neg]
    exact fun h0 => Bool.false_ne_true (h.symm.trans ((isNaN_iff x).2 h0))
  exact congrArg Single.mk (UInt32.toBitVec_inj.1 hbits)

/-- An operation on two numbers that gives a number. -/
theorem lift_eq {op : Float32 → Float32 → Float32} {x y : Single} (hx : x.isNaN = false)
    (hy : y.isNaN = false) (hz : (op x.value y.value).isNaN = false) :
    lift op x y = ofValue (op x.value y.value) := by
  simp only [lift, hx, hy, hz, Bool.false_eq_true, if_false]

/-- What is made quiet is not a number before and after. -/
theorem isNaN_quiet {x : Single} (h : x.isNaN = true) : x.quiet.isNaN = true := by
  rw [isNaN, decide_eq_true_eq, UInt32.lt_iff_toNat_lt, UInt32.toNat_and] at h ⊢
  rw [quiet, UInt32.toNat_or, Nat.and_or_distrib_right]
  exact Nat.lt_of_lt_of_le h Nat.left_le_or

/-- An operation on something that is not a number. -/
theorem isNaN_lift {op : Float32 → Float32 → Float32} {x y : Single}
    (h : x.isNaN = true ∨ y.isNaN = true) : (lift op x y).isNaN = true := by
  rw [lift]
  by_cases hx : x.isNaN = true
  · rw [if_pos hx]
    exact isNaN_quiet hx
  · have hy := h.resolve_left hx
    rw [if_neg hx, if_pos hy]
    exact isNaN_quiet hy

end Single

/-! ## Double precision -/

namespace Double

theorem isNaN_iff (x : Double) : x.isNaN = true ↔ @isNaNBits .binary64 x.bits.toBitVec := by
  have hmask : (x.bits &&& 0x7fffffffffffffff).toNat = x.bits.toNat % 2 ^ 63 := by
    rw [UInt64.toNat_and]
    exact Nat.and_two_pow_sub_one_eq_mod x.bits.toNat 63
  have hlt := x.bits.toNat_lt
  rw [isNaNBits_iff, isNaN, decide_eq_true_eq, UInt64.lt_iff_toNat_lt, hmask]
  show 0x7ff0000000000000 < x.bits.toNat % 2 ^ 63 ↔
    x.bits.toNat / 2 ^ 52 % 2 ^ 11 = 2 ^ 11 - 1 ∧ x.bits.toNat % 2 ^ 52 ≠ 0
  omega

/-- The bits tell whether there is a number behind them. -/
theorem isNaN_eq (x : Double) : x.isNaN = x.value.isNaN := by
  rw [Bool.eq_iff_iff, isNaN_iff, ← isNaN_unpack_pack_unpack (by decide)]
  rfl

theorem value_ofValue (x : Float) : (ofValue x).value = x := Float.ofBits_toBits x

theorem isNaN_ofValue (x : Float) : (ofValue x).isNaN = x.isNaN := by
  rw [isNaN_eq, value_ofValue]

/-- An operation on two numbers that gives a number. -/
theorem lift_eq {op : Float → Float → Float} {x y : Double} (hx : x.isNaN = false)
    (hy : y.isNaN = false) (hz : (op x.value y.value).isNaN = false) :
    lift op x y = ofValue (op x.value y.value) := by
  simp only [lift, hx, hy, hz, Bool.false_eq_true, if_false]

end Double
end ProductQuantization
