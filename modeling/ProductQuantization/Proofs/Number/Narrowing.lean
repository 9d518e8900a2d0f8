import ProductQuantization.Proofs.Number.Rounded

/-!
# Fewer digits

A number in double precision is rounded to the nearest one in single precision.  Like every
rounding this keeps the order (`narrow_le_narrow`), but the numbers that are rounded are finer than
those that are left, so that they cannot be counted by the smallest of these.  They are counted by a
smaller power of two, and `placeFrom` is the ordinal of the number nearest to so many of it.
Infinity is rounded to infinity, which no finite number bounds (`not_narrow_le_of_infinity`).
-/

set_option autoImplicit false

namespace ProductQuantization

open Float.Model (Format UnpackedFloat)
open Float.Model.UnpackedFloat
open Rounding

namespace Rounding

variable {format : Format} {m n : Nat} {e t : Int}

/-! ## Cutting off digits keeps the order -/

theorem le_cut (h : e ≤ format.minExponent) (m : Nat) : e ≤ cut format m e := by
  rw [cut_eq]
  exact h.trans (le_max_right _ _)

theorem minExponent_le_cut (format : Format) (m : Nat) (e : Int) :
    format.minExponent ≤ cut format m e := by
  rw [cut_eq]
  exact le_max_right _ _

theorem cut_mono (h : m ≤ n) (e : Int) : cut format m e ≤ cut format n e := by
  have hlog : m.log2 ≤ n.log2 := by
    rw [Nat.log2_eq_log_two, Nat.log2_eq_log_two]
    exact Nat.log_mono_right h
  rw [cut_eq, cut_eq]
  exact max_le_max_right _ (by omega)

theorem digitsLeft_mono (h : m ≤ n) (k : Nat) :
    digitsLeft m .exact k ≤ digitsLeft n .exact k := roundedMantissa_le_of_le h k

/-- Digits moved from the exponent into the mantissa are cut off at the same place. -/
theorem cut_mul_two_pow (hm : 0 < m) (e : Int) (k : Nat) :
    cut format (m * 2 ^ k) e = cut format m (e + k) := by
  rw [cut_eq, cut_eq, log2_mul_two_pow hm]
  push_cast
  congr 1
  omega

theorem digitsLeft_mul_two_pow_add (m k n : Nat) :
    digitsLeft (m * 2 ^ k) .exact (k + n) = digitsLeft m .exact n := by
  show (((⟨m * 2 ^ k, false, false⟩ : ExtendedMantissa)) >>> (k + n)).roundedMantissa = _
  rw [shiftRight_add, shiftRight_exact]
  rfl

end Rounding

namespace Unpacked

variable {format : Format} {m n : Nat} {e : Int}

/-! ## Places -/

/-- The ordinal of the number nearest to `n` times two to the power of `e`. -/
def placeFrom (format : Format) (e : Int) (n : Nat) : Nat :=
  (cut format n e - format.minExponent).toNat * 2 ^ format.mantissaBitsWithoutImplicit
    + digitsLeft n .exact (cut format n e - e).toNat

theorem placeFrom_mono (he : e ≤ format.minExponent) (h : m ≤ n) :
    placeFrom format e m ≤ placeFrom format e n := by
  have hcut : cut format m e ≤ cut format n e := cut_mono h e
  have hmin := minExponent_le_cut format m e
  rcases hcut.eq_or_lt with hsame | hless
  · rw [placeFrom, placeFrom, ← hsame]
    exact Nat.add_le_add_left (digitsLeft_mono h _) _
  · -- as for `place`: the digits of the larger number make up for a carry
    have hpos : 0 < n := Nat.pos_of_ne_zero fun h0 => by
      obtain rfl : m = 0 := Nat.le_zero.1 (h0 ▸ h)
      exact absurd hless (h0 ▸ Int.lt_irrefl _)
    have hstep : (cut format m e - format.minExponent).toNat + 1
        ≤ (cut format n e - format.minExponent).toNat := by omega
    have hfull := two_pow_le_digitsLeft hpos (le_cut he n) (by omega) .exact
    have hcarry := digitsLeft_le_two_pow (le_cut he m) .exact
    rw [Nat.pow_succ] at hcarry
    calc placeFrom format e m
        ≤ (cut format m e - format.minExponent).toNat * 2 ^ format.mantissaBitsWithoutImplicit
            + 2 ^ format.mantissaBitsWithoutImplicit * 2 := Nat.add_le_add_left hcarry _
      _ = ((cut format m e - format.minExponent).toNat + 1)
              * 2 ^ format.mantissaBitsWithoutImplicit
            + 2 ^ format.mantissaBitsWithoutImplicit := by ring
      _ ≤ placeFrom format e n := Nat.add_le_add (Nat.mul_le_mul_right _ hstep) hfull

theorem placeFrom_mul_two_pow (hm : 0 < m) (k : Nat) (h : e + k ≤ cut format m (e + k)) :
    placeFrom format e (m * 2 ^ k) = placeFrom format (e + k) m := by
  have hdigits : (cut format m (e + k) - e).toNat = k + (cut format m (e + k) - (e + k)).toNat := by
    omega
  rw [placeFrom, placeFrom, cut_mul_two_pow hm, hdigits, digitsLeft_mul_two_pow_add]

/-- **Rounding is what `placeFrom` says**, as long as there are digits enough. -/
theorem counted_roundFrom (hformat : 2 ≤ format.exponentBits) (hm : 0 < m)
    (h : e ≤ cut format m e) :
    Counted format (unpack format (pack format (UnpackedFloat.round format .positive m e)))
      (min (placeFrom format e m) (top format)) := by
  have hmin := minExponent_le_cut format m e
  have hrounded := rounded_roundWithAccuracy h .exact .positive
  have hfull := or_iff_not_imp_left.2 fun hcut => two_pow_le_digitsLeft hm h hcut .exact
  rw [round_of_le_targetExponent .positive h, placeFrom]
  generalize roundWithAccuracy format .positive m e .exact = u at hrounded ⊢
  generalize digitsLeft m .exact (cut format m e - e).toNat = r at hrounded hfull ⊢
  cases hrounded with
  | zero =>
    have hcut : cut format m e = format.minExponent :=
      hfull.resolve_right (Nat.not_le.2 (Nat.two_pow_pos _))
    rw [hcut, Int.sub_self, Int.toNat_zero, Nat.zero_mul, Nat.zero_add, Nat.zero_min]
    exact (Counted.zero _).stored
  | digits hr hlt => exact counted_kept hformat hr ⟨hmin, hlt, hfull⟩
  | carry =>
    have hkept : Kept format (2 ^ format.mantissaBitsWithoutImplicit) (cut format m e + 1) :=
      ⟨by omega, Nat.pow_lt_pow_right (by decide) (Nat.lt_succ_self _), .inr (Nat.le_refl _)⟩
    have hcounted := counted_kept hformat (Nat.two_pow_pos _) hkept
    have hexponent : (cut format m e + 1 - format.minExponent).toNat
        = (cut format m e - format.minExponent).toNat + 1 := by omega
    have hplace : magnitude format (2 ^ format.mantissaBitsWithoutImplicit) (cut format m e + 1)
        = (cut format m e - format.minExponent).toNat * 2 ^ format.mantissaBitsWithoutImplicit
          + 2 ^ (format.mantissaBitsWithoutImplicit + 1) := by
      rw [magnitude, hexponent]
      ring
    rwa [hplace] at hcounted

/-! ## From double to single precision -/

/-- The ordinal in single precision of a number in double precision. -/
def narrowedOrdinal (o : Nat) : Nat :=
  if o = top .binary64 then top .binary32
  else min (placeFrom .binary32 (-1074) (weight .binary64 o)) (top .binary32)

variable {u : UnpackedFloat} {o o' : Nat}

theorem narrowedOrdinal_mono (h : o ≤ o') (htop : o' ≤ top .binary64) :
    narrowedOrdinal o ≤ narrowedOrdinal o' := by
  rw [narrowedOrdinal, narrowedOrdinal]
  split
  · rw [if_pos (by omega)]
  · split
    · exact Nat.min_le_right _ _
    · exact min_le_min_right _ (placeFrom_mono (by decide) (weight_mono h))

theorem Counted.narrow (h : Counted .binary64 u o) :
    Counted .binary32 (unpack .binary32 (pack .binary32 (regrain .binary32 u)))
      (narrowedOrdinal o) := by
  cases h with
  | infinity =>
    rw [narrowedOrdinal, if_pos rfl]
    exact Counted.infinity.stored
  | zero s =>
    have hzero : narrowedOrdinal 0 = 0 := by decide +kernel
    rw [hzero]
    exact (Counted.zero s).stored
  | @finite m e hm hkept hstorable =>
    have hlo : -1074 ≤ e := hkept.minExponent_le
    obtain ⟨k, rfl⟩ : ∃ k : Nat, e = -1074 + k := ⟨(e + 1074).toNat, by omega⟩
    have hcut : -1074 + (k : Int) ≤ cut .binary32 m (-1074 + k) := by
      have hcut := cut_eq .binary32 m (-1074 + k)
      have hmin : Format.binary32.minExponent = -149 := rfl
      have hbits : (Format.binary32.mantissaBitsWithoutImplicit : Int) = 23 := rfl
      rcases hkept.full with hleast | hfull
      · have hmin' : Format.binary64.minExponent = -1074 := rfl
        omega
      · have hlog : 52 ≤ m.log2 := (Nat.le_log2 (Nat.ne_of_gt hm)).2 hfull
        omega
    have hunits : weight .binary64 (magnitude .binary64 m (-1074 + k)) = m * 2 ^ k := by
      have hexponent : (-1074 + (k : Int) - Format.binary64.minExponent).toNat = k := by
        show (-1074 + (k : Int) - -1074).toNat = k
        omega
      rw [weight_magnitude hkept, units, hexponent]
    rw [narrowedOrdinal, if_neg (Nat.ne_of_lt (magnitude_lt_top hkept hstorable)), hunits,
      placeFrom_mul_two_pow hm k hcut]
    exact counted_roundFrom (by decide) hm hcut

end Unpacked

open Unpacked (Counted)

/-- Of numbers that are not negative the ordinals are natural numbers. -/
theorem le_iff_of_counted32 {x y : Float32} {o o' : Nat} (hx : Counted .binary32 x.toModel.unpack o)
    (hy : Counted .binary32 y.toModel.unpack o') : x ≤ y ↔ o ≤ o' := by
  rw [le_iff_ordinal32, ordinal32, ordinal32, hx.ordinal_eq, hy.ordinal_eq, Int.ofNat_le]
  exact ⟨fun h => h.2.2, fun h => ⟨hx.isNaN_eq, hy.isNaN_eq, h⟩⟩

theorem counted_narrow {x : Float} {o : Nat} (hx : Counted .binary64 x.toModel.unpack o) :
    Counted .binary32 (narrow x).toModel.unpack (Unpacked.narrowedOrdinal o) := Counted.narrow hx

/-- **Rounding to single precision keeps the order.** -/
theorem narrow_le_narrow {x y : Float} (hx : NonNegative64 x) (hy : NonNegative64 y) (h : x ≤ y) :
    narrow x ≤ narrow y := by
  obtain ⟨_, hx⟩ := Unpacked.exists_counted hx (stored64 x)
  obtain ⟨_, hy⟩ := Unpacked.exists_counted hy (stored64 y)
  rw [le_iff_of_counted hx hy] at h
  rw [le_iff_of_counted32 (counted_narrow hx) (counted_narrow hy)]
  exact Unpacked.narrowedOrdinal_mono h hy.le_top

/-- No finite number reaches infinity. -/
theorem ordinal32_lt_top {x : Float32} (h : x.isFinite = true) :
    ordinal32 x < Unpacked.top .binary32 := by
  have hfinite : x.toModel.unpack.isFinite = true := h
  have hnumber := stored32 x (isNaN_of_isFinite hfinite)
  rw [ordinal32]
  generalize x.toModel.unpack = u at hfinite hnumber ⊢
  cases hnumber with
  | infinity s => cases hfinite
  | zero s => exact Int.natCast_pos.2 (Unpacked.top_pos _)
  | finite s hm hkept hstorable => exact (Unpacked.abs_ordinal_lt_top s hm hkept hstorable).2

/-- No finite number bounds infinity. -/
theorem not_narrow_le_of_infinity {x : Float} (hx : x.toModel.unpack = .infinity .positive)
    {e : Float32} (he : e.isFinite = true) : ¬ narrow x ≤ e := by
  intro hle
  have hcounted : Counted .binary64 x.toModel.unpack (Unpacked.top .binary64) := hx ▸ .infinity
  have hordinal := (counted_narrow hcounted).ordinal_eq
  rw [Unpacked.narrowedOrdinal, if_pos rfl] at hordinal
  have hlt := ordinal32_lt_top he
  have hle := (le_iff_ordinal32.1 hle).2.2
  rw [ordinal32, hordinal] at hle
  omega

end ProductQuantization
