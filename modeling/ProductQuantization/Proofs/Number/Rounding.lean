import Mathlib
import ProductQuantization.Number.Precision

/-!
# Rounding

A number is rounded by dropping binary digits from its mantissa until it has as many as the format
keeps, and looking at the first digit that was dropped.
-/

set_option autoImplicit false

namespace ProductQuantization
namespace Rounding

open Float.Model (Format UnpackedFloat totalExponent)
open Float.Model.UnpackedFloat

variable {format : Format}

/-! ## Dropping digits -/

theorem shiftRight_zero (em : ExtendedMantissa) : em >>> 0 = em := rfl

theorem shiftRight_succ (em : ExtendedMantissa) (n : Nat) :
    em >>> (n + 1) = (em >>> n).shiftRightOne := rfl

theorem mantissa_shiftRight (em : ExtendedMantissa) (n : Nat) :
    (em >>> n).mantissa = em.mantissa / 2 ^ n := by
  induction n with
  | zero => rw [shiftRight_zero, Nat.pow_zero, Nat.div_one]
  | succ n ih =>
    rw [shiftRight_succ, ExtendedMantissa.shiftRightOne, ih, Nat.div_div_eq_div_mul, Nat.pow_succ]

/-- Digits that are zero are dropped without a trace. -/
theorem shiftRight_exact (m n : Nat) :
    (⟨m * 2 ^ n, false, false⟩ : ExtendedMantissa) >>> n = ⟨m, false, false⟩ := by
  induction n generalizing m with
  | zero => rw [shiftRight_zero, Nat.pow_zero, Nat.mul_one]
  | succ n ih =>
    rw [shiftRight_succ, Nat.pow_succ, Nat.mul_comm (2 ^ n), ← Nat.mul_assoc, ih,
      ExtendedMantissa.shiftRightOne]
    simp

theorem mantissa_le_roundedMantissa (em : ExtendedMantissa) :
    em.mantissa ≤ em.roundedMantissa := by
  obtain ⟨m, r, s⟩ := em
  cases r <;> cases s <;>
    simp [ExtendedMantissa.roundedMantissa, ExtendedMantissa.accuracy, Accuracy.roundToNearestEven]

/-- A mantissa is rounded up only if the first digit that was dropped is a one. -/
theorem roundedMantissa_le (em : ExtendedMantissa) :
    em.roundedMantissa ≤ em.mantissa + em.roundBit.toNat := by
  obtain ⟨m, r, s⟩ := em
  cases r <;> cases s <;>
    simp [ExtendedMantissa.roundedMantissa, ExtendedMantissa.accuracy, Accuracy.roundToNearestEven]
  omega

/-- Rounding goes up from one half at the earliest. -/
theorem roundedMantissa_shiftRight_le (em : ExtendedMantissa) (n : Nat) :
    (em >>> (n + 1)).roundedMantissa ≤ (em.mantissa / 2 ^ n + 1) / 2 := by
  have hle := roundedMantissa_le (em >>> (n + 1))
  have hbit : (em >>> (n + 1)).roundBit.toNat = em.mantissa / 2 ^ n % 2 := by
    rw [shiftRight_succ, ExtendedMantissa.shiftRightOne, mantissa_shiftRight]
    rcases Nat.mod_two_eq_zero_or_one (em.mantissa / 2 ^ n) with h | h <;> simp [h]
  rw [hbit, mantissa_shiftRight, Nat.pow_succ, ← Nat.div_div_eq_div_mul] at hle
  omega

theorem shiftToExponent_add (m : Nat) (e : Int) (n : Nat) :
    shiftToExponent m e .exact (e + n) = ((⟨m, false, false⟩ : ExtendedMantissa) >>> n, e + n) := by
  have hn : (e + n - e).toNat = n := by omega
  rw [shiftToExponent, hn]
  rfl

/-! ## Numbers that need no rounding -/

/-- A mantissa with as many digits as the format keeps, or a number as small as it has. -/
def Canonical (format : Format) (m : Nat) (e : Int) : Prop :=
  e = format.targetExponent (totalExponent m e)

theorem log2_mul_two_pow {m : Nat} (hm : 0 < m) (n : Nat) : (m * 2 ^ n).log2 = m.log2 + n := by
  induction n with
  | zero => rw [Nat.pow_zero, Nat.mul_one, Nat.add_zero]
  | succ n ih =>
    have hne : m * 2 ^ n ≠ 0 := Nat.ne_of_gt (Nat.mul_pos hm (Nat.two_pow_pos n))
    rw [Nat.pow_succ, ← Nat.mul_assoc, Nat.mul_comm _ 2, Nat.log2_two_mul hne, ih, Nat.add_assoc]

theorem totalExponent_mul_two_pow {m : Nat} (hm : 0 < m) (e : Int) (n : Nat) :
    totalExponent (m * 2 ^ n) (e - n) = totalExponent m e := by
  rw [totalExponent, totalExponent, log2_mul_two_pow hm]
  omega

/-- A number that the format has is not changed, in however many digits it is given. -/
theorem roundWithAccuracy_of_canonical {m : Nat} {e : Int} (hm : 0 < m)
    (h : Canonical format m e) (s : Sign) (n : Nat) :
    roundWithAccuracy format s (m * 2 ^ n) (e - n) .exact = .finite s m e hm := by
  have hfirst : shiftToTargetExponent format (m * 2 ^ n) (e - n) .exact
      = (⟨m, false, false⟩, e) := by
    have hshift := shiftToExponent_add (m * 2 ^ n) (e - n) n
    rw [Int.sub_add_cancel, shiftRight_exact] at hshift
    rw [shiftToTargetExponent, totalExponent_mul_two_pow hm, ← h, hshift]
  have hsecond : shiftToTargetExponent format m e .exact = (⟨m, false, false⟩, e) := by
    have hshift := shiftToExponent_add m e 0
    rw [Nat.cast_zero, add_zero, shiftRight_zero] at hshift
    rw [shiftToTargetExponent, ← h, hshift]
  have hrounded : (⟨m, false, false⟩ : ExtendedMantissa).roundedMantissa = m := rfl
  rw [roundWithAccuracy, hfirst]
  simp only [hrounded, hsecond, Nat.ne_of_gt hm, dite_false]

/-- A number that is given with fewer digits than the format keeps is given more of them. -/
theorem round_of_targetExponent_le {m : Nat} {e : Int} (hm : 0 < m) (s : Sign)
    (h : format.targetExponent (totalExponent m e) ≤ e) :
    ∃ (n : Nat) (hpos : 0 < m * 2 ^ n), Canonical format (m * 2 ^ n) (e - n) ∧
      UnpackedFloat.round format s m e = .finite s (m * 2 ^ n) (e - n) hpos := by
  obtain ⟨n, hn⟩ : ∃ n : Nat, e - n = format.targetExponent (totalExponent m e) :=
    ⟨(e - format.targetExponent (totalExponent m e)).toNat, by omega⟩
  have hpos : 0 < m * 2 ^ n := Nat.mul_pos hm (Nat.two_pow_pos _)
  have hcanonical : Canonical format (m * 2 ^ n) (e - n) := by
    rw [Canonical, totalExponent_mul_two_pow hm, hn]
  have hexact := roundWithAccuracy_of_canonical hpos hcanonical s 0
  have hshift : (e - (e - n)).toNat = n := by omega
  refine ⟨n, hpos, hcanonical, ?_⟩
  rw [UnpackedFloat.round, ← hn, decreaseExponent, hshift, Nat.shiftLeft_eq]
  rw [Nat.pow_zero, Nat.mul_one, Nat.cast_zero, sub_zero] at hexact
  exact hexact

/-- A number that is given with too many digits is given with none more. -/
theorem round_of_le_targetExponent {m : Nat} {e : Int} (s : Sign)
    (h : e ≤ format.targetExponent (totalExponent m e)) :
    UnpackedFloat.round format s m e = roundWithAccuracy format s m e .exact := by
  have hshift : (e - format.targetExponent (totalExponent m e)).toNat = 0 := by omega
  rw [UnpackedFloat.round, decreaseExponent, hshift, Nat.shiftLeft_zero]
  simp only [Nat.cast_zero, sub_zero]

theorem cast_two_pow (n : Nat) : ((2 ^ n : Nat) : Int) = 2 ^ n := by
  push_cast
  rfl

theorem minExponent_eq : format.minExponent
    = 1 - (format.exponentBias + format.mantissaBitsWithoutImplicit : Nat) := by
  have hpos : 1 ≤ 2 ^ (format.exponentBits - 1) := Nat.one_le_two_pow
  have hcast := cast_two_pow (format.exponentBits - 1)
  rw [Format.minExponent, Format.exponentBias, Format.mantissaBits]
  omega

theorem canonical_iff {m : Nat} {e : Int} : Canonical format m e ↔
    e = max (m.log2 + e - format.mantissaBitsWithoutImplicit)
      (1 - (format.exponentBias + format.mantissaBitsWithoutImplicit : Nat)) := by
  rw [Canonical, Format.targetExponent, minExponent_eq, totalExponent, Format.mantissaBits]
  have hadd : (m.log2 : Int) + 1 + e - (1 + format.mantissaBitsWithoutImplicit : Nat)
      = m.log2 + e - format.mantissaBitsWithoutImplicit := by omega
  rw [hadd]

/-- An exponent as it is stored: shifted so that the least one is one. -/
def storedExponent (format : Format) (e : Int) : Int :=
  e + format.exponentBias + format.mantissaBitsWithoutImplicit

/-- Whether an exponent is below that of infinity. -/
def Storable (format : Format) (e : Int) : Prop :=
  storedExponent format e + 1 < 2 ^ format.exponentBits

/-- The leading digit of a number with all its digits is not stored. -/
theorem toNat_implicit (m : BitVec format.mantissaBitsWithoutImplicit) :
    (1#1 ++ m).toNat = 2 ^ format.mantissaBitsWithoutImplicit + m.toNat := by
  rw [BitVec.toNat_append, ← Nat.shiftLeft_add_eq_or_of_lt m.isLt, Nat.shiftLeft_eq]
  simp

/-- **What a format stores is canonical**, and its exponent is below that of infinity. -/
theorem canonical_of_unpack (hformat : 2 ≤ format.exponentBits) {b : BitVec format.numBits}
    {s : Sign} {m : Nat} {e : Int} {hm : 0 < m} (h : unpack format b = .finite s m e hm) :
    Canonical format m e ∧ m < 2 ^ format.mantissaBits ∧
      Storable format e := by
  have hmantissa := (unpackMantissa b).isLt
  have hexponent := (unpackExponent b).isLt
  have hbits : 2 ^ format.mantissaBits = 2 ^ format.mantissaBitsWithoutImplicit * 2 := by
    rw [Format.mantissaBits, Nat.add_comm, Nat.pow_succ]
  rw [unpack] at h
  split at h
  · split at h <;> cases h
  · rename_i hones
    have hmax : (unpackExponent b).toNat ≠ 2 ^ format.exponentBits - 1 := by
      intro h0
      refine hones (BitVec.eq_of_toNat_eq ?_)
      rw [h0, BitVec.neg_one_eq_allOnes, BitVec.toNat_allOnes]
    have hcast := cast_two_pow format.exponentBits
    have hfour : 2 ^ 2 ≤ 2 ^ format.exponentBits := Nat.pow_le_pow_right (by decide) hformat
    rw [canonical_iff, Storable, storedExponent, hbits]
    split at h
    · rename_i hzeros
      split at h
      · cases h
      · -- a subnormal number: it has few digits, and the least exponent
        injection h with hs hmant hexp
        subst hmant
        have hlog : (unpackMantissa b).toNat.log2 < format.mantissaBitsWithoutImplicit :=
          (Nat.log2_lt (Nat.ne_of_gt hm)).2 hmantissa
        rw [hzeros, BitVec.toNat_zero] at hexp
        omega
    · rename_i hzeros
      -- a normal number: it has all its digits, the first of which is not stored
      injection h with hs hmant hexp
      subst hmant
      have hpos : (unpackExponent b).toNat ≠ 0 := fun h0 =>
        hzeros (BitVec.eq_of_toNat_eq (by rw [h0, BitVec.toNat_zero]))
      have hvalue := toNat_implicit (unpackMantissa b)
      have hlog : (1#1 ++ unpackMantissa b).toNat.log2 = format.mantissaBitsWithoutImplicit := by
        rw [Nat.log2_eq_iff (Nat.ne_of_gt hm), hvalue, Nat.pow_succ]
        omega
      omega

/-! ## Storing -/

/-- What three parts stand for. -/
theorem unpack_packComponents (s : Sign) (e : BitVec format.exponentBits)
    (m : BitVec format.mantissaBitsWithoutImplicit) :
    unpack format (packComponents format s e m) =
      if e = -1#_ then if m = 0#_ then .infinity s else .notANumber
      else if e = 0#_ then
        if h : m = 0#_ then .zero s
        else .finite s m.toNat
          (e.toNat - (format.exponentBias + format.mantissaBitsWithoutImplicit) + 1)
          (Nat.pos_of_ne_zero fun h0 => h (BitVec.eq_of_toNat_eq h0))
      else .finite s (1#1 ++ m).toNat
        (e.toNat - (format.exponentBias + format.mantissaBitsWithoutImplicit)) (by simp) := by
  rw [unpack]
  simp only [unpackExponent_packComponents, unpackMantissa_packComponents,
    unpackSign_packComponents, Sign.ofBitVec_toBitVec]

theorem isFinite_unpack_packComponents {e : BitVec format.exponentBits} (he : e ≠ -1#_) (s : Sign)
    (m : BitVec format.mantissaBitsWithoutImplicit) :
    (unpack format (packComponents format s e m)).isFinite = true := by
  rw [unpack_packComponents, if_neg he]
  by_cases hz : e = 0#_
  · by_cases hm : m = 0#_
    · rw [if_pos hz, dif_pos hm]
      rfl
    · rw [if_pos hz, dif_neg hm]
      rfl
  · rw [if_neg hz]
    rfl

theorem Storable.toNat_lt {e : Int} (h : Storable format e) :
    (storedExponent format e).toNat + 1 < 2 ^ format.exponentBits := by
  have hone : 2 ^ 1 ≤ 2 ^ format.exponentBits := Nat.pow_le_pow_right (by decide) format.he
  rw [Storable, ← cast_two_pow] at h
  omega

theorem Storable.toNat_ofNat {e : Int} (h : Storable format e) :
    (BitVec.ofNat format.exponentBits (storedExponent format e).toNat).toNat
      = (storedExponent format e).toNat := by
  have hlt := h.toNat_lt
  rw [BitVec.toNat_ofNat, Nat.mod_eq_of_lt (by omega)]

theorem Storable.ofNat_ne {e : Int} (h : Storable format e) :
    BitVec.ofNat format.exponentBits (storedExponent format e).toNat ≠ -1#_ := by
  intro h0
  have hlt := h.toNat_lt
  have htoNat := h.toNat_ofNat
  rw [h0, BitVec.neg_one_eq_allOnes, BitVec.toNat_allOnes] at htoNat
  omega

theorem pack_finite {s : Sign} {m : Nat} {e : Int} {hm : 0 < m} (h : Storable format e) :
    pack format (.finite s m e hm) =
      if m.log2 + 1 = format.mantissaBits then
        packComponents format s (BitVec.ofNat _ (storedExponent format e).toNat) (BitVec.ofNat _ m)
      else packComponents format s 0#_ (BitVec.ofNat _ m) :=
  if_neg (Nat.not_le.2 h.toNat_lt)

/-- A finite number whose exponent can be stored stays finite. -/
theorem isFinite_unpack_pack {s : Sign} {m : Nat} {e : Int} {hm : 0 < m} (h : Storable format e) :
    (unpack format (pack format (.finite s m e hm))).isFinite = true := by
  have hzeros : BitVec.ofNat format.exponentBits 0 ≠ -1#_ := by
    rw [Ne, BitVec.zero_eq_neg_one_iff]
    exact Nat.ne_of_gt format.he
  rw [pack_finite h]
  split
  · exact isFinite_unpack_packComponents h.ofNat_ne _ _
  · exact isFinite_unpack_packComponents hzeros _ _

/-- A number with all the digits that the format keeps is stored as it is. -/
theorem unpack_pack_normal {s : Sign} {m : Nat} {e : Int} {hm : 0 < m}
    (hlog : m.log2 = format.mantissaBitsWithoutImplicit) (hlo : 1 ≤ storedExponent format e)
    (h : Storable format e) :
    unpack format (pack format (.finite s m e hm)) = .finite s m e hm := by
  have hdigits : m.log2 + 1 = format.mantissaBits := by rw [hlog, Format.mantissaBits, Nat.add_comm]
  have hexponent := h.toNat_ofNat
  have hzeros : BitVec.ofNat format.exponentBits (storedExponent format e).toNat ≠ 0#_ := by
    intro h0
    rw [h0, BitVec.toNat_zero] at hexponent
    omega
  obtain ⟨hle, hlt⟩ := (Nat.log2_eq_iff (Nat.ne_of_gt hm)).1 hlog
  have hmantissa : (1#1 ++ BitVec.ofNat format.mantissaBitsWithoutImplicit m).toNat = m := by
    have hmod : m % 2 ^ format.mantissaBitsWithoutImplicit
        = m - 2 ^ format.mantissaBitsWithoutImplicit := by
      rw [Nat.mod_eq_sub_mod hle, Nat.mod_eq_of_lt (by rw [Nat.pow_succ] at hlt; omega)]
    rw [toNat_implicit, BitVec.toNat_ofNat, hmod]
    omega
  rw [pack_finite h, if_pos hdigits, unpack_packComponents, if_neg h.ofNat_ne, if_neg hzeros]
  congr 1
  rw [hexponent, storedExponent]
  rw [storedExponent] at hlo
  omega

theorem pack_eq_packedInfinity {s : Sign} {m : Nat} {e : Int} {hm : 0 < m}
    (h : ¬ Storable format e) : pack format (.finite s m e hm) = packedInfinity format s := by
  have hlarge : 2 ^ format.exponentBits ≤ (storedExponent format e).toNat + 1 := by
    rw [Storable, ← cast_two_pow] at h
    omega
  exact if_pos hlarge

theorem unpack_packedInfinity (s : Sign) : unpack format (packedInfinity format s) = .infinity s := by
  rw [packedInfinity, unpack_packComponents, if_pos rfl]
  rfl

/-- **What is stored is a number exactly if it was one.** -/
theorem isNaN_unpack_pack (u : UnpackedFloat) : (unpack format (pack format u)).isNaN = u.isNaN := by
  cases u with
  | notANumber => exact congrArg UnpackedFloat.isNaN unpack_packedNaN
  | infinity s => exact congrArg UnpackedFloat.isNaN (unpack_packedInfinity s)
  | zero s => exact congrArg UnpackedFloat.isNaN unpack_packedZero
  | finite s m e hm =>
    by_cases h : Storable format e
    · have hfinite : (unpack format (pack format (.finite s m e hm))).isFinite = true :=
        isFinite_unpack_pack h
      cases hu : unpack format (pack format (.finite s m e hm)) with
      | notANumber => rw [hu] at hfinite; cases hfinite
      | _ => rfl
    · rw [pack_eq_packedInfinity h, unpack_packedInfinity]
      rfl

/-! ## Rounding to as many digits as the format keeps -/

/-- The digits of a mantissa that are kept, rounded.  There is one more of them if rounding up goes
all the way through. -/
def roundedDigits (format : Format) (m : Nat) : Nat :=
  ((⟨m, false, false⟩ : ExtendedMantissa)
    >>> (m.log2 - format.mantissaBitsWithoutImplicit)).roundedMantissa

theorem log2_div_two_pow {m n : Nat} (h : n ≤ m.log2) (hm : m ≠ 0) :
    (m / 2 ^ n).log2 = m.log2 - n := by
  obtain ⟨hle, hlt⟩ := (Nat.log2_eq_iff hm).1 rfl
  have hpos : 0 < 2 ^ n := Nat.two_pow_pos n
  have hlo : 2 ^ (m.log2 - n) ≤ m / 2 ^ n := by
    rw [Nat.le_div_iff_mul_le hpos, ← Nat.pow_add, Nat.sub_add_cancel h]
    exact hle
  have hne : m / 2 ^ n ≠ 0 := Nat.ne_of_gt (Nat.lt_of_lt_of_le (Nat.two_pow_pos _) hlo)
  refine (Nat.log2_eq_iff hne).2 ⟨hlo, ?_⟩
  rw [Nat.div_lt_iff_lt_mul hpos, ← Nat.pow_add]
  exact Nat.lt_of_lt_of_eq hlt (congrArg (2 ^ ·) (by omega))

theorem two_pow_le_roundedDigits {m : Nat} (hm : 0 < m)
    (h : format.mantissaBitsWithoutImplicit ≤ m.log2) :
    2 ^ format.mantissaBitsWithoutImplicit ≤ roundedDigits format m := by
  refine Nat.le_trans ?_ (mantissa_le_roundedMantissa _)
  rw [mantissa_shiftRight, Nat.le_div_iff_mul_le (Nat.two_pow_pos _), ← Nat.pow_add,
    Nat.add_sub_cancel' h]
  exact Nat.log2_self_le (Nat.ne_of_gt hm)

theorem le_log2_roundedDigits {m : Nat} (hm : 0 < m)
    (h : format.mantissaBitsWithoutImplicit ≤ m.log2) :
    format.mantissaBitsWithoutImplicit ≤ (roundedDigits format m).log2 := by
  have hle := two_pow_le_roundedDigits hm h
  exact (Nat.le_log2 (Nat.ne_of_gt (Nat.lt_of_lt_of_le (Nat.two_pow_pos _) hle))).2 hle

/-- The exponent of the last digit that is kept. -/
theorem targetExponent_of_le_log2 {m : Nat} {e : Int}
    (h : format.mantissaBitsWithoutImplicit ≤ m.log2) (he : format.minExponent ≤ e) :
    format.targetExponent (totalExponent m e)
      = e + (m.log2 - format.mantissaBitsWithoutImplicit : Nat) := by
  rw [Format.targetExponent, totalExponent, Format.mantissaBits]
  omega

/-- **A number with enough digits is rounded to the digits that the format keeps.** -/
theorem roundWithAccuracy_of_le_log2 {m : Nat} {e : Int} (hm : 0 < m)
    (h : format.mantissaBitsWithoutImplicit ≤ m.log2) (he : format.minExponent ≤ e) (s : Sign) :
    ∃ (m' : Nat) (hpos : 0 < m'), m' = roundedDigits format m
          / 2 ^ ((roundedDigits format m).log2 - format.mantissaBitsWithoutImplicit) ∧
      m'.log2 = format.mantissaBitsWithoutImplicit ∧
      roundWithAccuracy format s m e .exact = .finite s m'
        (e + (m.log2 - format.mantissaBitsWithoutImplicit : Nat)
          + ((roundedDigits format m).log2 - format.mantissaBitsWithoutImplicit : Nat)) hpos := by
  have hle := le_log2_roundedDigits hm h
  have hne : roundedDigits format m ≠ 0 :=
    Nat.ne_of_gt (Nat.lt_of_lt_of_le (Nat.two_pow_pos _) (two_pow_le_roundedDigits hm h))
  have hlog : (roundedDigits format m
      / 2 ^ ((roundedDigits format m).log2 - format.mantissaBitsWithoutImplicit)).log2
        = format.mantissaBitsWithoutImplicit := by
    rw [log2_div_two_pow (Nat.sub_le _ _) hne, Nat.sub_sub_self hle]
  have hpos : 0 < roundedDigits format m
      / 2 ^ ((roundedDigits format m).log2 - format.mantissaBitsWithoutImplicit) := by
    rw [Nat.div_pos_iff]
    exact ⟨Nat.two_pow_pos _, Nat.le_trans (Nat.pow_le_pow_right (by decide) (Nat.sub_le _ _))
      (Nat.log2_self_le hne)⟩
  refine ⟨_, hpos, rfl, hlog, ?_⟩
  have hfirst : shiftToTargetExponent format m e .exact
      = ((⟨m, false, false⟩ : ExtendedMantissa)
          >>> (m.log2 - format.mantissaBitsWithoutImplicit),
        e + (m.log2 - format.mantissaBitsWithoutImplicit : Nat)) := by
    rw [shiftToTargetExponent, targetExponent_of_le_log2 h he, shiftToExponent_add]
  have hsecond : shiftToTargetExponent format (roundedDigits format m)
      (e + (m.log2 - format.mantissaBitsWithoutImplicit : Nat)) .exact
      = ((⟨roundedDigits format m, false, false⟩ : ExtendedMantissa)
          >>> ((roundedDigits format m).log2 - format.mantissaBitsWithoutImplicit),
        e + (m.log2 - format.mantissaBitsWithoutImplicit : Nat)
          + ((roundedDigits format m).log2 - format.mantissaBitsWithoutImplicit : Nat)) := by
    rw [shiftToTargetExponent, targetExponent_of_le_log2 hle (by omega), shiftToExponent_add]
  have hrounded : ((⟨m, false, false⟩ : ExtendedMantissa)
      >>> (m.log2 - format.mantissaBitsWithoutImplicit)).roundedMantissa = roundedDigits format m := rfl
  rw [roundWithAccuracy, hfirst]
  simp only [hrounded, hsecond, mantissa_shiftRight, Nat.ne_of_gt hpos, dite_false]

end Rounding
end ProductQuantization
