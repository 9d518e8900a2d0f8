import ProductQuantization.Proofs.Number.Bits
import ProductQuantization.Proofs.Number.Rounding

/-!
# Room below the upper end

What is added up in double precision comes from single precision, and is very far from the largest
number there is.  How far a number has got is told by the place of its last digit, for which
`Within top` gives a limit.  Single-precision numbers are within place `75` (`within_widen`), their
products within place `204` (`within_mul`).

A sum that is within a place stays within it if what is added is less than half of the digit at that
place.  So the limit of a sum does not depend on how many terms it has: it only has to be fifty-four
places above that of the terms (`within_add`), and no sum that begins below the upper end is rounded
to infinity.

There is no way back.  What is not finite absorbs all that is added to it or multiplied with it
(`isFinite_of_add`, `isFinite_of_mul`).
-/

set_option autoImplicit false

namespace ProductQuantization

open Float.Model (Format UnpackedFloat totalExponent)
open Float.Model.UnpackedFloat
open Rounding

/-! ## Finite values in double precision -/

/-- Zero, or a number of at most fifty-three digits, the last of which stands between the last place
there is and place `top`. -/
inductive Within (top : Int) : UnpackedFloat → Prop where
  | zero (s : Sign) : Within top (.zero s)
  | finite (s : Sign) {m : Nat} {e : Int} (hm : 0 < m) (hlog : m.log2 ≤ 52) (hlo : -1074 ≤ e)
      (hhi : e ≤ top) : Within top (.finite s m e hm)

namespace Within

variable {top : Int} {u : UnpackedFloat}

theorem isFinite_eq (h : Within top u) : u.isFinite = true := by
  cases h <;> rfl

theorem isNaN_eq (h : Within top u) : u.isNaN = false := by
  cases h <;> rfl

theorem mono {top' : Int} (h : Within top u) (hle : top ≤ top') : Within top' u := by
  cases h with
  | zero s => exact .zero s
  | finite s hm hlog hlo hhi => exact .finite s hm hlog hlo (hhi.trans hle)

end Within

theorem storable_binary64 {e : Int} (h : e ≤ 971) : Storable .binary64 e := by
  show e + (1023 : Nat) + (52 : Nat) + 1 < 2 ^ 11
  omega

theorem zero_or_finite {u : UnpackedFloat} (h : u.isFinite = true) :
    (∃ s, u = .zero s) ∨ ∃ s m e hm, u = .finite s m e hm := by
  cases u with
  | zero s => exact .inl ⟨s, rfl⟩
  | finite s m e hm => exact .inr ⟨s, m, e, hm, rfl⟩
  | _ => cases h

/-- Every finite number in double precision. -/
theorem within_of_isFinite {x : Float} (h : x.isFinite = true) : Within 971 x.toModel.unpack := by
  obtain ⟨s, hx⟩ | ⟨s, m, e, hm, hx⟩ := zero_or_finite (u := x.toModel.unpack) h
  · rw [hx]
    exact .zero s
  · obtain ⟨hcanonical, hdigits, hstorable⟩ := canonical_of_unpack (by decide) hx
    have hlog : m.log2 < 53 := (Nat.log2_lt (Nat.ne_of_gt hm)).2 hdigits
    have hcanonical : e = max (m.log2 + e - (52 : Nat)) (1 - (1023 + 52 : Nat)) :=
      canonical_iff.1 hcanonical
    have hstorable : e + (1023 : Nat) + (52 : Nat) + 1 < 2 ^ 11 := hstorable
    rw [hx]
    exact .finite s hm (by omega) (by omega) (by omega)

/-- Few digits are stored at the last place there is, wherever they stood. -/
theorem within_stored_of_few {s : Sign} {m : Nat} {e : Int} {hm : 0 < m} (hlog : m.log2 < 52)
    (h : Storable .binary64 e) :
    Within (-1074) (unpack .binary64 (pack .binary64 (.finite s m e hm))) := by
  have hfew : ¬ m.log2 + 1 = Format.binary64.mantissaBits := by
    show ¬ m.log2 + 1 = 1 + 52
    omega
  have hzeros : ¬ (0#_ : BitVec Format.binary64.exponentBits) = -1#_ := by decide
  have hlt : (BitVec.ofNat 52 m).toNat < 2 ^ 52 := (BitVec.ofNat 52 m).isLt
  rw [pack_finite h, if_neg hfew, unpack_packComponents, if_neg hzeros, if_pos rfl]
  split
  · exact .zero s
  · rename_i hne
    have hpos : (BitVec.ofNat 52 m).toNat ≠ 0 := fun h0 => hne (BitVec.eq_of_toNat_eq h0)
    exact .finite s _ (Nat.le_of_lt_succ (((Nat.log2_lt hpos).2 hlt).trans (by decide)))
      (Int.le_refl _) (Int.le_refl _)

/-- Storing a number does not move its last digit up. -/
theorem Within.stored {top : Int} {u : UnpackedFloat} (h : Within top u) (htop : top ≤ 971) :
    Within top (unpack .binary64 (pack .binary64 u)) := by
  cases h with
  | zero s =>
    show Within top (unpack .binary64 (packedZero .binary64 s))
    rw [unpack_packedZero]
    exact .zero s
  | @finite s m e hm hlog hlo hhi =>
    have hstorable : Storable .binary64 e := storable_binary64 (hhi.trans htop)
    rcases Nat.lt_or_eq_of_le hlog with hfew | hfull
    · exact (within_stored_of_few hfew hstorable).mono (hlo.trans hhi)
    · rw [unpack_pack_normal hfull _ hstorable]
      · exact .finite s hm hlog hlo hhi
      · show 1 ≤ e + (1023 : Nat) + (52 : Nat)
        omega

/-! ## Rounding -/

/-- The digits that are kept, of a number below half a digit above the largest: rounding up goes all
the way through only where there is room for it. -/
theorem log2_roundedDigits_le {m n k : Nat} (hn : m.log2 = 52 + (n + 1))
    (hfull : 52 ≤ (roundedDigits .binary64 m).log2) (hbound : m < (2 ^ 54 - 1) * 2 ^ k) :
    (roundedDigits .binary64 m).log2 + n ≤ 52 + k := by
  have hm : m ≠ 0 := by
    intro h0
    rw [h0, Nat.log2_zero] at hn
    omega
  have hkept : roundedDigits .binary64 m ≤ (m / 2 ^ n + 1) / 2 := by
    have hshift : m.log2 - 52 = n + 1 := by omega
    show ((⟨m, false, false⟩ : ExtendedMantissa) >>> (m.log2 - 52)).roundedMantissa ≤ _
    rw [hshift]
    exact roundedMantissa_shiftRight_le _ n
  have hne : roundedDigits .binary64 m ≠ 0 := by
    intro h0
    rw [h0, Nat.log2_zero] at hfull
    omega
  have hnk : n ≤ k := by
    have hpow : m < 2 ^ (54 + k) := by
      refine Nat.lt_of_lt_of_le hbound ?_
      rw [Nat.pow_add]
      exact Nat.mul_le_mul_right _ (Nat.sub_le _ _)
    have hlog := (Nat.log2_lt hm).2 hpow
    omega
  rcases Nat.lt_or_eq_of_le hnk with hlow | rfl
  · -- below the upper end there is room for a carry
    have hlt : m < 2 ^ (54 + n) := (Nat.log2_lt hm).1 (by omega)
    have hdiv : m / 2 ^ n < 2 ^ 54 := by
      rw [Nat.div_lt_iff_lt_mul (Nat.two_pow_pos n), ← Nat.pow_add]
      exact hlt
    have hlog : (roundedDigits .binary64 m).log2 < 54 := (Nat.log2_lt hne).2 (by omega)
    omega
  · -- at the upper end there is none, because nothing is rounded up
    have hdiv : m / 2 ^ n < 2 ^ 54 - 1 := by
      rw [Nat.div_lt_iff_lt_mul (Nat.two_pow_pos n)]
      exact hbound
    have hlog : (roundedDigits .binary64 m).log2 < 53 := (Nat.log2_lt hne).2 (by omega)
    omega

/-- What is less than half a digit above the largest number within a place is rounded to one within
it, if it has too many digits. -/
theorem within_roundWithAccuracy {m : Nat} {e : Int} (hmany : 52 < m.log2) (he : -1074 ≤ e)
    {k : Nat} (hbound : m < (2 ^ 54 - 1) * 2 ^ k) (s : Sign) :
    Within (e + k + 1) (roundWithAccuracy .binary64 s m e .exact) := by
  have hm : 0 < m := Nat.pos_of_ne_zero fun h0 => by
    rw [h0, Nat.log2_zero] at hmany
    omega
  have hdigits : Format.binary64.mantissaBitsWithoutImplicit ≤ m.log2 := Nat.le_of_lt hmany
  obtain ⟨n, hn⟩ : ∃ n, m.log2 = 52 + (n + 1) := ⟨m.log2 - 53, by omega⟩
  obtain ⟨m', hpos, -, hlog, hround⟩ := roundWithAccuracy_of_le_log2 hm hdigits he s
  have hfull : 52 ≤ (roundedDigits .binary64 m).log2 := le_log2_roundedDigits hm hdigits
  have hexponent := log2_roundedDigits_le hn hfull hbound
  rw [hround]
  refine .finite s hpos (Nat.le_of_eq hlog) ?_ ?_
  · show -1074 ≤ e + (m.log2 - 52 : Nat) + ((roundedDigits .binary64 m).log2 - 52 : Nat)
    omega
  · show e + (m.log2 - 52 : Nat) + ((roundedDigits .binary64 m).log2 - 52 : Nat) ≤ e + k + 1
    omega

theorem within_round {m : Nat} {e : Int} (hm : 0 < m) (he : -1074 ≤ e) {k : Nat}
    (hbound : m < (2 ^ 54 - 1) * 2 ^ k) (s : Sign) :
    Within (e + k + 1) (UnpackedFloat.round .binary64 s m e) := by
  by_cases hmany : 52 < m.log2
  · have htarget : e ≤ Format.binary64.targetExponent (totalExponent m e) := by
      show e ≤ max ((m.log2 : Int) + 1 + e - (53 : Nat)) (3 - 2 ^ 10 - (53 : Nat))
      omega
    rw [round_of_le_targetExponent s htarget]
    exact within_roundWithAccuracy hmany he hbound s
  · have htarget : Format.binary64.targetExponent (totalExponent m e) ≤ e := by
      show max ((m.log2 : Int) + 1 + e - (53 : Nat)) (3 - 2 ^ 10 - (53 : Nat)) ≤ e
      omega
    obtain ⟨n, hpos, hcanonical, hround⟩ := round_of_targetExponent_le hm s htarget
    have hcanonical : e - n
        = max ((m * 2 ^ n).log2 + (e - n) - (52 : Nat)) (1 - (1023 + 52 : Nat)) :=
      canonical_iff.1 hcanonical
    rw [hround]
    exact .finite s hpos (by omega) (by omega) (by omega)

theorem within_normalize {m e : Int} (he : -1074 ≤ e) {k : Nat}
    (hbound : m.natAbs < (2 ^ 54 - 1) * 2 ^ k) (s : Sign) :
    Within (e + k + 1) (normalize .binary64 m e s) := by
  rw [UnpackedFloat.normalize]
  split
  · rename_i hlt
    have hneg : m < 0 := compare_lt_iff_lt.1 hlt
    exact within_round (by omega) he (by omega) _
  · exact .zero s
  · rename_i hgt
    have hpos : 0 < m := compare_gt_iff_gt.1 hgt
    exact within_round (by omega) he (by omega) _

/-! ## Sums -/

theorem natAbs_apply (s : Sign) (n : Nat) : (s.apply n).natAbs = n := by
  cases s with
  | positive => rfl
  | negative => exact Int.natAbs_neg n

theorem apply_mul_apply (s t : Sign) : (s * t).apply 1 = s.apply 1 * t.apply 1 := by
  cases s <;> cases t <;> rfl

theorem Unpacked.add_comm (format : Format) (u v : UnpackedFloat) :
    UnpackedFloat.add format u v = UnpackedFloat.add format v u := by
  cases u with
  | notANumber => cases v <;> rfl
  | infinity s =>
    cases v with
    | infinity t => cases s <;> cases t <;> rfl
    | _ => rfl
  | zero s =>
    cases v with
    | zero t => cases s <;> cases t <;> rfl
    | _ => rfl
  | finite s m e hm =>
    cases v with
    | finite t m' e' hm' => simp only [UnpackedFloat.add, Int.min_comm e' e, Int.add_comm]
    | _ => rfl

/-- **Adding a number that is small enough does not move the last digit up.** -/
theorem within_add {top : Int} {u v : UnpackedFloat} (hu : Within (top - 54) u)
    (hv : Within top v) : Within top (UnpackedFloat.add .binary64 u v) := by
  cases hu with
  | zero s =>
    cases hv with
    | zero t => cases s <;> cases t <;> exact .zero _
    | finite t hm hlog hlo hhi => exact .finite t hm hlog hlo hhi
  | @finite s m e hm hlog hlo hhi =>
    cases hv with
    | zero t => exact .finite s hm hlog hlo (by omega)
    | @finite t m' e' hm' hlog' hlo' hhi' =>
      obtain ⟨k, hk⟩ : ∃ k : Nat, min e e' + k + 1 = top := ⟨(top - 1 - min e e').toNat, by omega⟩
      have hsmall : m < 2 ^ 53 := (Nat.log2_lt (Nat.ne_of_gt hm)).1 (by omega)
      have hlarge : m' < 2 ^ 53 := (Nat.log2_lt (Nat.ne_of_gt hm')).1 (by omega)
      have hleft : m * 2 ^ (e - min e e').toNat < 2 ^ k := by
        calc m * 2 ^ (e - min e e').toNat
            < 2 ^ 53 * 2 ^ (e - min e e').toNat :=
              Nat.mul_lt_mul_of_pos_right hsmall (Nat.two_pow_pos _)
          _ = 2 ^ (53 + (e - min e e').toNat) := (Nat.pow_add 2 53 _).symm
          _ ≤ 2 ^ k := Nat.pow_le_pow_right (by decide) (by omega)
      have hright : m' * 2 ^ (e' - min e e').toNat ≤ (2 ^ 54 - 2) * 2 ^ k := by
        calc m' * 2 ^ (e' - min e e').toNat
            ≤ (2 ^ 53 - 1) * 2 ^ (k + 1) :=
              Nat.mul_le_mul (by omega) (Nat.pow_le_pow_right (by decide) (by omega))
          _ = (2 ^ 53 - 1) * 2 * 2 ^ k := by rw [Nat.pow_succ 2 k, Nat.mul_comm _ 2, Nat.mul_assoc]
          _ = (2 ^ 54 - 2) * 2 ^ k := by norm_num
      have hsum : (s.apply (m <<< (e - min e e').toNat : Nat)
          + t.apply (m' <<< (e' - min e e').toNat : Nat)).natAbs
            ≤ m * 2 ^ (e - min e e').toNat + m' * 2 ^ (e' - min e e').toNat := by
        refine (Int.natAbs_add_le _ _).trans ?_
        rw [natAbs_apply, natAbs_apply, Nat.shiftLeft_eq, Nat.shiftLeft_eq]
      rw [← hk]
      refine within_normalize (by omega) (Nat.lt_of_le_of_lt hsum ?_) _
      omega

/-! ## Products of single-precision numbers -/

/-- Zero, or a number with all its digits, whose last digit stands where that of a single-precision
number can. -/
inductive Widened : UnpackedFloat → Prop where
  | zero (s : Sign) : Widened (.zero s)
  | finite (s : Sign) {m : Nat} {e : Int} (hm : 0 < m) (hlog : m.log2 = 52) (hlo : -201 ≤ e)
      (hhi : e ≤ 75) : Widened (.finite s m e hm)

theorem Widened.within {u : UnpackedFloat} (h : Widened u) : Within 75 u := by
  cases h with
  | zero s => exact .zero s
  | finite s hm hlog hlo hhi => exact .finite s hm (Nat.le_of_eq hlog) (by omega) hhi

/-- Even the smallest single-precision number has all its digits in double precision. -/
theorem widened_widen {x : Float32} (h : x.isFinite = true) :
    Widened (widen x).toModel.unpack := by
  have hwiden : (widen x).toModel.unpack
      = unpack .binary64 (pack .binary64 (regrain .binary64 x.toModel.unpack)) := rfl
  rw [hwiden]
  obtain ⟨s, hx⟩ | ⟨s, m, e, hm, hx⟩ := zero_or_finite (u := x.toModel.unpack) h
  · rw [hx]
    show Widened (unpack .binary64 (packedZero .binary64 s))
    rw [unpack_packedZero]
    exact .zero s
  · obtain ⟨hcanonical, hdigits, hstorable⟩ := canonical_of_unpack (by decide) hx
    have hlog : m.log2 < 24 := (Nat.log2_lt (Nat.ne_of_gt hm)).2 hdigits
    have hcanonical : e = max (m.log2 + e - (23 : Nat)) (1 - (127 + 23 : Nat)) :=
      canonical_iff.1 hcanonical
    have hstorable : e + (127 : Nat) + (23 : Nat) + 1 < 2 ^ 8 := hstorable
    have htarget : Format.binary64.targetExponent (totalExponent m e) ≤ e := by
      show max ((m.log2 : Int) + 1 + e - (53 : Nat)) (3 - 2 ^ 10 - (53 : Nat)) ≤ e
      omega
    obtain ⟨n, hpos, hwide, hround⟩ := round_of_targetExponent_le hm s htarget
    have hwide : e - n = max ((m * 2 ^ n).log2 + (e - n) - (52 : Nat)) (1 - (1023 + 52 : Nat)) :=
      canonical_iff.1 hwide
    rw [log2_mul_two_pow hm] at hwide
    have hfull : (m * 2 ^ n).log2 = 52 := by
      rw [log2_mul_two_pow hm]
      omega
    rw [hx]
    show Widened (unpack .binary64 (pack .binary64 (UnpackedFloat.round .binary64 s m e)))
    rw [hround, unpack_pack_normal hfull]
    · exact .finite s hpos hfull (by omega) (by omega)
    · show 1 ≤ e - n + (1023 : Nat) + (52 : Nat)
      omega
    · exact storable_binary64 (by omega)

/-- A single-precision number is far from the upper end. -/
theorem within_widen {x : Float32} (h : x.isFinite = true) :
    Within 75 (widen x).toModel.unpack := (widened_widen h).within

/-- **So is the product of two.** -/
theorem within_mul {u v : UnpackedFloat} (hu : Widened u) (hv : Widened v) :
    Within 204 (UnpackedFloat.mul .binary64 u v) := by
  cases hu with
  | zero s => cases hv <;> exact .zero _
  | @finite s m e hm hlog hlo hhi =>
    cases hv with
    | zero t => exact .zero _
    | @finite t m' e' hm' hlog' hlo' hhi' =>
      obtain ⟨hle, hlt⟩ := (Nat.log2_eq_iff (Nat.ne_of_gt hm)).1 hlog
      obtain ⟨hle', hlt'⟩ := (Nat.log2_eq_iff (Nat.ne_of_gt hm')).1 hlog'
      have hmany : 52 < (m * m').log2 := by
        refine Nat.lt_of_lt_of_le (by decide : 52 < 104)
          ((Nat.le_log2 (Nat.ne_of_gt (Nat.mul_pos hm hm'))).2 ?_)
        rw [show 104 = 52 + 52 from rfl, Nat.pow_add]
        exact Nat.mul_le_mul hle hle'
      have hbound : m * m' < (2 ^ 54 - 1) * 2 ^ 53 :=
        calc m * m' < 2 ^ 53 * 2 ^ 53 := Nat.mul_lt_mul'' hlt hlt'
          _ ≤ (2 ^ 54 - 1) * 2 ^ 53 := by decide
      exact (within_roundWithAccuracy hmany (by omega) hbound _).mono (by omega)

/-! ## What is not finite -/

section Absorbing

variable {format : Format} {u v : UnpackedFloat}

theorem isFinite_of_stored (h : (unpack format (pack format u)).isFinite = true) :
    u.isFinite = true := by
  cases u with
  | notANumber => exact (congrArg UnpackedFloat.isFinite unpack_packedNaN).symm.trans h
  | infinity s => exact (congrArg UnpackedFloat.isFinite (unpack_packedInfinity s)).symm.trans h
  | zero s => rfl
  | finite s m e hm => rfl

/-- What is not finite absorbs what is added to it. -/
theorem Unpacked.isFinite_of_add (h : (UnpackedFloat.add format u v).isFinite = true) :
    u.isFinite = true ∧ v.isFinite = true := by
  cases u with
  | notANumber => cases h
  | infinity s =>
    cases v with
    | infinity t => cases s <;> cases t <;> cases h
    | _ => cases h
  | zero s => cases v <;> first | exact ⟨rfl, rfl⟩ | cases h
  | finite s m e hm => cases v <;> first | exact ⟨rfl, rfl⟩ | cases h

/-- What is not finite absorbs what it is multiplied with, zero included. -/
theorem Unpacked.isFinite_of_mul (h : (UnpackedFloat.mul format u v).isFinite = true) :
    u.isFinite = true ∧ v.isFinite = true := by
  cases u with
  | notANumber => cases h
  | infinity s => cases v <;> cases h
  | zero s => cases v <;> first | exact ⟨rfl, rfl⟩ | cases h
  | finite s m e hm => cases v <;> first | exact ⟨rfl, rfl⟩ | cases h

end Absorbing

/-! ## Numbers in double precision -/

/-- A number whose last digit stands no higher than at place `top`. -/
def Below (top : Int) (x : Float) : Prop := Within top x.toModel.unpack

theorem below_zero (top : Int) : Below top 0.0 := .zero .positive

theorem Below.isFinite_eq {top : Int} {x : Float} (h : Below top x) : x.isFinite = true :=
  Within.isFinite_eq h

/-- **A sum stays where it is, if what is added is small enough.** -/
theorem Below.add {top : Int} {x y : Float} (hx : Below top x) (hy : Below (top - 54) y)
    (htop : top ≤ 971) : Below top (x + y) := by
  have hsum : Within top (UnpackedFloat.add .binary64 x.toModel.unpack y.toModel.unpack) := by
    rw [Unpacked.add_comm]
    exact within_add hy hx
  exact hsum.stored htop

theorem below_mul_widen {x y : Float32} (hx : x.isFinite = true) (hy : y.isFinite = true) :
    Below 204 (widen x * widen y) :=
  (within_mul (widened_widen hx) (widened_widen hy)).stored (by omega)

theorem isFinite_of_add {x y : Float} (h : (x + y).isFinite = true) :
    x.isFinite = true ∧ y.isFinite = true := Unpacked.isFinite_of_add (isFinite_of_stored h)

theorem isFinite_of_mul {x y : Float} (h : (x * y).isFinite = true) :
    x.isFinite = true ∧ y.isFinite = true := Unpacked.isFinite_of_mul (isFinite_of_stored h)

/-- Widening makes nothing finite. -/
theorem isFinite_of_widen {x : Float32} (h : (widen x).isFinite = true) : x.isFinite = true := by
  have hregrain : (regrain .binary64 x.toModel.unpack).isFinite = true := isFinite_of_stored h
  show x.toModel.unpack.isFinite = true
  cases hx : x.toModel.unpack with
  | zero s => rfl
  | finite s m e hm => rfl
  | _ =>
    rw [hx] at hregrain
    cases hregrain

end ProductQuantization
