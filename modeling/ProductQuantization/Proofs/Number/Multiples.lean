import ProductQuantization.Proofs.Number.Scaling

/-!
# Multiples of a power of two

A number that is a multiple of `2 ^ g` is zero or at least as large as that.  Sums of multiples are
multiples, whatever is rounded off (`MultipleOf.add`): what is rounded off are the last digits, and a
number that has digits below `2 ^ g` is not one of them.  So a sum of products of single-precision
numbers is zero or a number with all its digits, however much of it cancels out.
-/

set_option autoImplicit false

namespace ProductQuantization

open Float.Model (Format UnpackedFloat totalExponent)
open Float.Model.UnpackedFloat
open Rounding

namespace Unpacked

variable {g g' e : Int} {m : Nat} {u v : UnpackedFloat}

/-- Zero, or a number of the format that is a multiple of `2 ^ g`. -/
inductive Multiple (g : Int) : UnpackedFloat → Prop where
  | zero (s : Sign) : Multiple g (.zero s)
  | finite (s : Sign) {m : Nat} {e : Int} (hm : 0 < m) (hkept : Kept .binary64 m e)
      (hdvd : 2 ^ (g - e).toNat ∣ m) : Multiple g (.finite s m e hm)

theorem le_log2_of_dvd (hm : 0 < m) (hdvd : 2 ^ (g - e).toNat ∣ m) : g ≤ m.log2 + e := by
  have hlog := (Nat.le_log2 hm.ne').2 (Nat.le_of_dvd hm hdvd)
  omega

/-- Digits that are all zero are cut off without rounding. -/
theorem digitsLeft_mul_two_pow (d n : Nat) : digitsLeft (d * 2 ^ n) .exact n = d :=
  congrArg ExtendedMantissa.roundedMantissa (shiftRight_exact d n)

/-- Cut off at any place, a multiple is left a multiple. -/
theorem dvd_digitsLeft {t : Int} (ht : e ≤ t) (hdvd : 2 ^ (g - e).toNat ∣ m) :
    2 ^ (g - t).toNat ∣ digitsLeft m .exact (t - e).toNat := by
  by_cases hg : g ≤ t
  · rw [Int.toNat_of_nonpos (by omega)]
    exact Nat.one_dvd _
  · have hexponent : (g - e).toNat = (g - t).toNat + (t - e).toNat := by omega
    obtain ⟨c, rfl⟩ := hdvd
    rw [hexponent, Nat.pow_add, Nat.mul_right_comm, digitsLeft_mul_two_pow]
    exact Nat.dvd_mul_right _ _

/-- **Rounding takes a multiple to a multiple.** -/
theorem multiple_roundWithAccuracy (hm : 0 < m) (hcut : e ≤ cut .binary64 m e)
    (hdvd : 2 ^ (g - e).toNat ∣ m) (s : Sign) :
    Multiple g (roundWithAccuracy .binary64 s m e .exact) := by
  have hrounded := rounded_roundWithAccuracy hcut .exact s
  have hleft := dvd_digitsLeft hcut hdvd
  rcases roundWithAccuracy_cases .binary64 s m e .exact with hround | ⟨d, f, hd, hround⟩
  · rw [hround]
    exact .zero s
  · have hkept := (kept_of_roundWithAccuracy hm hcut hround).2
    rw [hround] at hrounded ⊢
    refine .finite s hd hkept ?_
    generalize digitsLeft m .exact (cut .binary64 m e - e).toNat = r at hrounded hleft
    cases hrounded with
    | digits => exact hleft
    | carry =>
      have hle := (Nat.pow_dvd_pow_iff_le_right (by decide)).1 hleft
      refine Nat.pow_dvd_pow 2 ?_
      omega

theorem multiple_round (hm : 0 < m) (he : -1074 ≤ e) (hdvd : 2 ^ (g - e).toNat ∣ m) (s : Sign) :
    Multiple g (UnpackedFloat.round .binary64 s m e) := by
  rcases Nat.le_total m.log2 52 with hlog | hlog
  · have htarget : Format.binary64.targetExponent (totalExponent m e) ≤ e := by
      show max ((m.log2 : Int) + 1 + e - (53 : Nat)) (3 - 2 ^ 10 - (53 : Nat)) ≤ e
      omega
    obtain ⟨n, hpos, hcanonical, hround⟩ := round_of_targetExponent_le hm s htarget
    have hplace : e - n = max ((m * 2 ^ n).log2 + (e - n) - (52 : Nat)) (1 - (1023 + 52 : Nat)) :=
      canonical_iff.1 hcanonical
    have hlogn : (m * 2 ^ n).log2 = m.log2 + n := log2_mul_two_pow hm n
    have hlt : m * 2 ^ n < 2 ^ 53 := (Nat.log2_lt hpos.ne').1 (by omega)
    rw [hround]
    refine .finite s hpos (kept_of_canonical hpos hcanonical hlt) ?_
    refine Nat.dvd_trans (Nat.pow_dvd_pow 2 (show (g - (e - n)).toNat ≤ (g - e).toNat + n by omega)) ?_
    rw [Nat.pow_add]
    exact Nat.mul_dvd_mul_right hdvd _
  · have htarget : e ≤ Format.binary64.targetExponent (totalExponent m e) := by
      show e ≤ max ((m.log2 : Int) + 1 + e - (53 : Nat)) (3 - 2 ^ 10 - (53 : Nat))
      omega
    rw [round_of_le_targetExponent s htarget]
    exact multiple_roundWithAccuracy hm (by rw [cut_binary64]; omega) hdvd s

theorem multiple_normalize {d : Int} (he : -1074 ≤ e) (hdvd : 2 ^ (g - e).toNat ∣ d.natAbs)
    (s : Sign) : Multiple g (UnpackedFloat.normalize .binary64 d e s) := by
  rw [UnpackedFloat.normalize]
  split
  · rename_i hlt
    have hneg : d < 0 := compare_lt_iff_lt.1 hlt
    have habs : (-d).toNat = d.natAbs := by omega
    exact multiple_round (by omega) he (habs ▸ hdvd) _
  · exact .zero s
  · rename_i hgt
    have hpos : 0 < d := compare_gt_iff_gt.1 hgt
    have habs : d.toNat = d.natAbs := by omega
    exact multiple_round (by omega) he (habs ▸ hdvd) _

/-- A summand, given with the smaller of the two exponents. -/
theorem dvd_apply_shiftLeft {f : Int} (hf : f ≤ e) (hdvd : 2 ^ (g - e).toNat ∣ m) (s : Sign) :
    ((2 ^ (g - f).toNat : Nat) : Int) ∣ s.apply (m <<< (e - f).toNat : Nat) := by
  have hshift : 2 ^ (g - f).toNat ∣ m <<< (e - f).toNat := by
    refine Nat.dvd_trans (Nat.pow_dvd_pow 2
      (show (g - f).toNat ≤ (g - e).toNat + (e - f).toNat by omega)) ?_
    rw [Nat.shiftLeft_eq, Nat.pow_add]
    exact Nat.mul_dvd_mul_right hdvd _
  cases s with
  | positive => exact Int.natCast_dvd_natCast.2 hshift
  | negative => exact Int.dvd_neg.2 (Int.natCast_dvd_natCast.2 hshift)

/-- **Sums of multiples are multiples.** -/
theorem Multiple.add (hu : Multiple g u) (hv : Multiple g v) :
    Multiple g (UnpackedFloat.add .binary64 u v) := by
  cases hu with
  | zero s =>
    cases hv with
    | zero t => cases s <;> cases t <;> exact .zero _
    | finite t hm hkept hdvd => exact .finite t hm hkept hdvd
  | @finite s m e hm hkept hdvd =>
    cases hv with
    | zero t => exact .finite s hm hkept hdvd
    | @finite t m' e' hm' hkept' hdvd' =>
      have hmin : Format.binary64.minExponent = -1074 := rfl
      have hle := hkept.minExponent_le
      have hle' := hkept'.minExponent_le
      refine multiple_normalize (by omega) (Int.natCast_dvd.1 (Int.dvd_add ?_ ?_)) _
      · exact dvd_apply_shiftLeft (by omega) hdvd s
      · exact dvd_apply_shiftLeft (by omega) hdvd' t

/-- So are products, of multiples of another power. -/
theorem Multiple.mul (hu : Multiple g u) (hv : Multiple g' v) (hfull : Widened u)
    (hfull' : Widened v) : Multiple (g + g') (UnpackedFloat.mul .binary64 u v) := by
  cases hu with
  | zero s => cases hv <;> exact .zero _
  | @finite s m e hm hkept hdvd =>
    cases hv with
    | zero t => exact .zero _
    | @finite t m' e' hm' hkept' hdvd' =>
      cases hfull with | finite _ _ hlog _ _ =>
      have hmany : 52 ≤ (m * m').log2 := by
        rw [← hlog, Nat.le_log2 (Nat.mul_pos hm hm').ne']
        exact (Nat.log2_self_le hm.ne').trans (Nat.le_mul_of_pos_right m hm')
      refine multiple_roundWithAccuracy (Nat.mul_pos hm hm') (by rw [cut_binary64]; omega) ?_ _
      refine Nat.dvd_trans (Nat.pow_dvd_pow 2
        (show (g + g' - (e + e')).toNat ≤ (g - e).toNat + (g' - e').toNat by omega)) ?_
      rw [Nat.pow_add]
      exact Nat.mul_dvd_mul hdvd hdvd'

theorem Multiple.stored (h : Multiple g u)
    (hfinite : (unpack .binary64 (pack .binary64 u)).isFinite = true) :
    Multiple g (unpack .binary64 (pack .binary64 u)) := by
  cases h with
  | zero s =>
    rw [show unpack .binary64 (pack .binary64 (.zero s)) = .zero s from unpack_packedZero]
    exact .zero s
  | @finite s m e hm hkept hdvd =>
    by_cases hstorable : Storable .binary64 e
    · rw [unpack_pack_kept hkept hstorable]
      exact .finite s hm hkept hdvd
    · rw [pack_eq_packedInfinity hstorable, unpack_packedInfinity] at hfinite
      cases hfinite

end Unpacked

/-! ## In double precision -/

section Double

variable {g g' : Int} {x y : Float}

/-- A multiple of `2 ^ g`. -/
def MultipleOf (g : Int) (x : Float) : Prop := Unpacked.Multiple g x.toModel.unpack

theorem multipleOf_zero (g : Int) : MultipleOf g 0.0 := .zero .positive

theorem MultipleOf.add (hx : MultipleOf g x) (hy : MultipleOf g y) (h : (x + y).isFinite = true) :
    MultipleOf g (x + y) := Unpacked.Multiple.stored (Unpacked.Multiple.add hx hy) h

/-- A multiple of a power that is not too small has all its digits. -/
theorem MultipleOf.inRange (h : MultipleOf g x) (hg : -1021 ≤ g) (hx : x.isFinite = true) :
    InRange x := by
  obtain ⟨s, hs⟩ | ⟨s, m, e, hm, hs⟩ := zero_or_finite (u := x.toModel.unpack) hx
  · exact .inl (beq_zero_of_unpack hs)
  · rw [MultipleOf, hs] at h
    cases h with
    | finite _ _ hkept hdvd =>
      have hle := Unpacked.le_log2_of_dvd hm hdvd
      exact inRange_of_le hs (by omega)

theorem MultipleOf.mul {x y : Float32} (hx : MultipleOf g (widen x)) (hy : MultipleOf g' (widen y))
    (hfx : x.isFinite = true) (hfy : y.isFinite = true) :
    MultipleOf (g + g') (widen x * widen y) :=
  (Unpacked.Multiple.mul hx hy (widened_widen hfx) (widened_widen hfy)).stored
    (below_mul_widen hfx hfy).isFinite_eq

end Double

/-! ## From single precision -/

namespace Single

variable {k l : Int} {x x' y y' : Single}

/-- The one number is `2 ^ k` times the other, and both are zero or have all the digits of single
precision. -/
def Scaled (k : Int) (x x' : Single) : Prop :=
  Unpacked.Scaled 23 k x.value.toModel.unpack x'.value.toModel.unpack

theorem Scaled.symm (h : Scaled k x x') : Scaled (-k) x' x := Unpacked.Scaled.symm h

theorem Scaled.isFinite (h : Scaled k x x') : x.IsFinite := by
  show x.value.toModel.unpack.isFinite = true
  rw [Scaled] at h
  generalize x.value.toModel.unpack = u, x'.value.toModel.unpack = v at h
  cases h <;> rfl

theorem unpack_toFloat_zero {s : UnpackedFloat.Sign} (hx : x.value.toModel.unpack = .zero s) :
    x.toFloat.toModel.unpack = .zero s := by
  show unpack .binary64 (pack .binary64 (regrain .binary64 x.value.toModel.unpack)) = _
  rw [hx]
  exact unpack_packedZero

theorem Scaled.beq_zero_eq (h : Scaled k x x') : (x'.value == 0.0) = (x.value == 0.0) := by
  show x'.value.toModel.unpack.beq (0.0 : Float32).toModel.unpack
    = x.value.toModel.unpack.beq (0.0 : Float32).toModel.unpack
  rw [Scaled] at h
  generalize x.value.toModel.unpack = u, x'.value.toModel.unpack = v at h
  cases h with
  | zero s => rfl
  | finite s hm hlog => cases s <;> rfl

/-- Widened, a number has twenty-nine digits more, all zero. -/
theorem unpack_toFloat {s : UnpackedFloat.Sign} {m : Nat} {e : Int} {hm : 0 < m}
    (hx : x.value.toModel.unpack = .finite s m e hm) (hlog : m.log2 = 23) :
    -149 ≤ e ∧ x.toFloat.toModel.unpack
      = .finite s (m * 2 ^ 29) (e - 29) (Nat.mul_pos hm (Nat.two_pow_pos _)) := by
  have hfinite : x.value.isFinite = true := congrArg UnpackedFloat.isFinite hx
  obtain ⟨hcanonical, hdigits, -⟩ := canonical_of_unpack (by decide) hx
  have hkept := Unpacked.kept_of_canonical hm hcanonical hdigits
  have hle : -149 ≤ e := hkept.minExponent_le
  have hround : x.toFloat.toModel.unpack
      = unpack .binary64 (pack .binary64 (UnpackedFloat.round .binary64 s m e)) := by
    show unpack .binary64 (pack .binary64 (regrain .binary64 x.value.toModel.unpack)) = _
    rw [hx]
    rfl
  have hrange : InRange x.toFloat := by
    have hwidened := widened_widen hfinite
    generalize hu : (widen x.value).toModel.unpack = u at hwidened
    cases hwidened with
    | zero t => exact .inl (beq_zero_of_unpack hu)
    | finite t hd hlogd hlo hhi => exact inRange_of_le hu (by omega)
  have hfew := unpack_round_of_few hm (by omega) (by omega) hround hrange
  refine ⟨hle, ?_⟩
  simp only [hlog] at hfew
  exact hfew

theorem Scaled.toFloat (h : Scaled k x x') : ProductQuantization.Scaled k x.toFloat x'.toFloat := by
  rw [Scaled] at h
  generalize hu : x.value.toModel.unpack = u, hv : x'.value.toModel.unpack = v at h
  cases h with
  | zero s => exact scaled_of_zero (unpack_toFloat_zero hu) (unpack_toFloat_zero hv)
  | @finite s m e hm hlog =>
    have hx := (unpack_toFloat hu hlog).2
    have hx' := (unpack_toFloat hv hlog).2
    have hexponent : e + k - 29 = e - 29 + k := by omega
    simp only [hexponent] at hx'
    refine scaled_of_finite hx hx' ?_
    rw [log2_mul_two_pow hm, hlog]

theorem Scaled.zero_or_finite (h : Scaled k x x') : (∃ s, x.value.toModel.unpack = .zero s) ∨
    ∃ s m e hm, x.value.toModel.unpack = .finite s m e hm ∧ m.log2 = 23 := by
  rw [Scaled] at h
  generalize x.value.toModel.unpack = u, x'.value.toModel.unpack = v at h
  cases h with
  | zero s => exact .inl ⟨s, rfl⟩
  | finite s hm hlog => exact .inr ⟨s, _, _, hm, rfl, hlog⟩

theorem Scaled.multipleOf (h : Scaled k x x') : MultipleOf (-149) x.toFloat := by
  obtain ⟨s, hs⟩ | ⟨s, m, e, hm, hs, hlog⟩ := h.zero_or_finite
  · rw [MultipleOf, unpack_toFloat_zero hs]
    exact .zero s
  · obtain ⟨hle, hx⟩ := unpack_toFloat hs hlog
    obtain ⟨hcanonical, hdigits, -⟩ := canonical_of_unpack (by decide) hx
    rw [MultipleOf, hx]
    have hpos := Nat.mul_pos hm (Nat.two_pow_pos 29)
    refine .finite s hpos (Unpacked.kept_of_canonical hpos hcanonical hdigits) ?_
    exact Nat.dvd_mul_left_of_dvd (Nat.pow_dvd_pow 2 (by omega)) m

theorem Scaled.multipleOf_mul (hx : Scaled k x x') (hy : Scaled l y y') :
    MultipleOf (-298) (x.toFloat * y.toFloat) :=
  hx.multipleOf.mul hy.multipleOf hx.isFinite hy.isFinite

/-- The product of two numbers of single precision is in range. -/
theorem Scaled.mulInRange (hx : Scaled k x x') (hy : Scaled l y y') :
    MulInRange x.toFloat y.toFloat := by
  have hfinite := (below_mul_widen hx.isFinite hy.isFinite).isFinite_eq
  refine ⟨(hx.multipleOf_mul hy).inRange (by decide) hfinite, fun hzero => ?_⟩
  obtain ⟨s, hs⟩ | ⟨s, m, e, hm, hs, hlog⟩ := hx.zero_or_finite
  · exact .inl (beq_zero_of_unpack (unpack_toFloat_zero hs))
  obtain ⟨t, ht⟩ | ⟨t, d, f, hd, ht, hlogd⟩ := hy.zero_or_finite
  · exact .inr (beq_zero_of_unpack (unpack_toFloat_zero ht))
  · obtain ⟨hle, hwide⟩ := unpack_toFloat hs hlog
    obtain ⟨hle', hwide'⟩ := unpack_toFloat ht hlogd
    have hmany : 52 ≤ (m * 2 ^ 29 * (d * 2 ^ 29)).log2 := by
      rw [Nat.mul_mul_mul_comm, ← Nat.pow_add, log2_mul_two_pow (Nat.mul_pos hm hd)]
      omega
    have hne := beq_zero_of_round (z := x.toFloat * y.toFloat) (s := s * t) (a := .exact)
      (Nat.mul_pos (Nat.mul_pos hm (Nat.two_pow_pos _)) (Nat.mul_pos hd (Nat.two_pow_pos _)))
      hmany (e := e - 29 + (f - 29)) (by omega) ?_ hfinite
    · rw [hne] at hzero
      cases hzero
    · rw [unpack_mul, hwide, hwide']
      rfl

end Single

end ProductQuantization
