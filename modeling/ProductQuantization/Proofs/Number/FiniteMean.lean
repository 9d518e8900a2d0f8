import ProductQuantization.Proofs.Number.Headroom

/-!
# Means of finite numbers are numbers

The mean of a cluster is a sum in double precision over a count.  Its terms are single-precision
numbers, and adding one to a finite sum cannot make the sum infinite, however large it is: what is
added is less than half of the last digit of a sum at the upper end (`isFinite_add`).  A count is not
zero and not negative, though a very large one is rounded to infinity.  So the quotient is a number
(`isNaN_mean`).
-/

set_option autoImplicit false

namespace ProductQuantization

open Float.Model (Format UnpackedFloat totalExponent)
open Float.Model.UnpackedFloat
open Rounding

/-! ## Sums -/

/-- **Adding a single-precision number to a finite sum leaves it finite.** -/
theorem isFinite_add {u v : UnpackedFloat} (hu : Within 75 u) (hv : Within 971 v) :
    (unpack .binary64 (pack .binary64 (UnpackedFloat.add .binary64 u v))).isFinite = true :=
  ((within_add (hu.mono (by omega)) hv).stored (by omega)).isFinite_eq

/-! ## Counts -/

/-- A number that is not zero, or too large to be stored. -/
inductive Nonzero : UnpackedFloat → Prop where
  | infinity (s : Sign) : Nonzero (.infinity s)
  | finite (s : Sign) {m : Nat} (e : Int) (hm : 0 < m) : Nonzero (.finite s m e hm)

theorem Nonzero.isNaN_eq {u : UnpackedFloat} (h : Nonzero u) : u.isNaN = false := by
  cases h <;> rfl

/-- Rounding a number with enough digits gives no zero. -/
theorem nonzero_roundWithAccuracy {m : Nat} {e : Int} (hm : 0 < m) (hlog : 52 ≤ m.log2)
    (he : -1074 ≤ e) (s : Sign) :
    Nonzero (unpack .binary64 (pack .binary64 (roundWithAccuracy .binary64 s m e .exact))) := by
  obtain ⟨m', hpos, -, hfull, hround⟩ := @roundWithAccuracy_of_le_log2 .binary64 m e hm hlog he s
  rw [hround]
  by_cases hstorable : Storable .binary64 (e + (m.log2 - 52 : Nat)
      + ((roundedDigits .binary64 m).log2 - 52 : Nat))
  · rw [unpack_pack_normal hfull _ hstorable]
    · exact .finite s _ hpos
    · show 1 ≤ e + (m.log2 - 52 : Nat) + ((roundedDigits .binary64 m).log2 - 52 : Nat)
        + (1023 : Nat) + (52 : Nat)
      omega
  · rw [pack_eq_packedInfinity hstorable, unpack_packedInfinity]
    exact .infinity s

theorem unpack_powerOfTen_zero :
    Float.exactlyRepresentablePowersOfTen[0].toModel.unpack
      = .finite .positive (2 ^ 52) (-52) (Nat.two_pow_pos 52) := by
  rfl

/-- A small count is exact. -/
theorem unpack_toFloat {n : Nat} (hn : 0 < n) (hlt : n < 2 ^ 53) :
    ∃ (m : Nat) (e : Int) (hm : 0 < m), m.log2 = 52 ∧ -52 ≤ e ∧
      n.toUInt64.toFloat.toModel.unpack = .finite .positive m e hm := by
  have hword : n.toUInt64.toNat = n := by
    rw [Nat.toUInt64_eq, UInt64.toNat_ofNat', Nat.mod_eq_of_lt (by omega)]
  have hunpack : n.toUInt64.toFloat.toModel.unpack
      = unpack .binary64 (pack .binary64 (UnpackedFloat.ofNat .binary64 n.toUInt64.toNat)) := rfl
  have hnormal : UnpackedFloat.ofNat .binary64 n = UnpackedFloat.round .binary64 .positive n 0 := by
    have hpos : compare (n : Int) 0 = .gt := compare_gt_iff_gt.2 (by omega)
    rw [UnpackedFloat.ofNat, ofInt, UnpackedFloat.normalize, hpos]
    rfl
  have hlog : n.log2 < 53 := (Nat.log2_lt (Nat.ne_of_gt hn)).2 hlt
  have htarget : Format.binary64.targetExponent (totalExponent n 0) ≤ 0 := by
    show max ((n.log2 : Int) + 1 + 0 - (53 : Nat)) (3 - 2 ^ 10 - (53 : Nat)) ≤ 0
    omega
  obtain ⟨k, hpos, hwide, hround⟩ := round_of_targetExponent_le hn .positive htarget
  have hwide : (0 : Int) - k
      = max ((n * 2 ^ k).log2 + ((0 : Int) - k) - (52 : Nat)) (1 - (1023 + 52 : Nat)) :=
    canonical_iff.1 hwide
  have hfull : (n * 2 ^ k).log2 = 52 := by
    rw [log2_mul_two_pow hn] at hwide ⊢
    omega
  have hk : k ≤ 52 := by
    rw [log2_mul_two_pow hn] at hfull
    omega
  refine ⟨n * 2 ^ k, 0 - k, hpos, hfull, by omega, ?_⟩
  rw [hunpack, hword, hnormal, hround, unpack_pack_normal hfull]
  · show 1 ≤ (0 : Int) - k + (1023 : Nat) + (52 : Nat)
    omega
  · exact storable_binary64 (by omega)

/-- A count is rounded once: a small one is exact and multiplied by one, and the digits of a large one
are shifted up, to be rounded off again. -/
theorem unpack_ofNat {n : Nat} (hn : 0 < n) :
    ∃ (m : Nat) (e : Int), 0 < m ∧ 52 ≤ m.log2 ∧ -1074 ≤ e ∧
      (Float.ofNat n).toModel.unpack = unpack .binary64 (pack .binary64
        (roundWithAccuracy .binary64 .positive m e .exact)) := by
  have hscientific : (Float.ofNat n).toModel.unpack
      = (Float.ofScientific n false 0).toModel.unpack := rfl
  rw [hscientific, Float.ofScientific]
  split
  · rename_i hsmall
    obtain ⟨m, e, hm, hlog, he, hunpack⟩ := unpack_toFloat hn hsmall.1
    refine ⟨m * 2 ^ 52, e + -52, Nat.mul_pos hm (Nat.two_pow_pos 52), ?_, by omega, ?_⟩
    · rw [log2_mul_two_pow hm]
      omega
    · show unpack .binary64 (pack .binary64 (UnpackedFloat.mul .binary64
        n.toUInt64.toFloat.toModel.unpack
        Float.exactlyRepresentablePowersOfTen[0].toModel.unpack)) = _
      rw [hunpack, unpack_powerOfTen_zero]
      rfl
  · have hlarge : ¬ (0 : Int) > 2 ^ 11 := by norm_num
    have hsmall : ¬ (0 : Int) < -(2 ^ 11 + (n.log2 : Int)) := by omega
    have hunpack : UnpackedFloat.ofScientific .binary64 n 0
        = roundWithAccuracy .binary64 .positive (n * 2 ^ 53) (-53) .exact := by
      rw [UnpackedFloat.ofScientific, dif_neg (Nat.ne_of_gt hn), if_neg hlarge, if_neg hsmall,
        if_pos (Int.le_refl 0)]
      show roundWithAccuracy .binary64 .positive (n <<< 53 * 1) (-53 + 0) .exact = _
      rw [Nat.shiftLeft_eq, Nat.mul_one, Int.add_zero]
    refine ⟨n * 2 ^ 53, -53, Nat.mul_pos hn (Nat.two_pow_pos 53), ?_, by omega, ?_⟩
    · rw [log2_mul_two_pow hn]
      omega
    · show unpack .binary64 (pack .binary64 (UnpackedFloat.ofScientific .binary64 n 0)) = _
      rw [hunpack]

/-- **A count is neither zero nor not a number.** -/
theorem nonzero_ofNat {n : Nat} (hn : 0 < n) : Nonzero (Float.ofNat n).toModel.unpack := by
  obtain ⟨m, e, hm, hlog, he, hunpack⟩ := unpack_ofNat hn
  rw [hunpack]
  exact nonzero_roundWithAccuracy hm hlog he _

/-! ## Means -/

theorem isNaN_roundWithAccuracy (format : Format) (s : Sign) (m : Nat) (e : Int) (a : Accuracy) :
    (roundWithAccuracy format s m e a).isNaN = false := by
  rw [roundWithAccuracy]
  dsimp only
  split <;> rfl

theorem isNaN_div {u v : UnpackedFloat} (hu : u.isFinite = true) (hv : Nonzero v) :
    (UnpackedFloat.div .binary64 u v).isNaN = false := by
  obtain ⟨s, rfl⟩ | ⟨s, m, e, hm, rfl⟩ := zero_or_finite hu
  · cases hv <;> rfl
  · cases hv with
    | infinity t => rfl
    | finite t e' hm' => exact isNaN_roundWithAccuracy _ _ _ _ _

/-- **A finite sum over a count is a number.** -/
theorem isNaN_div_ofNat {x : Float} (hx : x.isFinite = true) {n : Nat} (hn : 0 < n) :
    (x / Float.ofNat n).isNaN = false :=
  (isNaN_unpack_pack _).trans (isNaN_div hx (nonzero_ofNat hn))

theorem isNaN_regrain (format : Format) (u : UnpackedFloat) :
    (regrain format u).isNaN = u.isNaN := by
  cases u with
  | finite s m e hm => exact isNaN_roundWithAccuracy _ _ _ _ _
  | _ => rfl

theorem isNaN_narrow {x : Float} (hx : x.isNaN = false) : (narrow x).isNaN = false :=
  (isNaN_unpack_pack _).trans ((isNaN_regrain _ _).trans hx)

theorem isNaN_widen (x : Float32) : (widen x).isNaN = x.isNaN :=
  (isNaN_unpack_pack _).trans (isNaN_regrain _ _)

theorem Single.isNaN_toFloat (x : Single) : x.toFloat.isNaN = x.isNaN :=
  (isNaN_widen x.value).trans (isNaN_eq x).symm

/-! ## Stored numbers -/

theorem isNaN_of_isFinite {u : UnpackedFloat} (h : u.isFinite = true) : u.isNaN = false := by
  obtain ⟨s, rfl⟩ | ⟨s, m, e, hm, rfl⟩ := zero_or_finite h <;> rfl

/-- A stored number that is neither infinite nor not a number. -/
def Single.IsFinite (x : Single) : Prop := x.value.isFinite = true

/-- A stored number of double width that is neither infinite nor not a number. -/
def Double.IsFinite (x : Double) : Prop := x.value.isFinite = true

theorem Single.IsFinite.isNaN_eq {x : Single} (h : x.IsFinite) : x.isNaN = false :=
  (Single.isNaN_eq x).trans (isNaN_of_isFinite h)

theorem Double.IsFinite.isNaN_eq {x : Double} (h : x.IsFinite) : x.isNaN = false :=
  (Double.isNaN_eq x).trans (isNaN_of_isFinite h)

theorem Double.isFinite_zero : zero.IsFinite := rfl

/-- **A finite component leaves a sum finite.** -/
theorem Double.IsFinite.ofSingle_add {x : Single} {s : Double} (hx : x.IsFinite)
    (hs : s.IsFinite) : (ofSingle x + s).IsFinite := by
  have hwide : Within 75 x.toFloat.toModel.unpack := within_widen hx
  have hsum : (x.toFloat + s.value).isFinite = true := isFinite_add hwide (within_of_isFinite hs)
  have hterm : ofSingle x = ofValue x.toFloat := by
    simp only [ofSingle, hx.isNaN_eq, Bool.false_eq_true, if_false]
  have hnumber : (ofValue x.toFloat).isNaN = false := (isNaN_ofValue _).trans hwide.isNaN_eq
  have hadd : lift (· + ·) (ofValue x.toFloat) s = ofValue (x.toFloat + s.value) := by
    rw [lift_eq hnumber hs.isNaN_eq] <;> rw [value_ofValue]
    exact isNaN_of_isFinite hsum
  rw [hterm]
  show (lift (· + ·) (ofValue x.toFloat) s).value.isFinite = true
  rw [hadd, value_ofValue]
  exact hsum

/-- **The mean of finite numbers is a number.** -/
theorem Double.IsFinite.isNaN_mean {s : Double} (hs : s.IsFinite) {n : Nat} (hn : 0 < n) :
    (s / ofNat n).toSingle.isNaN = false := by
  have hquotient : (s.value / Float.ofNat n).isNaN = false := isNaN_div_ofNat hs hn
  have hcount : (ofNat n).isNaN = false := (isNaN_ofValue _).trans (nonzero_ofNat hn).isNaN_eq
  have hdiv : lift (· / ·) s (ofNat n) = ofValue (s.value / Float.ofNat n) := by
    rw [lift_eq hs.isNaN_eq hcount] <;> rw [ofNat, value_ofValue]
    exact hquotient
  show (lift (· / ·) s (ofNat n)).toSingle.isNaN = false
  rw [hdiv, toSingle, isNaN_ofValue, hquotient, value_ofValue]
  show (Single.ofValue (narrow (s.value / Float.ofNat n))).isNaN = false
  rw [Single.isNaN_ofValue]
  exact isNaN_narrow hquotient

end ProductQuantization
