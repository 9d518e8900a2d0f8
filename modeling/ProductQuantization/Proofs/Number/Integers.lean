import ProductQuantization.Proofs.Number.Multiples

/-!
# Integers

A format with `p` digits has all integers up to `2 ^ p`, and rounding changes nothing that the
format has (`round_of_eq`).  So a sum, a difference or a product that is such an integer is exact
(`IsInteger.add`, `IsInteger.sub`, `IsInteger.mul`).  The operands may be integers of any size:
nothing is asked of them but that the format has them.

Which integer a number is, is said of its exact value, so both zeros are the integer zero.  There is
no other choice: two numbers that are one integer agree (`IsInteger.agree`).
-/

set_option autoImplicit false

namespace ProductQuantization

open Float.Model (Format UnpackedFloat totalExponent)
open Float.Model.UnpackedFloat

/-! ## What a format has -/

namespace Rounding

variable {format : Format} {m c : Nat} {e k : Int}

/-- One number, written with more digits and with fewer. -/
theorem eq_mul_two_pow (h : (m : ℚ) * 2 ^ e = c * 2 ^ k) (hle : e ≤ k) :
    m = c * 2 ^ (k - e).toNat := by
  obtain ⟨n, rfl⟩ := Int.le.dest hle
  have hn : (e + n - e).toNat = n := by omega
  rw [zpow_add₀ two_ne_zero, zpow_natCast, mul_left_comm, mul_comm ((2 : ℚ) ^ e)] at h
  rw [hn, ← @Nat.cast_inj ℚ]
  push_cast
  refine mul_right_cancel₀ (zpow_ne_zero e two_ne_zero) (h.trans ?_)
  ring

theorem log2_add_eq (hm : 0 < m) (hc : 0 < c) (h : (m : ℚ) * 2 ^ e = c * 2 ^ k) :
    (m.log2 + e : Int) = c.log2 + k := by
  rcases Int.le_total e k with hle | hle
  · rw [eq_mul_two_pow h hle, log2_mul_two_pow hc]
    omega
  · rw [eq_mul_two_pow h.symm hle, log2_mul_two_pow hm]
    omega

/-- A number with its last digit where the format has it is a number of the format. -/
theorem Canonical.kept (hm : 0 < m) (h : Canonical format m e) : Unpacked.Kept format m e := by
  refine Unpacked.kept_of_canonical hm h ((Nat.log2_lt hm.ne').1 ?_)
  rw [Canonical, Format.targetExponent, totalExponent] at h
  omega

theorem cast_mul_two_pow (m n : Nat) (e : Int) :
    ((m * 2 ^ n : Nat) : ℚ) * 2 ^ (e - n) = m * 2 ^ e := by
  rw [zpow_sub₀ two_ne_zero, zpow_natCast]
  push_cast
  field_simp

/-- **Rounding changes nothing that the format has**, in however many digits it is given. -/
theorem round_of_eq (hm : 0 < m) (hc : 0 < c) (h : (m : ℚ) * 2 ^ e = c * 2 ^ k)
    (hfew : c < 2 ^ format.mantissaBits) (hk : format.minExponent ≤ k) (s : Sign) :
    ∃ m' e' hm', UnpackedFloat.round format s m e = .finite s m' e' hm' ∧
      (m' : ℚ) * 2 ^ e' = m * 2 ^ e ∧ Unpacked.Kept format m' e' := by
  have hsize := log2_add_eq hm hc h
  have hlogc : c.log2 < format.mantissaBits := (Nat.log2_lt hc.ne').2 hfew
  have htarget : format.targetExponent (totalExponent m e) ≤ k := by
    rw [Format.targetExponent, totalExponent]
    omega
  rcases Int.le_total (format.targetExponent (totalExponent m e)) e with hle | hle
  · obtain ⟨n, hpos, hcanonical, hround⟩ := round_of_targetExponent_le hm s hle
    exact ⟨_, _, hpos, hround, cast_mul_two_pow m n e, hcanonical.kept hpos⟩
  · -- the digits behind the last place of the format are zeros
    obtain ⟨n, hn⟩ := Int.le.dest hle
    obtain ⟨l, hl⟩ := Int.le.dest htarget
    have hdigits : m = c * 2 ^ l * 2 ^ n := by
      rw [eq_mul_two_pow h (hle.trans htarget), show (k - e).toNat = l + n by omega, Nat.pow_add,
        Nat.mul_assoc]
    have hpos : 0 < c * 2 ^ l := Nat.mul_pos hc (Nat.two_pow_pos l)
    have hplace : e = e + n - n := by omega
    have hcanonical : Canonical format (c * 2 ^ l) (e + n) := by
      rw [Canonical, ← totalExponent_mul_two_pow hpos _ n, ← hdigits, ← hplace]
      exact hn
    have hround := roundWithAccuracy_of_canonical hpos hcanonical s n
    have hsame := cast_mul_two_pow (c * 2 ^ l) n (e + n)
    rw [← hdigits, ← hplace] at hround hsame
    exact ⟨_, _, hpos, (round_of_le_targetExponent s hle).trans hround, hsame.symm,
      hcanonical.kept hpos⟩

theorem Storable.mono {e' : Int} (h : Storable format e) (hle : e' ≤ e) : Storable format e' := by
  rw [Storable, storedExponent] at h ⊢
  omega

end Rounding

open Rounding

namespace Unpacked

variable {format : Format} {u v : UnpackedFloat} {y z : Int}

/-! ## Integers -/

/-- The rational number that a finite value is; zero for what is not finite. -/
def toRat : UnpackedFloat → ℚ
  | .finite s m e _ => s.apply m * 2 ^ e
  | _ => 0

/-- A finite value that is the integer `z`. -/
structure IsInteger (u : UnpackedFloat) (z : Int) : Prop where
  isFinite_eq : u.isFinite = true
  toRat_eq : toRat u = z

instance (u : UnpackedFloat) (z : Int) : Decidable (IsInteger u z) :=
  decidable_of_iff (u.isFinite = true ∧ toRat u = z) ⟨fun h => ⟨h.1, h.2⟩, fun h => ⟨h.1, h.2⟩⟩

theorem isInteger_zero (s : Sign) : IsInteger (.zero s) 0 := ⟨rfl, Int.cast_zero.symm⟩

theorem isInteger_stored_zero (s : Sign) : IsInteger (unpack format (pack format (.zero s))) 0 := by
  rw [show unpack format (pack format (.zero s)) = .zero s from unpack_packedZero]
  exact isInteger_zero s

theorem IsInteger.congr (h : Agree u v) (hv : IsInteger v z) : IsInteger u z := by
  cases h with
  | refl => exact hv
  | zeros s t => exact ⟨rfl, hv.toRat_eq⟩

theorem IsInteger.eq_zero {s : Sign} (h : IsInteger (.zero s) z) : z = 0 :=
  Int.cast_eq_zero.1 h.toRat_eq.symm

theorem toRat_finite {s : Sign} {m : Nat} {e : Int} (hm : 0 < m) :
    toRat (.finite s m e hm) = s.apply 1 * (m * 2 ^ e) := by
  rw [toRat]
  cases s <;> simp [Sign.apply]

theorem toRat_neg (u : UnpackedFloat) : toRat u.neg = -toRat u := by
  cases u with
  | finite s m e hm =>
    have hsign : ((-s).apply 1 : ℚ) = -s.apply 1 := by cases s <;> rfl
    rw [UnpackedFloat.neg, toRat_finite, toRat_finite, hsign, neg_mul]
  | _ => exact neg_zero.symm

theorem IsInteger.neg (h : IsInteger u z) : IsInteger u.neg (-z) := by
  refine ⟨?_, by rw [toRat_neg, h.toRat_eq, Int.cast_neg]⟩
  obtain ⟨s, rfl⟩ | ⟨s, m, e, hm, rfl⟩ := zero_or_finite h.isFinite_eq <;> rfl

/-- Without its sign, a number is its mantissa and its exponent. -/
theorem natAbs_of_toRat {s : Sign} {m : Nat} {e : Int} {hm : 0 < m}
    (h : toRat (.finite s m e hm) = z) : (m : ℚ) * 2 ^ e = z.natAbs := by
  have hpos : (0 : ℚ) < m * 2 ^ e := by positivity
  rw [Nat.cast_natAbs, Int.cast_abs, ← h, toRat_finite, abs_mul, abs_of_pos hpos]
  cases s <;> simp [Sign.apply]

/-- The format has the integers of as many digits as it keeps. -/
structure HasIntegers (format : Format) : Prop where
  minExponent_le : format.minExponent ≤ 0
  storable : Storable format 1

theorem hasIntegers_binary32 : HasIntegers .binary32 := by
  refine ⟨by decide, ?_⟩
  rw [Storable, storedExponent]
  decide

theorem hasIntegers_binary64 : HasIntegers .binary64 := by
  refine ⟨by decide, ?_⟩
  rw [Storable, storedExponent]
  decide

/-- **An integer with no more digits than the format keeps is rounded to itself.** -/
theorem isInteger_round (hformat : HasIntegers format) {s : Sign} {m : Nat} {e : Int} (hm : 0 < m)
    (h : toRat (.finite s m e hm) = z) (hle : z.natAbs ≤ 2 ^ format.mantissaBits) :
    IsInteger (unpack format (pack format (UnpackedFloat.round format s m e))) z := by
  have hvalue := natAbs_of_toRat h
  have hmin := hformat.minExponent_le
  obtain ⟨c, k, hfew, hk, hc⟩ : ∃ (c : Nat) (k : Int), c < 2 ^ format.mantissaBits ∧
      format.minExponent ≤ k ∧ (m : ℚ) * 2 ^ e = c * 2 ^ k := by
    rcases Nat.lt_or_eq_of_le hle with hlt | htop
    · exact ⟨z.natAbs, 0, hlt, hmin, by simpa using hvalue⟩
    · refine ⟨1, format.mantissaBits, Nat.one_lt_two_pow ?_, by omega, by simp [hvalue, htop]⟩
      rw [Format.mantissaBits]
      omega
  have hcpos : 0 < c := by
    have hpos : (0 : ℚ) < c * 2 ^ k := hc ▸ by positivity
    exact Nat.pos_of_ne_zero fun h0 => by simp [h0] at hpos
  obtain ⟨m', e', hm', hround, hsame, hkept⟩ := round_of_eq hm hcpos hc hfew hk s
  have hstorable : Storable format e' := by
    refine hformat.storable.mono ?_
    have hpos : 0 < z.natAbs := by
      have hpos : (0 : ℚ) < z.natAbs := hvalue ▸ by positivity
      exact_mod_cast hpos
    have hsize : (m'.log2 + e' : Int) = z.natAbs.log2 + 0 :=
      log2_add_eq hm' hpos (by rw [hsame, hvalue, zpow_zero, mul_one])
    have hlog : z.natAbs.log2 < format.mantissaBits + 1 := by
      rw [Nat.log2_lt hpos.ne', Nat.pow_succ]
      have := Nat.two_pow_pos format.mantissaBits
      omega
    rw [Format.mantissaBits] at hlog
    rcases hkept.full with hleast | hfull
    · omega
    · have := (Nat.le_log2 hm'.ne').2 hfull
      omega
  rw [hround, unpack_pack_kept hkept hstorable]
  exact ⟨rfl, by rw [toRat_finite, hsame, ← h, toRat_finite]⟩

theorem isInteger_normalize (hformat : HasIntegers format) {d e : Int}
    (h : (d : ℚ) * 2 ^ e = z) (hle : z.natAbs ≤ 2 ^ format.mantissaBits) (s : Sign) :
    IsInteger (unpack format (pack format (UnpackedFloat.normalize format d e s))) z := by
  rw [UnpackedFloat.normalize]
  split
  · rename_i hlt
    have hneg : d < 0 := compare_lt_iff_lt.1 hlt
    refine isInteger_round hformat (by omega) (s := .negative) ?_ hle
    rw [← h, toRat, Sign.apply, Int.toNat_of_nonneg (by omega), Int.neg_neg]
  · rename_i heq
    have hzero : z = 0 := by
      rw [compare_eq_iff_eq.1 heq, Int.cast_zero, zero_mul] at h
      exact Int.cast_eq_zero.1 h.symm
    rw [hzero]
    exact isInteger_stored_zero s
  · rename_i hgt
    have hpos : 0 < d := compare_gt_iff_gt.1 hgt
    refine isInteger_round hformat (by omega) (s := .positive) ?_ hle
    rw [← h, toRat, Sign.apply, Int.toNat_of_nonneg (by omega)]

/-! ## Arithmetic -/

/-- A summand, given with a smaller exponent. -/
theorem apply_shiftLeft {s : Sign} {m : Nat} {e f : Int} {hm : 0 < m} (hf : f ≤ e) :
    ((s.apply (m <<< (e - f).toNat : Nat) : Int) : ℚ) * 2 ^ f = toRat (.finite s m e hm) := by
  obtain ⟨n, rfl⟩ := Int.le.dest hf
  have hn : (f + n - f).toNat = n := by omega
  have hdigits := cast_mul_two_pow m n (f + n)
  rw [Int.add_sub_cancel] at hdigits
  rw [hn, Nat.shiftLeft_eq, toRat_finite, ← hdigits]
  cases s <;> simp [Sign.apply]

/-- **A sum that is an integer of the format is exact.** -/
theorem IsInteger.add (hformat : HasIntegers format) (hu : IsInteger u y) (hv : IsInteger v z)
    (hus : Stored format u) (hvs : Stored format v)
    (hle : (y + z).natAbs ≤ 2 ^ format.mantissaBits) :
    IsInteger (unpack format (pack format (UnpackedFloat.add format u v))) (y + z) := by
  obtain ⟨s, rfl⟩ | ⟨s, m, e, hm, rfl⟩ := zero_or_finite hu.isFinite_eq
  · have hsame : Agree (UnpackedFloat.add format (.zero s) v) v := .zero_add s v
    rw [hu.eq_zero, Int.zero_add]
    refine .congr hsame.pack ?_
    rwa [unpack_pack_stored hvs]
  obtain ⟨t, rfl⟩ | ⟨t, m', e', hm', rfl⟩ := zero_or_finite hv.isFinite_eq
  · have hsame : Agree (UnpackedFloat.add format (.finite s m e hm) (.zero t)) (.finite s m e hm) :=
      .add_zero _ t
    rw [hv.eq_zero, Int.add_zero]
    refine .congr hsame.pack ?_
    rwa [unpack_pack_stored hus]
  · refine isInteger_normalize hformat ?_ hle .positive
    push_cast
    rw [add_mul, ← hu.toRat_eq, ← hv.toRat_eq]
    exact congrArg₂ (· + ·) (apply_shiftLeft (Int.min_le_left e e'))
      (apply_shiftLeft (Int.min_le_right e e'))

theorem IsInteger.sub (hformat : HasIntegers format) (hu : IsInteger u y) (hv : IsInteger v z)
    (hus : Stored format u) (hvs : Stored format v)
    (hle : (y - z).natAbs ≤ 2 ^ format.mantissaBits) :
    IsInteger (unpack format (pack format (UnpackedFloat.sub format u v))) (y - z) := by
  rw [sub_eq_add_neg]
  rw [Int.sub_eq_add_neg] at hle ⊢
  refine hu.add hformat hv.neg hus (fun hnumber => ?_) hle
  exact (hvs ((isNaN_neg v).symm.trans hnumber)).neg

/-- Of two numbers of a format, the product has as many digits as the format keeps. -/
theorem mul_eq_round (hformat : HasIntegers format) {s t : Sign} {m m' : Nat} {e e' : Int}
    {hm : 0 < m} {hm' : 0 < m'} (h : Kept format m e) (h' : Kept format m' e') :
    UnpackedFloat.mul format (.finite s m e hm) (.finite t m' e' hm')
      = UnpackedFloat.round format (s * t) (m * m') (e + e') := by
  have hmin := hformat.minExponent_le
  refine (round_of_le_targetExponent _ ?_).symm
  rw [Format.targetExponent, totalExponent, Format.mantissaBits]
  have hmany : ∀ {d : Nat}, 2 ^ format.mantissaBitsWithoutImplicit ≤ d → d ≤ m * m' →
      format.mantissaBitsWithoutImplicit ≤ (m * m').log2 := fun hd hle =>
    (Nat.le_log2 (Nat.mul_pos hm hm').ne').2 (hd.trans hle)
  rcases h.full with hleast | hfull
  · rcases h'.full with hleast' | hfull'
    · omega
    · have := hmany hfull' (Nat.le_mul_of_pos_left m' hm)
      omega
  · have := hmany hfull (Nat.le_mul_of_pos_right m hm')
    omega

/-- **A product that is an integer of the format is exact.** -/
theorem IsInteger.mul (hformat : HasIntegers format) (hu : IsInteger u y) (hv : IsInteger v z)
    (hus : Stored format u) (hvs : Stored format v)
    (hle : (y * z).natAbs ≤ 2 ^ format.mantissaBits) :
    IsInteger (unpack format (pack format (UnpackedFloat.mul format u v))) (y * z) := by
  obtain ⟨s, rfl⟩ | ⟨s, m, e, hm, rfl⟩ := zero_or_finite hu.isFinite_eq
  · rw [hu.eq_zero, Int.zero_mul]
    obtain ⟨t, rfl⟩ | ⟨t, m', e', hm', rfl⟩ := zero_or_finite hv.isFinite_eq <;>
      exact isInteger_stored_zero (s * t)
  obtain ⟨t, rfl⟩ | ⟨t, m', e', hm', rfl⟩ := zero_or_finite hv.isFinite_eq
  · rw [hv.eq_zero, Int.mul_zero]
    exact isInteger_stored_zero (s * t)
  cases hus rfl with | finite _ _ hkept hstorable =>
  cases hvs rfl with | finite _ _ hkept' hstorable' =>
  have hpos := Nat.mul_pos hm hm'
  rw [mul_eq_round hformat hkept hkept']
  refine isInteger_round hformat hpos ?_ hle
  rw [Int.cast_mul, ← hu.toRat_eq, ← hv.toRat_eq, toRat_finite, toRat_finite, toRat_finite,
    apply_mul_apply, zpow_add₀ two_ne_zero]
  push_cast
  ring

/-! ## One integer, one number -/

/-- A number has its last digit at one place of the format only. -/
theorem Kept.le_of_eq {m m' : Nat} {e e' : Int} (h : Kept format m e) (h' : Kept format m' e')
    (hsame : (m : ℚ) * 2 ^ e = m' * 2 ^ e') : e' ≤ e := by
  by_contra hlt
  have hmin := h.minExponent_le
  have hfull := h'.full.resolve_left (by omega)
  have hdigits := eq_mul_two_pow hsame (by omega)
  have htwo : 2 ^ 1 ≤ 2 ^ (e' - e).toNat := Nat.pow_le_pow_right (by decide) (by omega)
  have hmany := Nat.mul_le_mul hfull htwo
  rw [← Nat.pow_add, ← hdigits] at hmany
  exact absurd h.lt (Nat.not_lt.2 hmany)

/-- **Two numbers that are one integer agree.** -/
theorem IsInteger.agree (hu : IsInteger u z) (hv : IsInteger v z) (hus : Stored format u)
    (hvs : Stored format v) : Agree u v := by
  have hsame : toRat u = toRat v := hu.toRat_eq.trans hv.toRat_eq.symm
  have hnonzero : ∀ {s : Sign} {m : Nat} {e : Int} {hm : 0 < m}, toRat (.finite s m e hm) ≠ 0 :=
    fun {s m e hm} h0 => by
      have hpos : (m : ℚ) * 2 ^ e ≠ 0 := by positivity
      exact hpos (by simpa using natAbs_of_toRat (z := 0) (h0.trans Int.cast_zero.symm))
  obtain ⟨s, rfl⟩ | ⟨s, m, e, hm, rfl⟩ := zero_or_finite hu.isFinite_eq
  · obtain ⟨t, rfl⟩ | ⟨t, m', e', hm', rfl⟩ := zero_or_finite hv.isFinite_eq
    · exact .zeros s t
    · exact absurd hsame.symm hnonzero
  obtain ⟨t, rfl⟩ | ⟨t, m', e', hm', rfl⟩ := zero_or_finite hv.isFinite_eq
  · exact absurd hsame hnonzero
  cases hus rfl with | finite _ _ hkept _ =>
  cases hvs rfl with | finite _ _ hkept' _ =>
  have hsize : (m : ℚ) * 2 ^ e = m' * 2 ^ e' :=
    (natAbs_of_toRat hu.toRat_eq).trans (natAbs_of_toRat hv.toRat_eq).symm
  obtain rfl : e = e' :=
    Int.le_antisymm (hkept'.le_of_eq hkept hsize.symm) (hkept.le_of_eq hkept' hsize)
  obtain rfl : m = m' := by
    exact_mod_cast mul_right_cancel₀ (zpow_ne_zero e two_ne_zero) hsize
  have hpos : (0 : ℚ) < m * 2 ^ e := by positivity
  rw [toRat_finite, toRat_finite] at hsame
  have hsign := mul_right_cancel₀ hpos.ne' hsame
  cases s <;> cases t <;> first | exact .refl _ | norm_num [Sign.apply] at hsign

end Unpacked

/-! ## Double precision -/

/-- A finite number in double precision that is the integer `z`. -/
def IsInteger64 (x : Float) (z : Int) : Prop := Unpacked.IsInteger x.toModel.unpack z

namespace IsInteger64

variable {x y : Float} {a b : Int}

theorem add (hx : IsInteger64 x a) (hy : IsInteger64 y b) (h : (a + b).natAbs ≤ 2 ^ 53) :
    IsInteger64 (x + y) (a + b) :=
  Unpacked.IsInteger.add Unpacked.hasIntegers_binary64 hx hy (stored64 x) (stored64 y) h

theorem sub (hx : IsInteger64 x a) (hy : IsInteger64 y b) (h : (a - b).natAbs ≤ 2 ^ 53) :
    IsInteger64 (x - y) (a - b) :=
  Unpacked.IsInteger.sub Unpacked.hasIntegers_binary64 hx hy (stored64 x) (stored64 y) h

theorem mul (hx : IsInteger64 x a) (hy : IsInteger64 y b) (h : (a * b).natAbs ≤ 2 ^ 53) :
    IsInteger64 (x * y) (a * b) :=
  Unpacked.IsInteger.mul Unpacked.hasIntegers_binary64 hx hy (stored64 x) (stored64 y) h

end IsInteger64

/-! ## Stored numbers -/

namespace Single

variable {x y : Single} {a b : Int}

/-- A stored number that is the integer `z`; both zeros are the integer zero. -/
def IsInteger (x : Single) (z : Int) : Prop := Unpacked.IsInteger x.value.toModel.unpack z

instance : DecidableRel IsInteger := fun x z =>
  inferInstanceAs (Decidable (Unpacked.IsInteger x.value.toModel.unpack z))

theorem IsZero.isInteger (h : x.IsZero) : x.IsInteger 0 := by
  obtain ⟨s, hs⟩ := h.exists_sign
  rw [IsInteger, hs]
  exact Unpacked.isInteger_zero s

theorem isInteger_lift (op : Float32 → Float32 → Float32) (hx : x.IsFinite) (hy : y.IsFinite)
    (h : Unpacked.IsInteger (op x.value y.value).toModel.unpack a) : (lift op x y).IsInteger a := by
  rw [lift_eq hx.isNaN_eq hy.isNaN_eq (isNaN_of_isFinite h.isFinite_eq), IsInteger, value_ofValue]
  exact h

namespace IsInteger

theorem isFinite (h : x.IsInteger a) : x.IsFinite := h.isFinite_eq

theorem add (hx : x.IsInteger a) (hy : y.IsInteger b) (h : (a + b).natAbs ≤ 2 ^ 24) :
    (x + y).IsInteger (a + b) :=
  isInteger_lift (· + ·) hx.isFinite hy.isFinite <|
    Unpacked.IsInteger.add Unpacked.hasIntegers_binary32 hx hy (stored32 _) (stored32 _) h

theorem sub (hx : x.IsInteger a) (hy : y.IsInteger b) (h : (a - b).natAbs ≤ 2 ^ 24) :
    (x - y).IsInteger (a - b) :=
  isInteger_lift (· - ·) hx.isFinite hy.isFinite <|
    Unpacked.IsInteger.sub Unpacked.hasIntegers_binary32 hx hy (stored32 _) (stored32 _) h

theorem mul (hx : x.IsInteger a) (hy : y.IsInteger b) (h : (a * b).natAbs ≤ 2 ^ 24) :
    (x * y).IsInteger (a * b) :=
  isInteger_lift (· * ·) hx.isFinite hy.isFinite <|
    Unpacked.IsInteger.mul Unpacked.hasIntegers_binary32 hx hy (stored32 _) (stored32 _) h

/-- Stored numbers that are one integer are equal numbers. -/
theorem sameValue (hx : x.IsInteger a) (hy : y.IsInteger a) : x.sameValue y = true := by
  have hagree : Agree32 x.value y.value := Unpacked.IsInteger.agree hx hy (stored32 _) (stored32 _)
  exact Unpacked.Agree.beq_eq_true hagree (isNaN_of_isFinite hx.isFinite_eq)

end IsInteger

/-- **Widening is exact.** -/
theorem toRat_toFloat (hx : x.IsFinite) :
    Unpacked.toRat x.toFloat.toModel.unpack = Unpacked.toRat x.value.toModel.unpack := by
  have hwide : x.toFloat.isFinite = true := (widened_widen hx).within.isFinite_eq
  obtain ⟨s, hs⟩ | ⟨s, m, e, hm, hs⟩ := zero_or_finite (u := x.value.toModel.unpack) hx
  · rw [unpack_toFloat_zero hs, hs]
  · obtain ⟨hcanonical, -, -⟩ := canonical_of_unpack (by decide) hs
    have hkept := hcanonical.kept hm
    have hlt : m < 2 ^ 24 := hkept.lt
    have hlo : -149 ≤ e := hkept.minExponent_le
    obtain ⟨m', e', hm', hround, hsame, hkept'⟩ : ∃ m' e' hm',
        UnpackedFloat.round .binary64 s m e = .finite s m' e' hm' ∧
          (m' : ℚ) * 2 ^ e' = m * 2 ^ e ∧ Unpacked.Kept .binary64 m' e' :=
      round_of_eq hm hm rfl (hlt.trans (by decide)) (show -1074 ≤ e by omega) s
    have hstored : x.toFloat.toModel.unpack = unpack .binary64 (pack .binary64
        (UnpackedFloat.round .binary64 s m e)) := by
      show unpack .binary64 (pack .binary64 (regrain .binary64 x.value.toModel.unpack)) = _
      rw [hs, regrain]
    rw [hround] at hstored
    rw [unpack_of_isFinite hkept' hstored hwide, hs, Unpacked.toRat_finite, Unpacked.toRat_finite,
      hsame]

theorem IsInteger.toFloat (h : x.IsInteger a) : IsInteger64 x.toFloat a :=
  ⟨(widened_widen h.isFinite).within.isFinite_eq, (toRat_toFloat h.isFinite).trans h.toRat_eq⟩

end Single
end ProductQuantization
