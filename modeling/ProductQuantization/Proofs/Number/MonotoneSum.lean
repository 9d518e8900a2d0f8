import ProductQuantization.Number.Order
import ProductQuantization.Proofs.Number.NonNegative
import ProductQuantization.Proofs.Number.Ordinal

/-!
# Larger terms, larger sums

A sum in floating point is rounded after every addition.  Rounding to the nearest number keeps the
order, so a sum of numbers that are not negative does not become smaller when some of its terms
become larger (`sumInOrder_le`).

The numbers that are not negative are counted by their ordinals.  The number with ordinal `o` is
`weight o` times the smallest one, and the ordinal of the number nearest to `n` times the smallest
one is `place n`.  Both keep the order, and addition is what they say (`Counted.add`): the ordinal of
a sum is the place of the two weights together, or infinity if that is farther out than infinity.
-/

set_option autoImplicit false

namespace ProductQuantization

open Float.Model (Format UnpackedFloat totalExponent)
open Float.Model.UnpackedFloat
open Rounding

/-! ## Rounding keeps the order -/

namespace Rounding

/-- A mantissa and what has been dropped from it, as one number. -/
def code (em : ExtendedMantissa) : Nat :=
  4 * em.mantissa + 2 * em.roundBit.toNat + em.stickyBit.toNat

theorem code_shiftRightOne (em : ExtendedMantissa) :
    code em.shiftRightOne = 2 * (code em / 4) + min (code em % 4) 1 := by
  obtain ⟨m, r, s⟩ := em
  have hbit : (m % 2 != 0).toNat = m % 2 := by
    rcases Nat.mod_two_eq_zero_or_one m with h | h <;> simp [h]
  simp only [code, ExtendedMantissa.shiftRightOne, hbit]
  cases r <;> cases s <;> simp <;> omega

theorem roundedMantissa_eq_code (em : ExtendedMantissa) :
    em.roundedMantissa = (code em + 1 + code em / 4 % 2) / 4 := by
  obtain ⟨m, r, s⟩ := em
  have hmantissa : code ⟨m, r, s⟩ / 4 = m := by
    cases r <;> cases s <;> simp [code] <;> omega
  rw [hmantissa]
  cases r <;> cases s <;>
    simp only [code, ExtendedMantissa.roundedMantissa, ExtendedMantissa.accuracy,
      Accuracy.roundToNearestEven, Bool.toNat_false, Bool.toNat_true] <;> omega

theorem roundedMantissa_le_of_code_le {em em' : ExtendedMantissa} (h : code em ≤ code em') :
    em.roundedMantissa ≤ em'.roundedMantissa := by
  rw [roundedMantissa_eq_code, roundedMantissa_eq_code]
  by_cases hmantissa : code em / 4 = code em' / 4
  · rw [hmantissa]
    exact Nat.div_le_div_right (by omega)
  · omega

theorem code_shiftRight_le {em em' : ExtendedMantissa} (h : code em ≤ code em') (n : Nat) :
    code (em >>> n) ≤ code (em' >>> n) := by
  induction n with
  | zero => exact h
  | succ n ih =>
    rw [shiftRight_succ, shiftRight_succ, code_shiftRightOne, code_shiftRightOne]
    omega

/-- **Dropping digits and rounding keeps the order.** -/
theorem roundedMantissa_le_of_le {m m' : Nat} (h : m ≤ m') (n : Nat) :
    ((⟨m, false, false⟩ : ExtendedMantissa) >>> n).roundedMantissa
      ≤ ((⟨m', false, false⟩ : ExtendedMantissa) >>> n).roundedMantissa := by
  have hcode : code ⟨m, false, false⟩ ≤ code ⟨m', false, false⟩ := by
    simp only [code, Bool.toNat_false]
    omega
  exact roundedMantissa_le_of_code_le (code_shiftRight_le hcode n)

theorem shiftRight_add (em : ExtendedMantissa) (a b : Nat) : em >>> (a + b) = (em >>> a) >>> b := by
  induction b with
  | zero => rfl
  | succ b ih => rw [← Nat.add_assoc, shiftRight_succ, ih, shiftRight_succ]

variable {format : Format}

theorem roundedDigits_of_log2_le {m : Nat} (h : m.log2 ≤ format.mantissaBitsWithoutImplicit) :
    roundedDigits format m = m := by
  rw [roundedDigits, Nat.sub_eq_zero_of_le h]
  rfl

/-- Zeros at the end do not count. -/
theorem roundedDigits_mul_two_pow {m : Nat} (hm : 0 < m)
    (h : format.mantissaBitsWithoutImplicit ≤ m.log2) (k : Nat) :
    roundedDigits format (m * 2 ^ k) = roundedDigits format m := by
  rw [roundedDigits, log2_mul_two_pow hm, Nat.sub_add_comm h, Nat.add_comm, shiftRight_add,
    shiftRight_exact]
  rfl

/-- Rounding up goes through to one more digit at most. -/
theorem roundedDigits_le (format : Format) (m : Nat) :
    roundedDigits format m ≤ 2 ^ (format.mantissaBitsWithoutImplicit + 1) := by
  have hlt : m < 2 ^ (m.log2 + 1) := Nat.lt_log2_self
  have hle : (⟨m, false, false⟩ : ExtendedMantissa).mantissa
      / 2 ^ (m.log2 - format.mantissaBitsWithoutImplicit)
        < 2 ^ (format.mantissaBitsWithoutImplicit + 1) := by
    rw [Nat.div_lt_iff_lt_mul (Nat.two_pow_pos _), ← Nat.pow_add]
    exact Nat.lt_of_lt_of_le hlt (Nat.pow_le_pow_right (by decide) (by omega))
  have hup := roundedMantissa_le ((⟨m, false, false⟩ : ExtendedMantissa)
    >>> (m.log2 - format.mantissaBitsWithoutImplicit))
  have hbit := Bool.toNat_le ((⟨m, false, false⟩ : ExtendedMantissa)
    >>> (m.log2 - format.mantissaBitsWithoutImplicit)).roundBit
  rw [mantissa_shiftRight] at hup
  rw [roundedDigits]
  omega

theorem add_carry {p r : Nat} (hlo : 2 ^ p ≤ r) (hhi : r ≤ 2 ^ (p + 1)) :
    (r.log2 - p) * 2 ^ p + r / 2 ^ (r.log2 - p) = r := by
  have hpos := Nat.two_pow_pos p
  rcases Nat.lt_or_eq_of_le hhi with hlt | rfl
  · have hlog : r.log2 = p := (Nat.log2_eq_iff (by omega)).2 ⟨hlo, hlt⟩
    rw [hlog, Nat.sub_self, Nat.zero_mul, Nat.zero_add, Nat.pow_zero, Nat.div_one]
  · rw [Nat.log2_two_pow, Nat.add_sub_cancel_left, Nat.one_mul, Nat.pow_succ]
    omega

end Rounding

namespace Unpacked

variable {format : Format}

/-! ## Places -/

/-- The ordinal of the number nearest to `n` times the smallest one. -/
def place (format : Format) (n : Nat) : Nat :=
  (n.log2 - format.mantissaBitsWithoutImplicit) * 2 ^ format.mantissaBitsWithoutImplicit
    + roundedDigits format n

theorem place_mono {n n' : Nat} (h : n ≤ n') : place format n ≤ place format n' := by
  have hlog : n.log2 ≤ n'.log2 := by
    rw [Nat.log2_eq_log_two, Nat.log2_eq_log_two]
    exact Nat.log_mono_right h
  by_cases hsame : n.log2 - format.mantissaBitsWithoutImplicit
      = n'.log2 - format.mantissaBitsWithoutImplicit
  · have hdigits : roundedDigits format n ≤ roundedDigits format n' := by
      rw [roundedDigits, roundedDigits, ← hsame]
      exact roundedMantissa_le_of_le h _
    rw [place, place, ← hsame]
    exact Nat.add_le_add_left hdigits _
  · -- where the exponent grows, the digits of the larger number make up for a carry
    have hstep : n.log2 - format.mantissaBitsWithoutImplicit + 1
        ≤ n'.log2 - format.mantissaBitsWithoutImplicit := by omega
    have hpos : 0 < n' := Nat.pos_of_ne_zero fun h0 => by
      rw [h0, Nat.log2_zero] at hstep
      omega
    have hfull : 2 ^ format.mantissaBitsWithoutImplicit ≤ roundedDigits format n' :=
      two_pow_le_roundedDigits hpos (by omega)
    have hcarry := roundedDigits_le format n
    rw [Nat.pow_succ] at hcarry
    calc place format n
        ≤ (n.log2 - format.mantissaBitsWithoutImplicit) * 2 ^ format.mantissaBitsWithoutImplicit
            + 2 ^ format.mantissaBitsWithoutImplicit * 2 := Nat.add_le_add_left hcarry _
      _ = (n.log2 - format.mantissaBitsWithoutImplicit + 1)
              * 2 ^ format.mantissaBitsWithoutImplicit
            + 2 ^ format.mantissaBitsWithoutImplicit := by ring
      _ ≤ place format n' := Nat.add_le_add (Nat.mul_le_mul_right _ hstep) hfull

/-- A number of the format has its own place. -/
theorem place_mul_two_pow {m k : Nat} (hlt : m < 2 ^ (format.mantissaBitsWithoutImplicit + 1))
    (hfull : k = 0 ∨ 2 ^ format.mantissaBitsWithoutImplicit ≤ m) :
    place format (m * 2 ^ k) = k * 2 ^ format.mantissaBitsWithoutImplicit + m := by
  by_cases hlarge : 2 ^ format.mantissaBitsWithoutImplicit ≤ m
  · have hpos : 0 < m := Nat.lt_of_lt_of_le (Nat.two_pow_pos _) hlarge
    have hlog : m.log2 = format.mantissaBitsWithoutImplicit :=
      (Nat.log2_eq_iff (Nat.ne_of_gt hpos)).2 ⟨hlarge, hlt⟩
    rw [place, roundedDigits_mul_two_pow hpos (Nat.le_of_eq hlog.symm),
      roundedDigits_of_log2_le (Nat.le_of_eq hlog), log2_mul_two_pow hpos, hlog,
      Nat.add_sub_cancel_left]
  · obtain rfl : k = 0 := hfull.resolve_right hlarge
    have hlog : m.log2 ≤ format.mantissaBitsWithoutImplicit := by
      by_cases hm : m = 0
      · rw [hm, Nat.log2_zero]
        exact Nat.zero_le _
      · exact Nat.le_of_lt ((Nat.log2_lt hm).2 (Nat.not_le.1 hlarge))
    rw [Nat.pow_zero, Nat.mul_one, place, Nat.sub_eq_zero_of_le hlog, roundedDigits_of_log2_le hlog]

/-- How often the smallest number goes into a number that is given by mantissa and exponent. -/
def units (format : Format) (m : Nat) (e : Int) : Nat := m * 2 ^ (e - format.minExponent).toNat

theorem units_add (m n : Nat) (e : Int) :
    units format (m + n) e = units format m e + units format n e := Nat.add_mul _ _ _

/-- Digits moved from the exponent into the mantissa. -/
theorem units_mul_two_pow {m : Nat} {e e' : Int} (he' : format.minExponent ≤ e') (hle : e' ≤ e) :
    units format (m * 2 ^ (e - e').toNat) e' = units format m e := by
  have hexponent : (e - format.minExponent).toNat
      = (e - e').toNat + (e' - format.minExponent).toNat := by omega
  rw [units, units, hexponent, Nat.pow_add, Nat.mul_assoc]

theorem place_units {m : Nat} {e : Int} (h : Kept format m e) :
    place format (units format m e) = magnitude format m e :=
  place_mul_two_pow h.lt (h.full.imp_left fun he => by omega)

/-- Rounding a number that has not too many digits. -/
theorem round_eq_of_targetExponent_le {m : Nat} {e : Int} (hm : 0 < m)
    (hexact : format.targetExponent (totalExponent m e) ≤ e) :
    ∃ (m' : Nat) (e' : Int) (hm' : 0 < m'), Kept format m' e' ∧
      UnpackedFloat.round format .positive m e = .finite .positive m' e' hm' ∧
      magnitude format m' e' = place format (units format m e) := by
  obtain ⟨n, hpos, hcanonical, hround⟩ := round_of_targetExponent_le hm .positive hexact
  have hlt : m * 2 ^ n < 2 ^ format.mantissaBits := by
    rw [← Nat.log2_lt (Nat.ne_of_gt hpos), Format.mantissaBits]
    rw [Canonical, Format.targetExponent, totalExponent, Format.mantissaBits] at hcanonical
    omega
  have hkept := kept_of_canonical hpos hcanonical hlt
  have hunits : units format (m * 2 ^ (e - (e - n)).toNat) (e - n) = units format m e :=
    units_mul_two_pow hkept.minExponent_le (by omega)
  rw [Int.sub_sub_self, Int.toNat_natCast] at hunits
  exact ⟨_, _, hpos, hkept, hround, by rw [← hunits, place_units hkept]⟩

/-- Rounding off the digits too many. -/
theorem round_eq_of_lt_targetExponent {m : Nat} {e : Int} (hm : 0 < m)
    (he : format.minExponent ≤ e) (hless : e < format.targetExponent (totalExponent m e)) :
    ∃ (m' : Nat) (e' : Int) (hm' : 0 < m'), Kept format m' e' ∧
      UnpackedFloat.round format .positive m e = .finite .positive m' e' hm' ∧
      magnitude format m' e' = place format (units format m e) := by
  have hmany : format.mantissaBitsWithoutImplicit ≤ m.log2 := by
    rw [Format.targetExponent, totalExponent, Format.mantissaBits] at hless
    omega
  obtain ⟨m', hm', hdigits, hlog, hround⟩ := roundWithAccuracy_of_le_log2 hm hmany he .positive
  obtain ⟨hlo, hhi⟩ := (Nat.log2_eq_iff (Nat.ne_of_gt hm')).1 hlog
  have hcarry := add_carry (two_pow_le_roundedDigits hm hmany) (roundedDigits_le format m)
  rw [round_of_le_targetExponent .positive (Int.le_of_lt hless)]
  refine ⟨m', _, hm', ⟨by omega, hhi, .inr hlo⟩, hround, ?_⟩
  obtain ⟨k, hk⟩ : ∃ k : Nat, e = format.minExponent + k :=
    ⟨(e - format.minExponent).toNat, by omega⟩
  subst hk
  have hexponent : (format.minExponent + k + (m.log2 - format.mantissaBitsWithoutImplicit : Nat)
      + ((roundedDigits format m).log2 - format.mantissaBitsWithoutImplicit : Nat)
      - format.minExponent).toNat = k + (m.log2 - format.mantissaBitsWithoutImplicit)
        + ((roundedDigits format m).log2 - format.mantissaBitsWithoutImplicit) := by omega
  have hunits : (format.minExponent + k - format.minExponent).toNat = k := by omega
  rw [magnitude, hexponent, units, hunits, place, roundedDigits_mul_two_pow hm hmany,
    log2_mul_two_pow hm, Nat.add_mul, Nat.add_assoc, hdigits, hcarry, Nat.add_comm k,
    Nat.sub_add_comm hmany]

/-- **Rounding is what `place` says.** -/
theorem round_eq {m : Nat} {e : Int} (hm : 0 < m) (he : format.minExponent ≤ e) :
    ∃ (m' : Nat) (e' : Int) (hm' : 0 < m'), Kept format m' e' ∧
      UnpackedFloat.round format .positive m e = .finite .positive m' e' hm' ∧
      magnitude format m' e' = place format (units format m e) := by
  by_cases hexact : format.targetExponent (totalExponent m e) ≤ e
  · exact round_eq_of_targetExponent_le hm hexact
  · exact round_eq_of_lt_targetExponent hm he (Int.not_le.1 hexact)

/-! ## Weights -/

/-- How often the smallest number goes into the one with ordinal `o`. -/
def weight (format : Format) (o : Nat) : Nat :=
  if o < 2 ^ format.mantissaBitsWithoutImplicit then o
  else (2 ^ format.mantissaBitsWithoutImplicit + o % 2 ^ format.mantissaBitsWithoutImplicit)
    * 2 ^ (o / 2 ^ format.mantissaBitsWithoutImplicit - 1)

/-- Every ordinal is the place of its weight. -/
theorem place_weight (format : Format) (o : Nat) : place format (weight format o) = o := by
  have hpos := Nat.two_pow_pos format.mantissaBitsWithoutImplicit
  have hmod := Nat.mod_lt o hpos
  by_cases ho : o < 2 ^ format.mantissaBitsWithoutImplicit
  · have hplace : place format (o * 2 ^ 0) = 0 * 2 ^ format.mantissaBitsWithoutImplicit + o :=
      place_mul_two_pow (by rw [Nat.pow_succ]; omega) (.inl rfl)
    rw [weight, if_pos ho]
    simpa using hplace
  · have hdiv : 0 < o / 2 ^ format.mantissaBitsWithoutImplicit :=
      Nat.div_pos (Nat.not_lt.1 ho) hpos
    have hsplit := Nat.div_add_mod' o (2 ^ format.mantissaBitsWithoutImplicit)
    rw [weight, if_neg ho, place_mul_two_pow (by rw [Nat.pow_succ]; omega)
      (.inr (Nat.le_add_right _ _)), ← Nat.add_assoc, ← Nat.succ_mul, Nat.succ_eq_add_one,
      Nat.sub_add_cancel hdiv, hsplit]

@[simp] theorem weight_zero (format : Format) : weight format 0 = 0 := if_pos (Nat.two_pow_pos _)

@[simp] theorem place_zero (format : Format) : place format 0 = 0 := by
  simpa using place_weight format 0

theorem weight_mono {o o' : Nat} (h : o ≤ o') : weight format o ≤ weight format o' := by
  by_contra hlt
  have hle : place format (weight format o') ≤ place format (weight format o) :=
    place_mono (Nat.le_of_not_le hlt)
  rw [place_weight, place_weight] at hle
  exact hlt (Nat.le_of_eq (congrArg (weight format) (Nat.le_antisymm h hle)))

theorem weight_magnitude {m : Nat} {e : Int} (h : Kept format m e) :
    weight format (magnitude format m e) = units format m e := by
  have hlt := h.lt
  rw [Nat.pow_succ] at hlt
  rw [weight, magnitude, units]
  by_cases hlarge : 2 ^ format.mantissaBitsWithoutImplicit ≤ m
  · obtain ⟨d, rfl⟩ := Nat.exists_eq_add_of_le hlarge
    have hd : d < 2 ^ format.mantissaBitsWithoutImplicit := by omega
    rw [if_neg (by omega), ← Nat.add_assoc, ← Nat.succ_mul, Nat.mul_add_mod_self_right,
      Nat.mod_eq_of_lt hd, Nat.mul_comm _ (2 ^ format.mantissaBitsWithoutImplicit),
      Nat.mul_add_div (Nat.two_pow_pos _), Nat.div_eq_of_lt hd]
    rfl
  · have he : e = format.minExponent := h.full.resolve_right hlarge
    simp [he, Nat.not_le.1 hlarge]

/-! ## Storing -/

/-- A number of the format is stored as it is. -/
theorem unpack_pack_kept {s : Sign} {m : Nat} {e : Int} {hm : 0 < m} (h : Kept format m e)
    (hstorable : Storable format e) :
    unpack format (pack format (.finite s m e hm)) = .finite s m e hm := by
  have hlo := h.minExponent_le
  rw [minExponent_eq] at hlo
  by_cases hlarge : 2 ^ format.mantissaBitsWithoutImplicit ≤ m
  · refine unpack_pack_normal ((Nat.log2_eq_iff (Nat.ne_of_gt hm)).2 ⟨hlarge, h.lt⟩) ?_ hstorable
    rw [storedExponent]
    omega
  · -- a subnormal number
    have hlt : m < 2 ^ format.mantissaBitsWithoutImplicit := Nat.not_le.1 hlarge
    have hfew : ¬ m.log2 + 1 = format.mantissaBits := by
      have hlog := (Nat.log2_lt (Nat.ne_of_gt hm)).2 hlt
      rw [Format.mantissaBits]
      omega
    have htoNat : (BitVec.ofNat format.mantissaBitsWithoutImplicit m).toNat = m := by
      rw [BitVec.toNat_ofNat, Nat.mod_eq_of_lt hlt]
    have hnonzero : ¬ BitVec.ofNat format.mantissaBitsWithoutImplicit m = 0#_ := by
      intro h0
      rw [h0, BitVec.toNat_zero] at htoNat
      omega
    have hzeros : ¬ BitVec.ofNat format.exponentBits 0 = -1#_ := by
      rw [BitVec.zero_eq_neg_one_iff]
      exact Nat.ne_of_gt format.he
    rw [pack_finite hstorable, if_neg hfew, unpack_packComponents, if_neg hzeros, if_pos rfl,
      dif_neg hnonzero]
    congr 1
    rw [h.full.resolve_right hlarge, minExponent_eq, BitVec.toNat_ofNat]
    simp only [Nat.zero_mod]
    push_cast
    omega

theorem top_le_magnitude (hformat : 2 ≤ format.exponentBits) {m : Nat} {e : Int}
    (h : Kept format m e) (hlarge : ¬ Storable format e) : top format ≤ magnitude format m e := by
  have hfour : 2 ^ 2 ≤ 2 ^ format.exponentBits := Nat.pow_le_pow_right (by decide) hformat
  have hmin : format.minExponent = _ := minExponent_eq
  rw [Storable, storedExponent, ← cast_two_pow] at hlarge
  have hfull : 2 ^ format.mantissaBitsWithoutImplicit ≤ m := h.full.resolve_left (by omega)
  have hstep : 2 ^ format.exponentBits - 2 ≤ (e - format.minExponent).toNat := by omega
  calc top format
      = (2 ^ format.exponentBits - 2 + 1) * 2 ^ format.mantissaBitsWithoutImplicit := by
        rw [top]
        congr 1
        omega
    _ ≤ magnitude format m e := by
        rw [Nat.succ_mul]
        exact Nat.add_le_add (Nat.mul_le_mul_right _ hstep) hfull

/-! ## Numbers that are not negative -/

/-- A number of the format that is not negative, and its ordinal. -/
inductive Counted (format : Format) : UnpackedFloat → Nat → Prop where
  | infinity : Counted format (.infinity .positive) (top format)
  | zero (s : Sign) : Counted format (.zero s) 0
  | finite {m : Nat} {e : Int} (hm : 0 < m) (hkept : Kept format m e)
      (hstorable : Storable format e) :
      Counted format (.finite .positive m e hm) (magnitude format m e)

section Counted

variable {u v : UnpackedFloat} {o o' : Nat}

theorem exists_counted (hu : NonNegative u) (hnumber : Stored format u) :
    ∃ o, Counted format u o := by
  have hnumber := hnumber hu.isNaN_eq
  cases hu with
  | infinity => exact ⟨_, .infinity⟩
  | zero s => exact ⟨_, .zero s⟩
  | finite hm =>
    cases hnumber with
    | finite _ _ hkept hstorable => exact ⟨_, .finite hm hkept hstorable⟩

theorem Counted.nonNegative (h : Counted format u o) : NonNegative u := by
  cases h with
  | infinity => exact .infinity
  | zero s => exact .zero s
  | finite hm _ _ => exact .finite hm

theorem Counted.isNaN_eq (h : Counted format u o) : u.isNaN = false := h.nonNegative.isNaN_eq

theorem Counted.ordinal_eq (h : Counted format u o) : ordinal format u = o := by cases h <;> rfl

theorem Counted.le_top (h : Counted format u o) : o ≤ top format := by
  cases h with
  | infinity => exact Nat.le_refl _
  | zero s => exact Nat.zero_le _
  | finite hm hkept hstorable => exact Nat.le_of_lt (magnitude_lt_top hkept hstorable)

/-- What is stored already is stored again as it is. -/
theorem Counted.stored (h : Counted format u o) : Counted format (unpack format (pack format u)) o := by
  cases h with
  | infinity =>
    show Counted format (unpack format (packedInfinity format .positive)) _
    rw [unpack_packedInfinity]
    exact .infinity
  | zero s =>
    show Counted format (unpack format (packedZero format s)) _
    rw [unpack_packedZero]
    exact .zero s
  | finite hm hkept hstorable =>
    rw [unpack_pack_kept hkept hstorable]
    exact .finite hm hkept hstorable

/-- A number with the digits of the format is stored as it is, or as infinity if it is farther
out. -/
theorem counted_kept (hformat : 2 ≤ format.exponentBits) {m : Nat} {e : Int} (hm : 0 < m)
    (hkept : Kept format m e) :
    Counted format (unpack format (pack format (.finite .positive m e hm)))
      (min (magnitude format m e) (top format)) := by
  by_cases hstorable : Storable format e
  · rw [unpack_pack_kept hkept hstorable,
      Nat.min_eq_left (Nat.le_of_lt (magnitude_lt_top hkept hstorable))]
    exact .finite hm hkept hstorable
  · rw [pack_eq_packedInfinity hstorable, unpack_packedInfinity,
      Nat.min_eq_right (top_le_magnitude hformat hkept hstorable)]
    exact .infinity

/-- A rounded number is stored at its place, or as infinity if that is farther out. -/
theorem counted_round (hformat : 2 ≤ format.exponentBits) {m : Nat} {e : Int} (hm : 0 < m)
    (he : format.minExponent ≤ e) :
    Counted format (unpack format (pack format (UnpackedFloat.round format .positive m e)))
      (min (place format (units format m e)) (top format)) := by
  obtain ⟨m', e', hm', hkept, hround, hplace⟩ := round_eq hm he
  rw [hround, ← hplace]
  exact counted_kept hformat hm' hkept

/-! ## Sums -/

/-- The ordinal of a sum. -/
def sumOrdinal (format : Format) (o o' : Nat) : Nat :=
  min (place format (weight format o + weight format o')) (top format)

theorem sumOrdinal_comm (format : Format) (o o' : Nat) :
    sumOrdinal format o o' = sumOrdinal format o' o := by
  rw [sumOrdinal, Nat.add_comm, sumOrdinal]

theorem sumOrdinal_mono {p p' : Nat} (h : o ≤ p) (h' : o' ≤ p') :
    sumOrdinal format o o' ≤ sumOrdinal format p p' :=
  min_le_min_right _ (place_mono (Nat.add_le_add (weight_mono h) (weight_mono h')))

theorem sumOrdinal_top (o : Nat) : sumOrdinal format (top format) o = top format := by
  refine Nat.min_eq_right ?_
  calc top format = place format (weight format (top format)) := (place_weight format _).symm
    _ ≤ place format (weight format (top format) + weight format o) :=
      place_mono (Nat.le_add_right _ _)

theorem sumOrdinal_zero (h : o ≤ top format) : sumOrdinal format 0 o = o := by
  rw [sumOrdinal, weight_zero, Nat.zero_add, place_weight, Nat.min_eq_left h]

/-- Only zeros add up to zero. -/
theorem sumOrdinal_eq_zero_iff (h : o ≤ top format) (h' : o' ≤ top format) :
    sumOrdinal format o o' = 0 ↔ o = 0 ∧ o' = 0 := by
  constructor
  · intro hsum
    have hle : sumOrdinal format 0 o ≤ sumOrdinal format o' o :=
      sumOrdinal_mono (Nat.zero_le _) (Nat.le_refl _)
    have hle' : sumOrdinal format 0 o' ≤ sumOrdinal format o o' :=
      sumOrdinal_mono (Nat.zero_le _) (Nat.le_refl _)
    rw [sumOrdinal_zero h, sumOrdinal_comm, hsum] at hle
    rw [sumOrdinal_zero h', hsum] at hle'
    exact ⟨Nat.le_zero.1 hle, Nat.le_zero.1 hle'⟩
  · rintro ⟨rfl, rfl⟩
    exact sumOrdinal_zero (Nat.zero_le _)

/-- Two positive numbers are added with the digits of the smaller exponent. -/
theorem add_finite {m m' : Nat} {e e' : Int} (hm : 0 < m) (hm' : 0 < m') :
    UnpackedFloat.add format (.finite .positive m e hm) (.finite .positive m' e' hm')
      = UnpackedFloat.round format .positive
        (m * 2 ^ (e - min e e').toNat + m' * 2 ^ (e' - min e e').toNat) (min e e') := by
  have hpos : 0 < m * 2 ^ (e - min e e').toNat + m' * 2 ^ (e' - min e e').toNat :=
    Nat.add_pos_left (Nat.mul_pos hm (Nat.two_pow_pos _)) _
  show UnpackedFloat.normalize format ((m <<< (e - min e e').toNat : Nat)
    + (m' <<< (e' - min e e').toNat : Nat)) (min e e') .positive = _
  rw [Nat.shiftLeft_eq, Nat.shiftLeft_eq, UnpackedFloat.normalize, ← Int.natCast_add,
    compare_gt_iff_gt.2 (Int.natCast_pos.2 hpos)]
  rfl

/-- **The ordinal of a sum** of numbers that are not negative. -/
theorem Counted.add (hformat : 2 ≤ format.exponentBits) (hu : Counted format u o)
    (hv : Counted format v o') :
    Counted format (unpack format (pack format (UnpackedFloat.add format u v)))
      (sumOrdinal format o o') := by
  have hle := hu.le_top
  have hle' := hv.le_top
  cases hu with
  | infinity =>
    rw [sumOrdinal_top]
    cases hv <;> exact Counted.infinity.stored
  | zero s =>
    rw [sumOrdinal_zero hle']
    cases hv with
    | infinity => exact Counted.infinity.stored
    | zero t => cases s <;> cases t <;> exact (Counted.zero _).stored
    | finite hm hkept hstorable => exact (Counted.finite hm hkept hstorable).stored
  | @finite m e hm hkept hstorable =>
    cases hv with
    | infinity =>
      rw [sumOrdinal_comm, sumOrdinal_top]
      exact Counted.infinity.stored
    | zero t =>
      rw [sumOrdinal_comm, sumOrdinal_zero hle]
      exact (Counted.finite hm hkept hstorable).stored
    | @finite m' e' hm' hkept' hstorable' =>
      have hlo := hkept.minExponent_le
      have hlo' := hkept'.minExponent_le
      have hmin : format.minExponent ≤ min e e' := by omega
      have hpos : 0 < m * 2 ^ (e - min e e').toNat + m' * 2 ^ (e' - min e e').toNat :=
        Nat.add_pos_left (Nat.mul_pos hm (Nat.two_pow_pos _)) _
      have hunits : units format (m * 2 ^ (e - min e e').toNat + m' * 2 ^ (e' - min e e').toNat)
          (min e e') = units format m e + units format m' e' := by
        rw [units_add, units_mul_two_pow hmin (by omega), units_mul_two_pow hmin (by omega)]
      rw [add_finite, sumOrdinal, weight_magnitude hkept, weight_magnitude hkept', ← hunits]
      exact counted_round hformat hpos hmin

/-! ## More digits -/

/-- The ordinal in double precision of a number in single precision. -/
def widenedOrdinal (o : Nat) : Nat :=
  if o = top .binary32 then top .binary64
  else min (place .binary64 (weight .binary32 o * 2 ^ 925)) (top .binary64)

theorem widenedOrdinal_mono (h : o ≤ o') (htop : o' ≤ top .binary32) :
    widenedOrdinal o ≤ widenedOrdinal o' := by
  rw [widenedOrdinal, widenedOrdinal]
  split
  · rw [if_pos (by omega)]
  · split
    · exact Nat.min_le_right _ _
    · exact min_le_min_right _ (place_mono (Nat.mul_le_mul_right _ (weight_mono h)))

/-- Only zero is widened to zero. -/
theorem widenedOrdinal_eq_zero_iff (h : o ≤ top .binary32) : widenedOrdinal o = 0 ↔ o = 0 := by
  constructor
  · intro hzero
    by_contra hne
    have hpos : 0 < widenedOrdinal 1 := by decide +kernel
    have hle := widenedOrdinal_mono (Nat.one_le_iff_ne_zero.2 hne) h
    omega
  · rintro rfl
    rw [widenedOrdinal, if_neg (Nat.ne_of_lt (top_pos _)), weight_zero, Nat.zero_mul, place_zero,
      Nat.zero_min]

theorem Counted.widen (h : Counted .binary32 u o) :
    Counted .binary64 (unpack .binary64 (pack .binary64 (regrain .binary64 u)))
      (widenedOrdinal o) := by
  cases h with
  | infinity =>
    rw [widenedOrdinal, if_pos rfl]
    exact Counted.infinity.stored
  | zero s =>
    rw [(widenedOrdinal_eq_zero_iff (Nat.zero_le _)).2 rfl]
    exact (Counted.zero s).stored
  | @finite m e hm hkept hstorable =>
    have hlo : -149 ≤ e := hkept.minExponent_le
    have hfinite := magnitude_lt_top hkept hstorable
    have hunits : weight .binary32 (magnitude .binary32 m e) * 2 ^ 925 = units .binary64 m e := by
      have hexponent : (e - Format.binary64.minExponent).toNat
          = (e - Format.binary32.minExponent).toNat + 925 := by
        show (e - -1074).toNat = (e - -149).toNat + 925
        omega
      rw [weight_magnitude hkept, units, units, hexponent, Nat.pow_add, Nat.mul_assoc]
    rw [widenedOrdinal, if_neg (Nat.ne_of_lt hfinite), hunits]
    exact counted_round (by decide) hm (show -1074 ≤ e by omega)

end Counted
end Unpacked

/-! ## Sums of stored numbers -/

/-- A double-precision number that is not negative; either zero is one. -/
def NonNegative64 (x : Float) : Prop := Unpacked.NonNegative x.toModel.unpack

section Sums

open Unpacked (Counted)

variable {x x' y y' : Float}

/-- Of numbers that are not negative the ordinals are natural numbers. -/
theorem le_iff_of_counted {o o' : Nat} (hx : Counted .binary64 x.toModel.unpack o)
    (hy : Counted .binary64 y.toModel.unpack o') : x ≤ y ↔ o ≤ o' := by
  rw [le_iff_ordinal64, ordinal64, ordinal64, hx.ordinal_eq, hy.ordinal_eq, Int.ofNat_le]
  exact ⟨fun h => h.2.2, fun h => ⟨hx.isNaN_eq, hy.isNaN_eq, h⟩⟩

theorem counted_add {o o' : Nat} (hx : Counted .binary64 x.toModel.unpack o)
    (hy : Counted .binary64 y.toModel.unpack o') :
    Counted .binary64 (x + y).toModel.unpack (Unpacked.sumOrdinal .binary64 o o') :=
  Counted.add (by decide) hx hy

theorem counted_widen {d : Float32} {o : Nat} (hd : Counted .binary32 d.toModel.unpack o) :
    Counted .binary64 (widen d).toModel.unpack (Unpacked.widenedOrdinal o) := Counted.widen hd

/-- **Larger terms give larger sums.** -/
theorem NonNegative64.add_le_add (hx : NonNegative64 x) (hx' : NonNegative64 x')
    (hy : NonNegative64 y) (hy' : NonNegative64 y') (h : x ≤ x') (h' : y ≤ y') :
    x + y ≤ x' + y' := by
  obtain ⟨_, hx⟩ := Unpacked.exists_counted hx (stored64 x)
  obtain ⟨_, hx'⟩ := Unpacked.exists_counted hx' (stored64 x')
  obtain ⟨_, hy⟩ := Unpacked.exists_counted hy (stored64 y)
  obtain ⟨_, hy'⟩ := Unpacked.exists_counted hy' (stored64 y')
  rw [le_iff_of_counted hx hx'] at h
  rw [le_iff_of_counted hy hy'] at h'
  rw [le_iff_of_counted (counted_add hx hy) (counted_add hx' hy')]
  exact Unpacked.sumOrdinal_mono h h'

theorem NonNegative64.add (hx : NonNegative64 x) (hy : NonNegative64 y) : NonNegative64 (x + y) :=
  Unpacked.NonNegative.stored (Unpacked.NonNegative.add hx hy)

theorem NonNegative64.isNaN_eq {x : Float} (h : NonNegative64 x) : x.isNaN = false :=
  Unpacked.NonNegative.isNaN_eq h

theorem NonNegative64.ordinal_nonneg {x : Float} (h : NonNegative64 x) : 0 ≤ ordinal64 x :=
  Unpacked.NonNegative.ordinal_nonneg h

theorem NonNegative64.mul (hx : NonNegative64 x) (hy : NonNegative64 y)
    (h : (x * y).isNaN = false) : NonNegative64 (x * y) := by
  have hmul : (UnpackedFloat.mul .binary64 x.toModel.unpack y.toModel.unpack).isNaN = false :=
    (isNaN_unpack_pack _).symm.trans h
  exact Unpacked.NonNegative.stored (Unpacked.NonNegative.mul hx hy hmul)

theorem nonNegative64_mul_self (hx : x.isNaN = false) : NonNegative64 (x * x) :=
  Unpacked.NonNegative.stored (Unpacked.nonNegative_mul_self hx)

/-- A number that is not negative is finite, or it is infinity. -/
theorem NonNegative64.isFinite_or (h : NonNegative64 x) :
    x.isFinite = true ∨ x.toModel.unpack = .infinity .positive := by
  have hunpack : Unpacked.NonNegative x.toModel.unpack := h
  show x.toModel.unpack.isFinite = true ∨ _
  generalize x.toModel.unpack = u at hunpack ⊢
  cases hunpack with
  | infinity => exact .inr rfl
  | zero s => exact .inl rfl
  | finite hm => exact .inl rfl

/-- A sum is a number only if both terms are. -/
theorem isNaN_of_add (h : (x + y).isNaN = false) : x.isNaN = false ∧ y.isNaN = false := by
  have hadd : (UnpackedFloat.add .binary64 x.toModel.unpack y.toModel.unpack).isNaN = false :=
    (isNaN_unpack_pack _).symm.trans h
  show x.toModel.unpack.isNaN = false ∧ y.toModel.unpack.isNaN = false
  generalize x.toModel.unpack = u at hadd ⊢
  generalize y.toModel.unpack = v at hadd ⊢
  cases u with
  | notANumber => cases hadd
  | infinity s => cases v <;> first | exact ⟨rfl, rfl⟩ | cases hadd
  | zero s => cases v <;> first | exact ⟨rfl, rfl⟩ | cases hadd
  | finite s m e hm => cases v <;> first | exact ⟨rfl, rfl⟩ | cases hadd

/-- A product is not a number if its first factor is none. -/
theorem isNaN_of_mul (h : (x * y).isNaN = false) : x.isNaN = false := by
  have hmul : (UnpackedFloat.mul .binary64 x.toModel.unpack y.toModel.unpack).isNaN = false :=
    (isNaN_unpack_pack _).symm.trans h
  show x.toModel.unpack.isNaN = false
  cases hx : x.toModel.unpack with
  | notANumber =>
    rw [hx] at hmul
    cases hmul
  | _ => rfl

theorem nonNegative64_ofNat {n : Nat} (hn : 0 < n) : NonNegative64 (Float.ofNat n) := by
  obtain ⟨m, e, -, -, -, hunpack⟩ := unpack_ofNat hn
  rw [NonNegative64, hunpack]
  exact Unpacked.NonNegative.stored (Unpacked.nonNegative_roundWithAccuracy _ _ _)

theorem nonNegative64_sumInOrder {xs : List Float} (h : ∀ x ∈ xs, NonNegative64 x) :
    NonNegative64 (sumInOrder xs) :=
  List.foldlRecOn xs _ (.zero .negative) fun _ hb x hx => hb.add (h x hx)

theorem nonNegative64_widen {d : Float32} (hd : Unpacked.NonNegative d.toModel.unpack) :
    NonNegative64 (widen d) := by
  obtain ⟨_, hd⟩ := Unpacked.exists_counted hd (stored32 d)
  exact (counted_widen hd).nonNegative

/-- Widening keeps the order. -/
theorem widen_le_widen {d d' : Float32} (hd : Unpacked.NonNegative d.toModel.unpack)
    (hd' : Unpacked.NonNegative d'.toModel.unpack) (h : d ≤ d') : widen d ≤ widen d' := by
  obtain ⟨_, hd⟩ := Unpacked.exists_counted hd (stored32 d)
  obtain ⟨_, hd'⟩ := Unpacked.exists_counted hd' (stored32 d')
  rw [le_iff_ordinal32, ordinal32, ordinal32, hd.ordinal_eq, hd'.ordinal_eq, Int.ofNat_le] at h
  rw [le_iff_of_counted (counted_widen hd) (counted_widen hd')]
  exact Unpacked.widenedOrdinal_mono h.2.2 hd'.le_top

/-- Two numbers that are not negative, the first not above the second. -/
structure NonNegativeLE (x y : Float) : Prop where
  left : NonNegative64 x
  right : NonNegative64 y
  le : x ≤ y

/-- **In a sum over numbers that are not negative, larger terms give a larger sum**, whatever is
rounded off on the way. -/
theorem sumInOrder_le {xs ys : List Float} (h : List.Forall₂ NonNegativeLE xs ys) :
    sumInOrder xs ≤ sumInOrder ys := by
  have hrun : ∀ {a b : Float}, NonNegativeLE a b →
      NonNegativeLE (xs.foldl (· + ·) a) (ys.foldl (· + ·) b) := by
    induction h with
    | nil => exact fun hab => hab
    | cons hxy _ ih =>
      intro a b hab
      exact ih ⟨hab.left.add hxy.left, hab.right.add hxy.right,
        hab.left.add_le_add hab.right hxy.left hxy.right hab.le hxy.le⟩
  have hstart : NonNegativeLE (-0.0) (-0.0) := ⟨.zero .negative, .zero .negative, by decide⟩
  exact (hrun hstart).le

/-! ### Sums that are zero -/

theorem beq_zero_iff_of_counted {o : Nat} (hx : Counted .binary64 x.toModel.unpack o) :
    (x == 0.0) = true ↔ o = 0 := by
  have hzero : ordinal64 0.0 = 0 := rfl
  rw [beq_iff_ordinal64, ordinal64, hx.ordinal_eq, hzero, Int.natCast_eq_zero]
  exact ⟨fun h => h.2.2, fun h => ⟨hx.isNaN_eq, rfl, h⟩⟩

theorem NonNegative64.add_beq_zero_iff (hx : NonNegative64 x) (hy : NonNegative64 y) :
    (x + y == 0.0) = true ↔ (x == 0.0) = true ∧ (y == 0.0) = true := by
  obtain ⟨_, hx⟩ := Unpacked.exists_counted hx (stored64 x)
  obtain ⟨_, hy⟩ := Unpacked.exists_counted hy (stored64 y)
  rw [beq_zero_iff_of_counted hx, beq_zero_iff_of_counted hy,
    beq_zero_iff_of_counted (counted_add hx hy)]
  exact Unpacked.sumOrdinal_eq_zero_iff hx.le_top hy.le_top

/-- Only zero is not above zero, and only zero is widened to zero. -/
theorem widen_beq_zero_iff {d : Float32} (hd : Unpacked.NonNegative d.toModel.unpack) :
    (widen d == 0.0) = true ↔ ¬ 0 < d := by
  obtain ⟨o, hd⟩ := Unpacked.exists_counted hd (stored32 d)
  rw [beq_zero_iff_of_counted (counted_widen hd), Unpacked.widenedOrdinal_eq_zero_iff hd.le_top,
    lt_iff_ordinal32]
  constructor
  · rintro rfl ⟨-, -, hlt⟩
    rw [ordinal32, ordinal32, hd.ordinal_eq] at hlt
    exact absurd hlt (Int.lt_irrefl 0)
  · intro hnot
    by_contra hne
    refine hnot ⟨rfl, hd.isNaN_eq, ?_⟩
    rw [ordinal32, ordinal32, hd.ordinal_eq]
    exact Int.natCast_pos.2 (Nat.pos_of_ne_zero hne)

/-- **A sum over numbers that are not negative is zero only if all of them are**, whatever is
rounded off on the way. -/
theorem sumInOrder_beq_zero_iff {xs : List Float} (h : ∀ x ∈ xs, NonNegative64 x) :
    (sumInOrder xs == 0.0) = true ↔ ∀ x ∈ xs, (x == 0.0) = true := by
  have hrun : ∀ {a : Float}, NonNegative64 a →
      ((xs.foldl (· + ·) a == 0.0) = true ↔ (a == 0.0) = true ∧ ∀ x ∈ xs, (x == 0.0) = true) := by
    induction xs with
    | nil => simp
    | cons x xs ih =>
      intro a ha
      obtain ⟨hx, hxs⟩ := List.forall_mem_cons.1 h
      rw [List.foldl_cons, ih hxs (ha.add hx), ha.add_beq_zero_iff hx, List.forall_mem_cons,
        and_assoc]
  have hstart : NonNegative64 (-0.0) := .zero .negative
  have hzero : ((-0.0 : Float) == 0.0) = true := by decide
  exact (hrun hstart).trans (and_iff_right hzero)

end Sums

/-! ## Sizes and signs -/

namespace Unpacked

variable {format : Format} {u : UnpackedFloat}

/-- Numbers of the format are stored as they are. -/
theorem unpack_pack_stored (h : Stored format u) : unpack format (pack format u) = u := by
  cases u with
  | notANumber => exact unpack_packedNaN
  | infinity s => exact unpack_packedInfinity s
  | zero s => exact unpack_packedZero
  | finite s m e hm =>
    cases h rfl with
    | finite _ _ hkept hstorable => exact unpack_pack_kept hkept hstorable

theorem Number.abs (h : Number format u) : Number format u.abs := by
  cases h with
  | infinity s => exact .infinity .positive
  | zero s => exact .zero .positive
  | finite s hm hkept hstorable => exact .finite .positive hm hkept hstorable

theorem Number.neg (h : Number format u) : Number format u.neg := by
  cases h with
  | infinity s => exact .infinity (-s)
  | zero s => exact .zero (-s)
  | finite s hm hkept hstorable => exact .finite (-s) hm hkept hstorable

theorem isNaN_abs (u : UnpackedFloat) : u.abs.isNaN = u.isNaN := by
  cases u <;> rfl

theorem isNaN_neg (u : UnpackedFloat) : u.neg.isNaN = u.isNaN := by
  cases u <;> rfl

end Unpacked

section Sizes

variable {x : Float}

theorem unpack_abs (x : Float) : x.abs.toModel.unpack = x.toModel.unpack.abs :=
  Unpacked.unpack_pack_stored fun h => (stored64 x ((Unpacked.isNaN_abs _).symm.trans h)).abs

theorem unpack_neg (x : Float) : (-x).toModel.unpack = x.toModel.unpack.neg :=
  Unpacked.unpack_pack_stored fun h => (stored64 x ((Unpacked.isNaN_neg _).symm.trans h)).neg

theorem isNaN_abs64 (x : Float) : x.abs.isNaN = x.isNaN :=
  (congrArg UnpackedFloat.isNaN (unpack_abs x)).trans (Unpacked.isNaN_abs _)

theorem nonNegative64_abs (hx : x.isNaN = false) : NonNegative64 x.abs := by
  have hnan : x.toModel.unpack.isNaN = false := hx
  rw [NonNegative64, unpack_abs]
  cases hunpack : x.toModel.unpack with
  | notANumber => rw [hunpack] at hnan; cases hnan
  | infinity s => exact .infinity
  | zero s => exact .zero .positive
  | finite s m e hm => exact .finite hm

end Sizes
end ProductQuantization
