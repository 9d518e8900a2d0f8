import Mathlib.Data.Nat.Sqrt
import ProductQuantization.Proofs.Number.Neutral
import ProductQuantization.Proofs.Number.Rounded

/-!
# The root of a square

A number is squared, rounded, and the root of that is taken and rounded again.  If the square is in
the range in which the format has all digits, that gives back the size of the number, exactly
(`sqrt_mul_self`): the square is off by half a unit of its last place at most, which is less than the
distance to the next square.

Where the square is too small to have all digits the root is off, but by no more than a factor of
two or so, and the quotient of the number by the root is of the size of one
(`nearUnit_div_sqrt`).  Of such a quotient the first statement is true.
-/

set_option autoImplicit false

namespace ProductQuantization

open Float.Model (Format UnpackedFloat totalExponent)
open Float.Model.UnpackedFloat

namespace Rounding

/-! ## Rounding to the nearest -/

/-- What the two bits say about the digits that have been cut off. -/
theorem exists_remainder (m n : Nat) : ∃ rem, rem < 2 ^ n ∧
    m = ((⟨m, false, false⟩ : ExtendedMantissa) >>> n).mantissa * 2 ^ n + rem ∧
    ((⟨m, false, false⟩ : ExtendedMantissa) >>> n).roundBit = decide (2 ^ n ≤ 2 * rem) ∧
    ((⟨m, false, false⟩ : ExtendedMantissa) >>> n).stickyBit
      = decide (rem ≠ 0 ∧ 2 * rem ≠ 2 ^ n) := by
  induction n with
  | zero => exact ⟨0, by decide, by simp [shiftRight_zero], by simp [shiftRight_zero]⟩
  | succ n ih =>
    obtain ⟨rem, hlt, hm, hround, hsticky⟩ := ih
    rw [shiftRight_succ]
    generalize (⟨m, false, false⟩ : ExtendedMantissa) >>> n = em at hm hround hsticky ⊢
    obtain ⟨d, hd⟩ : ∃ d, em.mantissa = 2 * (em.mantissa / 2) + d ∧ d < 2 :=
      ⟨em.mantissa % 2, by omega⟩
    have hpow : 2 ^ (n + 1) = 2 * 2 ^ n := by rw [Nat.pow_succ, Nat.mul_comm]
    have hmod : em.mantissa % 2 = d := by omega
    refine ⟨d * 2 ^ n + rem, ?_, ?_, ?_, ?_⟩
    · rw [hpow]
      obtain rfl | rfl : d = 0 ∨ d = 1 := by omega
      all_goals omega
    · conv_lhs => rw [hm, hd.1]
      simp only [ExtendedMantissa.shiftRightOne, hpow]
      ring
    · simp only [ExtendedMantissa.shiftRightOne, hmod, hpow]
      obtain rfl | rfl : d = 0 ∨ d = 1 := by omega
      · simp
        omega
      · simp
    · simp only [ExtendedMantissa.shiftRightOne, hround, hsticky, hpow]
      rw [← Bool.decide_or, decide_eq_decide]
      obtain rfl | rfl : d = 0 ∨ d = 1 := by omega
      · omega
      · omega

/-- **What is left is off by half a unit at most.** -/
theorem digitsLeft_near (m n : Nat) :
    2 * (digitsLeft m .exact n * 2 ^ n) ≤ 2 * m + 2 ^ n ∧
      2 * m ≤ 2 * (digitsLeft m .exact n * 2 ^ n) + 2 ^ n := by
  obtain ⟨rem, hlt, hm, hround, hsticky⟩ := exists_remainder m n
  have hdigits : digitsLeft m .exact n
      = ((⟨m, false, false⟩ : ExtendedMantissa) >>> n).roundedMantissa := rfl
  rw [hdigits]
  generalize (⟨m, false, false⟩ : ExtendedMantissa) >>> n = em at hm hround hsticky ⊢
  obtain ⟨d, r, b⟩ := em
  dsimp only at hm hround hsticky
  have hup : (d + 1) * 2 ^ n = d * 2 ^ n + 2 ^ n := Nat.succ_mul _ _
  cases r <;> cases b <;>
    simp only [ExtendedMantissa.roundedMantissa, ExtendedMantissa.accuracy,
      Accuracy.roundToNearestEven] <;>
    simp only [eq_comm (a := false), eq_comm (a := true), decide_eq_false_iff_not,
      decide_eq_true_eq] at hround hsticky
  · omega
  · omega
  · rcases Nat.mod_two_eq_zero_or_one d with h | h <;> rw [h]
    · rw [Nat.add_zero]
      omega
    · omega
  · omega

/-! ## Squares -/

theorem log2_mul_self {m : Nat} (hm : 0 < m) :
    2 * m.log2 ≤ (m * m).log2 ∧ (m * m).log2 ≤ 2 * m.log2 + 1 := by
  have hne : m ≠ 0 := Nat.ne_of_gt hm
  have hsq : m * m ≠ 0 := Nat.mul_ne_zero hne hne
  have hlo : 2 ^ m.log2 * 2 ^ m.log2 ≤ m * m :=
    Nat.mul_le_mul (Nat.log2_self_le hne) (Nat.log2_self_le hne)
  have hhi : m * m < 2 ^ (m.log2 + 1) * 2 ^ (m.log2 + 1) :=
    Nat.mul_lt_mul'' Nat.lt_log2_self Nat.lt_log2_self
  rw [← Nat.pow_add] at hlo hhi
  refine ⟨?_, ?_⟩
  · rw [Nat.le_log2 hsq]
    exact Nat.le_trans (Nat.pow_le_pow_right (by decide) (by omega)) hlo
  · refine Nat.le_of_lt_succ ((Nat.log2_lt hsq).2 (Nat.lt_of_lt_of_le hhi ?_))
    exact Nat.pow_le_pow_right (by decide) (by omega)

theorem log2_sqrt {n : Nat} (hn : 0 < n) : n.sqrt.log2 = n.log2 / 2 := by
  have hlo : 2 ^ (n.log2 / 2) ≤ n.sqrt := by
    rw [Nat.le_sqrt, ← Nat.pow_add]
    exact Nat.le_trans (Nat.pow_le_pow_right (by decide) (by omega))
      (Nat.log2_self_le (Nat.ne_of_gt hn))
  have hhi : n.sqrt < 2 ^ (n.log2 / 2 + 1) := by
    rw [Nat.sqrt_lt, ← Nat.pow_add]
    exact Nat.lt_of_lt_of_le Nat.lt_log2_self (Nat.pow_le_pow_right (by decide) (by omega))
  have hne : n.sqrt ≠ 0 := Nat.ne_of_gt (Nat.lt_of_lt_of_le (Nat.two_pow_pos _) hlo)
  exact (Nat.log2_eq_iff hne).2 ⟨hlo, hhi⟩

/-- A number that differs from the square of `m` by less than `m` has `m` for its nearest root. -/
theorem sqrt_near {m n : Nat} (hm : 0 < m) (hlo : m * m < n + m) (hhi : n ≤ m * m + m) :
    (n.sqrt = m ∧ n - n.sqrt * n.sqrt ≤ n.sqrt) ∨
      (n.sqrt = m - 1 ∧ n.sqrt < n - n.sqrt * n.sqrt) := by
  have hup : (m + 1) * (m + 1) = m * m + m + m + 1 := by ring
  by_cases hle : m * m ≤ n
  · have hsqrt : n.sqrt = m := (Nat.eq_sqrt.2 ⟨hle, by omega⟩).symm
    rw [hsqrt]
    exact .inl ⟨rfl, by omega⟩
  · obtain ⟨k, rfl⟩ : ∃ k, m = k + 1 := ⟨m - 1, by omega⟩
    have hdown : (k + 1) * (k + 1) = k * k + k + k + 1 := by ring
    have hsqrt : n.sqrt = k := (Nat.eq_sqrt.2 ⟨by omega, by omega⟩).symm
    rw [hsqrt]
    exact .inr ⟨rfl, by omega⟩

/-! ## Double precision -/

section Binary64

variable {m : Nat} {e : Int}

theorem cut_binary64 (m : Nat) (e : Int) : cut .binary64 m e = max (m.log2 + e - 52) (-1074) :=
  cut_eq .binary64 m e

theorem targetExponent_sqrt_square {d j : Nat} (hlogd : d.log2 = 52) (hj : j = 52 ∨ j = 53)
    (he : -1074 ≤ e) :
    min ((e + e + j).ediv 2) (Format.binary64.targetExponent ((totalExponent d (e + e + j) + 1).ediv 2))
      = e := by
  have hmin : Format.binary64.minExponent = -1074 := rfl
  have hbits : (Format.binary64.mantissaBits : Int) = 53 := rfl
  have hdiv : ((52 : Nat) + 1 + (e + e + j) + 1 : Int).ediv 2 = e + 53 := by
    show ((52 : Nat) + 1 + (e + e + j) + 1 : Int) / 2 = e + 53
    omega
  rw [Format.targetExponent, totalExponent, hlogd, hdiv, hmin, hbits]
  show min ((e + e + j) / 2) (max (e + 53 - 53) (-1074)) = e
  omega

/-- What is cut off of a root decides between its digits and the next number. -/
theorem roundWithAccuracy_of_digits {k : Nat} {a : Accuracy} (hk : k.log2 = 52) (he : -1074 ≤ e)
    (hm : 0 < m) (hlog : m.log2 = 52) (ha : a.roundToNearestEven k = m) :
    roundWithAccuracy .binary64 .positive k e a = .finite .positive m e hm := by
  have hcut : cut .binary64 k e = e := by
    rw [cut_binary64]
    omega
  have hrounded := rounded_roundWithAccuracy (s := .positive) (Int.le_of_eq hcut.symm) a
  rw [hcut, Int.sub_self, Int.toNat_zero, digitsLeft_zero, ha] at hrounded
  have hlt : m < 2 ^ (m.log2 + 1) := Nat.lt_log2_self
  rw [hlog] at hlt
  generalize roundWithAccuracy .binary64 .positive k e a = u at hrounded ⊢
  cases hrounded with
  | zero => exact absurd hm (Nat.lt_irrefl 0)
  | digits _ _ => rfl
  | carry => exact absurd hlt (Nat.lt_irrefl _)

/-- A number below a square that is near it is not below the square of a power of two. -/
theorem two_pow_lt_of_sqrt_lt {d j : Nat} (hj : j = 52 ∨ j = 53) (hm : 0 < m) (hlog : m.log2 = 52)
    (hlo : m * m < d * 2 ^ j + m) (hsqrt : (d * 2 ^ j).sqrt = m - 1) : 2 ^ 52 < m := by
  have hfull : 2 ^ 52 ≤ m := hlog ▸ Nat.log2_self_le (Nat.ne_of_gt hm)
  refine Nat.lt_of_le_of_ne hfull fun hpow => ?_
  obtain ⟨c, hc⟩ : ∃ c, d * 2 ^ j = c * m := by
    obtain ⟨i, hi⟩ : ∃ i, j = i + 52 := ⟨j - 52, by omega⟩
    exact ⟨d * 2 ^ i, by rw [hi, Nat.pow_add, hpow, Nat.mul_assoc]⟩
  have hle : m ≤ c := by
    rw [hc, ← Nat.succ_mul] at hlo
    exact Nat.le_of_lt_succ (Nat.lt_of_mul_lt_mul_right hlo)
  have hroot := Nat.le_sqrt.2 (hc ▸ Nat.mul_le_mul_right m hle)
  omega

/-- The root of a number that is near a square. -/
theorem sqrt_of_near {d j : Nat} (hd : 0 < d) (hlogd : d.log2 = 52) (hj : j = 52 ∨ j = 53)
    (hm : 0 < m) (hlog : m.log2 = 52) (he : -1074 ≤ e) (hlo : m * m < d * 2 ^ j + m)
    (hhi : d * 2 ^ j ≤ m * m + m) :
    UnpackedFloat.sqrt .binary64 (.finite .positive d (e + e + j) hd)
      = .finite .positive m e hm := by
  have hshift : (e + e + j - 2 * e).toNat = j := by omega
  have hcore : sqrtCore .binary64 d (e + e + j) = ((d * 2 ^ j).sqrt, e,
      if d * 2 ^ j - (d * 2 ^ j).sqrt * (d * 2 ^ j).sqrt = 0 then .exact
      else .inexact (if d * 2 ^ j - (d * 2 ^ j).sqrt * (d * 2 ^ j).sqrt ≤ (d * 2 ^ j).sqrt
        then .lt else .gt)) := by
    rw [sqrtCore, targetExponent_sqrt_square hlogd hj he, hshift, Nat.shiftLeft_eq]
  rw [UnpackedFloat.sqrt, hcore]
  dsimp only
  rcases sqrt_near hm hlo hhi with ⟨hsqrt, hrem⟩ | ⟨hsqrt, hrem⟩
  · rw [if_pos hrem, hsqrt]
    split
    · exact roundWithAccuracy_of_digits hlog he hm hlog rfl
    · exact roundWithAccuracy_of_digits hlog he hm hlog rfl
  · have hmore := two_pow_lt_of_sqrt_lt hj hm hlog hlo hsqrt
    have hlt : m < 2 ^ (m.log2 + 1) := Nat.lt_log2_self
    rw [hlog] at hlt
    have hlog' : (m - 1).log2 = 52 := (Nat.log2_eq_iff (by omega)).2 ⟨by omega, by omega⟩
    rw [if_neg (by omega), if_neg (Nat.not_le.2 hrem), hsqrt]
    exact roundWithAccuracy_of_digits hlog' he hm hlog (Nat.sub_add_cancel hm)

/-- The digits that are left of a square are near it. -/
theorem digitsLeft_mul_self_near {n : Nat} (hm : 0 < m) (hlog : m.log2 = 52)
    (hn : (m * m).log2 = n + 52) :
    m * m < digitsLeft (m * m) .exact n * 2 ^ n + m ∧
      digitsLeft (m * m) .exact n * 2 ^ n ≤ m * m + m := by
  have hfull : 2 ^ 52 ≤ m := hlog ▸ Nat.log2_self_le (Nat.ne_of_gt hm)
  obtain ⟨hL, hL'⟩ := log2_mul_self hm
  obtain ⟨hdown, hup⟩ := digitsLeft_near (m * m) n
  obtain rfl | rfl : n = 52 ∨ n = 53 := by omega
  · exact ⟨by omega, by omega⟩
  · have hmore : 2 ^ 52 < m := by
      have hsquare := Nat.log2_self_le (Nat.mul_pos hm hm).ne'
      rw [hn] at hsquare
      refine Nat.lt_of_le_of_ne hfull fun hpow => ?_
      rw [← hpow] at hsquare
      exact absurd hsquare (by decide)
    exact ⟨by omega, by omega⟩

/-- A square that is large enough to have all its digits. -/
theorem exists_square (hm : 0 < m) (hlog : m.log2 = 52) (he : -563 ≤ e) :
    ∃ (d j : Nat) (hd : 0 < d), d.log2 = 52 ∧ (j = 52 ∨ j = 53) ∧ m * m < d * 2 ^ j + m ∧
      d * 2 ^ j ≤ m * m + m ∧
      roundWithAccuracy .binary64 .positive (m * m) (e + e) .exact
        = .finite .positive d (e + e + j) hd := by
  obtain ⟨hL, hL'⟩ := log2_mul_self hm
  obtain ⟨n, hn⟩ : ∃ n, (m * m).log2 = n + 52 := ⟨(m * m).log2 - 52, by omega⟩
  have hn' : n = 52 ∨ n = 53 := by omega
  have hcut : cut .binary64 (m * m) (e + e) = e + e + n := by
    rw [cut_binary64]
    omega
  have hcount : (e + e + n - (e + e)).toNat = n := by omega
  have hrounded := rounded_roundWithAccuracy (s := .positive) (a := .exact)
    (show e + e ≤ cut .binary64 (m * m) (e + e) by omega)
  rw [hcut, hcount] at hrounded
  obtain ⟨hlogr, -⟩ := log2_digitsLeft (Nat.mul_pos hm hm) (n := n) (by omega) .exact
  obtain ⟨hlow, hhigh⟩ := digitsLeft_mul_self_near hm hlog hn
  generalize digitsLeft (m * m) .exact n = r at *
  generalize roundWithAccuracy .binary64 .positive (m * m) (e + e) .exact = u at hrounded ⊢
  cases hrounded with
  | zero =>
    rw [Nat.log2_zero] at hlogr
    omega
  | digits hr hlt =>
    have hlog : r.log2 < 53 := (Nat.log2_lt (Nat.ne_of_gt hr)).2 hlt
    exact ⟨r, n, hr, by omega, hn', hlow, hhigh, rfl⟩
  | carry =>
    have hpow : 2 ^ (52 + 1) * 2 ^ n = 2 ^ 52 * 2 ^ (n + 1) := by
      rw [← Nat.pow_add, ← Nat.pow_add]
      congr 1
      omega
    have hplace : e + e + (n : Int) + 1 = e + e + (n + 1 : Nat) := by omega
    rw [hplace]
    refine ⟨2 ^ 52, n + 1, Nat.two_pow_pos 52, Nat.log2_two_pow, ?_, hpow ▸ hlow, hpow ▸ hhigh, rfl⟩
    -- a square with the larger number of places is too small for a carry
    obtain rfl | rfl := hn'
    · exact .inr rfl
    · have hlt : m < 2 ^ (m.log2 + 1) := Nat.lt_log2_self
      rw [hlog] at hlt
      have hmax : m * m ≤ (2 ^ 53 - 1) * (2 ^ 53 - 1) := Nat.mul_le_mul (by omega) (by omega)
      have hlarge : 2 ^ 53 * 2 ^ 53 ≤ m * m + m := hhigh
      omega

/-! ### Sizes of roots and quotients -/

/-- A number that is not too small has all its digits. -/
theorem log2_of_kept (hm : 0 < m) (h : Unpacked.Kept .binary64 m e) (he : -1022 ≤ m.log2 + e) :
    m.log2 = 52 := by
  have hmin : Format.binary64.minExponent = -1074 := rfl
  have hlt : m.log2 < 53 := (Nat.log2_lt hm.ne').2 h.lt
  rcases h.full with hsmall | hlarge
  · omega
  · have hle : 52 ≤ m.log2 := (Nat.le_log2 hm.ne').2 hlarge
    omega

/-- The root of a number, to a factor of two. -/
theorem size_sqrt {d : Nat} {f : Int} (hd : 0 < d) (hf : -1074 ≤ d.log2 + f) :
    ∃ m' e' hm', UnpackedFloat.sqrt .binary64 (.finite .positive d f hd) = .finite .positive m' e' hm' ∧
      Unpacked.Kept .binary64 m' e' ∧ (d.log2 + f) / 2 ≤ (m'.log2 + e' : Int) ∧
      (m'.log2 + e' : Int) ≤ (d.log2 + f) / 2 + 1 := by
  have htarget : Format.binary64.targetExponent ((totalExponent d f + 1).ediv 2)
      = max ((d.log2 + f) / 2 - 52) (-1074) := by
    have hmin : Format.binary64.minExponent = -1074 := rfl
    have hbits : (Format.binary64.mantissaBits : Int) = 53 := rfl
    have hdiv : (totalExponent d f + 1).ediv 2 = (d.log2 + f) / 2 + 1 := by
      show (d.log2 + 1 + f + 1 : Int) / 2 = (d.log2 + f) / 2 + 1
      omega
    rw [Format.targetExponent, hdiv, hmin, hbits]
    congr 1
    omega
  obtain ⟨t, ht⟩ : ∃ t, t = min (f.ediv 2) (max ((d.log2 + f : Int) / 2 - 52) (-1074)) := ⟨_, rfl⟩
  have htf : 2 * t ≤ f := by
    have hle : t ≤ f / 2 := ht ▸ min_le_left _ _
    omega
  obtain ⟨n, hn⟩ : ∃ n : Nat, f - 2 * t = n := ⟨(f - 2 * t).toNat, by omega⟩
  have hpos : 0 < d * 2 ^ n := Nat.mul_pos hd (Nat.two_pow_pos n)
  have hlog : (d * 2 ^ n).sqrt.log2 = (d.log2 + n) / 2 := by
    rw [log2_sqrt hpos, log2_mul_two_pow hd]
  have hroot : 0 < (d * 2 ^ n).sqrt := Nat.sqrt_pos.2 hpos
  have hle : t ≤ cut .binary64 (d * 2 ^ n).sqrt t := by
    rw [cut_binary64, hlog]
    have hle' : t ≤ max ((d.log2 + f : Int) / 2 - 52) (-1074) := ht ▸ min_le_right _ _
    omega
  have hmin : Format.binary64.minExponent = -1074 := rfl
  obtain ⟨a, ha⟩ : ∃ a, UnpackedFloat.sqrt .binary64 (.finite .positive d f hd)
      = roundWithAccuracy .binary64 .positive (d * 2 ^ n).sqrt t a := by
    rw [UnpackedFloat.sqrt, sqrtCore, htarget, ← ht, hn, Int.toNat_natCast, Nat.shiftLeft_eq]
    exact ⟨_, rfl⟩
  obtain ⟨m', e', hm', hround⟩ := exists_finite_of_le hroot hle (by omega) a .positive
  obtain ⟨hlo, hhi, -⟩ := size_of_roundWithAccuracy hroot hle hround
  exact ⟨m', e', hm', ha.trans hround, (kept_of_roundWithAccuracy hroot hle hround).2, by omega,
    by omega⟩

theorem log2_div {a b : Nat} (hb : 0 < b) (h : b ≤ a) :
    a.log2 ≤ (a / b).log2 + b.log2 + 1 ∧ (a / b).log2 + b.log2 ≤ a.log2 := by
  have ha : a ≠ 0 := by omega
  have hq : a / b ≠ 0 := (Nat.div_pos h hb).ne'
  have hlo : 2 ^ (a / b).log2 * 2 ^ b.log2 ≤ a :=
    (Nat.mul_le_mul (Nat.log2_self_le hq) (Nat.log2_self_le hb.ne')).trans (Nat.div_mul_le_self a b)
  have hhi : a < 2 ^ ((a / b).log2 + 1) * 2 ^ (b.log2 + 1) :=
    calc a < b * (a / b + 1) := Nat.lt_mul_div_succ a hb
      _ = (a / b + 1) * b := Nat.mul_comm _ _
      _ ≤ 2 ^ ((a / b).log2 + 1) * 2 ^ (b.log2 + 1) :=
        Nat.mul_le_mul Nat.lt_log2_self (Nat.le_of_lt Nat.lt_log2_self)
  rw [← Nat.pow_add] at hlo hhi
  refine ⟨?_, (Nat.le_log2 ha).2 hlo⟩
  have hlt := (Nat.log2_lt ha).2 hhi
  omega

/-- The quotient of two numbers, to a factor of two. -/
theorem size_div (s s' : Sign) {d : Nat} {f : Int} (hm : 0 < m) (hd : 0 < d)
    (hlarge : -1000 ≤ (m.log2 + e : Int) - (d.log2 + f)) :
    ∃ m' e' hm', UnpackedFloat.div .binary64 (.finite s m e hm) (.finite s' d f hd)
        = .finite (s / s') m' e' hm' ∧
      Unpacked.Kept .binary64 m' e' ∧
      (m.log2 + e : Int) - (d.log2 + f) - 1 ≤ m'.log2 + e' ∧
      (m'.log2 + e' : Int) ≤ (m.log2 + e) - (d.log2 + f) + 1 := by
  have hmin : Format.binary64.minExponent = -1074 := rfl
  have htarget : Format.binary64.targetExponent (totalExponent m e - totalExponent d f)
      = max ((m.log2 + e : Int) - (d.log2 + f) - 53) (-1074) := by
    have hbits : (Format.binary64.mantissaBits : Int) = 53 := rfl
    rw [Format.targetExponent, totalExponent, totalExponent, hmin, hbits]
    congr 1
    omega
  obtain ⟨t, ht⟩ : ∃ t, t = min (e - f) (max ((m.log2 + e : Int) - (d.log2 + f) - 53) (-1074)) :=
    ⟨_, rfl⟩
  obtain ⟨n, hn⟩ : ∃ n : Nat, e - f - t = n := ⟨(e - f - t).toNat, by omega⟩
  have hlogn : (m * 2 ^ n).log2 = m.log2 + n := log2_mul_two_pow hm n
  have hmore : d ≤ m * 2 ^ n := by
    refine Nat.le_of_lt ((Nat.lt_log2_self).trans_le ?_)
    refine (Nat.pow_le_pow_right (by decide) ?_).trans (Nat.log2_self_le (n := m * 2 ^ n) ?_)
    · omega
    · exact (Nat.mul_pos hm (Nat.two_pow_pos n)).ne'
  obtain ⟨hlo, hhi⟩ := log2_div hd hmore
  have hpos : 0 < m * 2 ^ n / d := Nat.div_pos hmore hd
  have hle : t ≤ cut .binary64 (m * 2 ^ n / d) t := by
    rw [cut_binary64]
    omega
  obtain ⟨a, ha⟩ : ∃ a, UnpackedFloat.div .binary64 (.finite s m e hm) (.finite s' d f hd)
      = roundWithAccuracy .binary64 (s / s') (m * 2 ^ n / d) t a := by
    rw [UnpackedFloat.div, divCore, htarget, ← ht, hn, Int.toNat_natCast, Nat.shiftLeft_eq]
    exact ⟨_, rfl⟩
  obtain ⟨m', e', hm', hround⟩ := exists_finite_of_le hpos hle (by omega) a (s / s')
  obtain ⟨hlo', hhi', -⟩ := size_of_roundWithAccuracy hpos hle hround
  exact ⟨m', e', hm', ha.trans hround, (kept_of_roundWithAccuracy hpos hle hround).2, by omega,
    by omega⟩

end Binary64

end Rounding

/-! ## Numbers in double precision -/

section Numbers

open Rounding

variable {x : Float} {s : Sign} {m : Nat} {e : Int} {hm : 0 < m}

/-- One with the given sign. -/
def unit : Sign → Float
  | .positive => 1.0
  | .negative => -1.0

theorem unpack_mul_self (hx : x.toModel.unpack = .finite s m e hm) :
    (x * x).toModel.unpack = unpack .binary64 (pack .binary64
      (roundWithAccuracy .binary64 .positive (m * m) (e + e) .exact)) := by
  have hmul : UnpackedFloat.mul .binary64 x.toModel.unpack x.toModel.unpack
      = roundWithAccuracy .binary64 .positive (m * m) (e + e) .exact := by
    rw [hx]
    cases s <;> rfl
  exact congrArg (fun u => unpack .binary64 (pack .binary64 u)) hmul

/-- **The root of the square of a number is its size**, if the square has all its digits. -/
theorem sqrt_mul_self (hx : x.toModel.unpack = .finite s m e hm) (hlog : m.log2 = 52)
    (he : -563 ≤ e) (hfinite : (x * x).isFinite = true) :
    (Float.sqrt (x * x)).toModel.unpack = .finite .positive m e hm := by
  obtain ⟨-, -, hstorable⟩ := canonical_of_unpack (by decide) hx
  obtain ⟨d, j, hd, hlogd, hj, hlo, hhi, hround⟩ := exists_square hm hlog he
  have hsquare := unpack_mul_self hx
  rw [hround] at hsquare
  have hroot := sqrt_of_near hd hlogd hj hm hlog (show -1074 ≤ e by omega) hlo hhi
  have hunpack : (Float.sqrt (x * x)).toModel.unpack = unpack .binary64 (pack .binary64
      (UnpackedFloat.sqrt .binary64 (x * x).toModel.unpack)) := rfl
  have hlarge : 1 ≤ storedExponent .binary64 (e + e + j) := by
    show (1 : Int) ≤ e + e + j + (1023 : Nat) + (52 : Nat)
    omega
  have hlarge' : 1 ≤ storedExponent .binary64 e := by
    show (1 : Int) ≤ e + (1023 : Nat) + (52 : Nat)
    omega
  by_cases hsmall : Storable .binary64 (e + e + j)
  · rw [unpack_pack_normal hlogd hlarge hsmall] at hsquare
    rw [hunpack, hsquare, hroot, unpack_pack_normal hlog hlarge' hstorable]
  · rw [pack_eq_packedInfinity hsmall, unpack_packedInfinity] at hsquare
    have hno : (x * x).isFinite = (UnpackedFloat.infinity .positive).isFinite :=
      congrArg UnpackedFloat.isFinite hsquare
    rw [hno] at hfinite
    cases hfinite

/-- A number divided by its size. -/
theorem div_size {y : Float} (hx : x.toModel.unpack = .finite s m e hm)
    (hy : y.toModel.unpack = .finite .positive m e hm) : x / y = unit s := by
  have hdiv : UnpackedFloat.div .binary64 (.finite s m e hm) (.finite .positive m e hm)
      = (unit s).toModel.unpack := by
    have hcore : divCore .binary64 m e m e = (2 ^ 53, -53, .exact) := by
      have htarget : min (e - e) (Format.binary64.targetExponent
          (totalExponent m e - totalExponent m e)) = -53 := by
        rw [Int.sub_self, Int.sub_self]
        rfl
      have hshift : (e - e - -53).toNat = 53 := by omega
      rw [divCore, htarget, hshift, Nat.shiftLeft_eq, Nat.mul_div_cancel_left _ hm,
        Nat.mul_mod_right]
      rfl
    rw [UnpackedFloat.div, hcore]
    cases s <;> rfl
  refine eq_of_unpack_eq64 ?_
  show unpack .binary64 (pack .binary64 (UnpackedFloat.div .binary64 x.toModel.unpack
    y.toModel.unpack)) = (unit s).toModel.unpack
  rw [hx, hy, hdiv]
  cases s <;> rfl

theorem isFinite_mul_self (hx : x.toModel.unpack = .finite s m e hm) (hlog : m.log2 = 52)
    (he : -563 ≤ e) (htop : e ≤ 459) : (x * x).isFinite = true := by
  obtain ⟨d, j, hd, hlogd, hj, -, -, hround⟩ := exists_square hm hlog he
  have hsquare := unpack_mul_self hx
  rw [hround] at hsquare
  exact (congrArg UnpackedFloat.isFinite hsquare).trans
    (isFinite_unpack_pack (storable_binary64 (by omega)))

/-- What is known of the square of a number: nothing at all if it is too large, and its size if it is
neither too large nor too small. -/
theorem size_mul_self (hx : x.toModel.unpack = .finite s m e hm) :
    (x * x).toModel.unpack = .zero .positive ∨ (x * x).toModel.unpack = .infinity .positive ∨
      ∃ d f hd, (x * x).toModel.unpack = .finite .positive d f hd ∧ Unpacked.Kept .binary64 d f ∧
        2 * (m.log2 + e : Int) ≤ d.log2 + f ∧
        (d.log2 + f : Int) ≤ 2 * (m.log2 + e) + 2 := by
  obtain ⟨hcanonical, hlt, -⟩ := canonical_of_unpack (by decide) hx
  have hkept := Unpacked.kept_of_canonical hm hcanonical hlt
  have hfull := hkept.full
  have hsquare := unpack_mul_self hx
  obtain ⟨hlo, hhi⟩ := log2_mul_self hm
  have hmin : Format.binary64.minExponent = -1074 := rfl
  have hle : e + e ≤ cut .binary64 (m * m) (e + e) := by
    rw [cut_binary64]
    rcases hfull with hsmall | hlarge
    · omega
    · have hlog : 52 ≤ m.log2 := (Nat.le_log2 hm.ne').2 hlarge
      omega
  rcases roundWithAccuracy_cases .binary64 .positive (m * m) (e + e) .exact with
    hround | ⟨d, f, hd, hround⟩
  · rw [hround] at hsquare
    exact .inl (hsquare.trans unpack_packedZero)
  · obtain ⟨hlow, hhigh, hsmallest⟩ := size_of_roundWithAccuracy (Nat.mul_pos hm hm) hle hround
    have hkept' := (kept_of_roundWithAccuracy (Nat.mul_pos hm hm) hle hround).2
    rw [hround] at hsquare
    by_cases hstorable : Storable .binary64 f
    · rw [Unpacked.unpack_pack_kept hkept' hstorable] at hsquare
      exact .inr (.inr ⟨d, f, hd, hsquare, hkept', by omega, by omega⟩)
    · rw [pack_eq_packedInfinity hstorable, unpack_packedInfinity] at hsquare
      exact .inr (.inl hsquare)

theorem unpack_sqrt (x : Float) : (Float.sqrt x).toModel.unpack
    = unpack .binary64 (pack .binary64 (UnpackedFloat.sqrt .binary64 x.toModel.unpack)) := rfl

theorem unpack_div (x y : Float) : (x / y).toModel.unpack
    = unpack .binary64 (pack .binary64
      (UnpackedFloat.div .binary64 x.toModel.unpack y.toModel.unpack)) := rfl

/-- A number of the size of one, with the given sign, or a zero. -/
def NearUnit (s : Sign) (x : Float) : Prop :=
  (∃ t, x.toModel.unpack = .zero t) ∨
    ∃ m e hm, x.toModel.unpack = .finite s m e hm ∧ m.log2 = 52 ∧ -55 ≤ e ∧ e ≤ -51

theorem unpack_unit (s : Sign) :
    (unit s).toModel.unpack = .finite s (2 ^ 52) (-52) (Nat.two_pow_pos 52) := by
  cases s <;> rfl

theorem isFinite_unit (s : Sign) : (unit s).isFinite = true := by
  cases s <;> rfl

theorem NearUnit.isFinite_eq (h : NearUnit s x) : x.isFinite = true := by
  obtain ⟨t, hx⟩ | ⟨m, e, hm, hx, -⟩ := h
  · exact congrArg UnpackedFloat.isFinite hx
  · exact congrArg UnpackedFloat.isFinite hx

theorem sqrt_mul_self_unit (s : Sign) : Float.sqrt (unit s * unit s) = 1.0 := by
  refine eq_of_unpack_eq64 ?_
  have hsquare := isFinite_mul_self (unpack_unit s) Nat.log2_two_pow (by decide) (by decide)
  rw [sqrt_mul_self (unpack_unit s) Nat.log2_two_pow (by decide) hsquare]
  exact (unpack_unit .positive).symm

/-- **A number of the size of one, divided by its length, is a unit.** -/
theorem NearUnit.div_sqrt (h : NearUnit s x) :
    (∃ t, x.toModel.unpack = .zero t) ∨
      (∃ m e hm, (Float.sqrt (x * x)).toModel.unpack = .finite .positive m e hm) ∧
        x / Float.sqrt (x * x) = unit s := by
  refine h.imp_right fun ⟨m, e, hm, hx, hlog, hlo, hhi⟩ => ?_
  have hsquare := isFinite_mul_self hx hlog (by omega) (by omega)
  have hroot := sqrt_mul_self hx hlog (by omega) hsquare
  exact ⟨⟨m, e, hm, hroot⟩, div_size hx hroot⟩

/-- **A number divided by the root of its square is of the size of one**, or zero where the square is
too large. -/
theorem nearUnit_div_sqrt (hx : x.toModel.unpack = .finite s m e hm)
    (hpos : 0.0 < Float.sqrt (x * x)) : NearUnit s (x / Float.sqrt (x * x)) := by
  rcases size_mul_self hx with hsquare | hsquare | ⟨d, f, hd, hsquare, hkept, hlo, hhi⟩
  · have hroot : (Float.sqrt (x * x)).toModel.unpack = .zero .positive := by
      rw [unpack_sqrt, hsquare]
      exact unpack_packedZero
    rw [lt_iff_ordinal64, ordinal64, ordinal64, hroot] at hpos
    exact absurd hpos.2.2 (by decide)
  · have hroot : (Float.sqrt (x * x)).toModel.unpack = .infinity .positive := by
      rw [unpack_sqrt, hsquare]
      exact unpack_packedInfinity _
    refine .inl ⟨s / .positive, ?_⟩
    rw [unpack_div, hx, hroot]
    exact unpack_packedZero
  · obtain ⟨-, -, hstorable⟩ := canonical_of_unpack (by decide) hsquare
    have hf : f + (1023 : Nat) + (52 : Nat) + 1 < 2 ^ 11 := hstorable
    have hlogd : d.log2 < 53 := (Nat.log2_lt hd.ne').2 hkept.lt
    have hmin : Format.binary64.minExponent = -1074 := rfl
    have hle := hkept.minExponent_le
    obtain ⟨r, g, hr, hroot, hkeptr, hlor, hhir⟩ := size_sqrt hd (f := f) (by omega)
    have hlogr : r.log2 = 52 := log2_of_kept hr hkeptr (by omega)
    have hstored : (Float.sqrt (x * x)).toModel.unpack = .finite .positive r g hr := by
      rw [unpack_sqrt, hsquare, hroot]
      exact Unpacked.unpack_pack_kept hkeptr (storable_binary64 (by omega))
    obtain ⟨m', e', hm', hdiv, hkept', hlo', hhi'⟩ := size_div s .positive (e := e)
      (f := g) hm hr (by omega)
    have hlog : m'.log2 = 52 := log2_of_kept hm' hkept' (by omega)
    refine .inr ⟨m', e', hm', ?_, hlog, by omega, by omega⟩
    rw [unpack_div, hx, hstored, hdiv, Unpacked.unpack_pack_kept hkept'
      (storable_binary64 (by omega))]
    cases s <;> rfl

/-! ## Squares with all their digits -/

/-- The smallest number that has all its digits. -/
def smallestNormal : Float := Float.ofBits 0x0010000000000000

/-- The square of a number is neither too large nor too small to have all its digits. -/
def HasNormalSquare (x : Float) : Prop := smallestNormal ≤ x * x ∧ (x * x).isFinite = true

instance (x : Float) : Decidable (HasNormalSquare x) := inferInstanceAs (Decidable (_ ∧ _))

/-- The square of a number just below the root of the smallest normal number. -/
theorem digitsLeft_mul_self_lt (hlog : m.log2 = 52) : digitsLeft (m * m) .exact 54 < 2 ^ 52 := by
  have hlt : m < 2 ^ (m.log2 + 1) := Nat.lt_log2_self
  rw [hlog] at hlt
  have hmax : m * m ≤ (2 ^ 53 - 1) * (2 ^ 53 - 1) := Nat.mul_le_mul (by omega) (by omega)
  have hnear := (digitsLeft_near (m * m) 54).1
  omega

/-- A number that is not below the smallest one with all digits has all of them. -/
theorem le_of_smallestNormal_le {d : Nat} {f : Int} {hd : 0 < d}
    (hx : x.toModel.unpack = .finite .positive d f hd) (h : smallestNormal ≤ x) : 2 ^ 52 ≤ d := by
  obtain ⟨hcanonical, hlt, -⟩ := canonical_of_unpack (by decide) hx
  have hordinal : ordinal64 smallestNormal = 2 ^ 52 := by rfl
  obtain ⟨-, -, hle⟩ := le_iff_ordinal64.1 h
  rcases (Unpacked.kept_of_canonical hd hcanonical hlt).full with hsmall | hlarge
  · rw [hordinal, ordinal64, hx, hsmall] at hle
    have hmagnitude : (2 : Int) ^ 52 ≤ (0 * 2 ^ 52 + d : Nat) := hle
    omega
  · exact hlarge

/-- One place below that of the smallest root, a square has too few digits. -/
theorem lt_of_unpack_mul_self {d : Nat} {f : Int} {hd : 0 < d}
    (hx : x.toModel.unpack = .finite s m (-564) hm) (hlog : m.log2 = 52)
    (hsquare : (x * x).toModel.unpack = .finite .positive d f hd) : d < 2 ^ 52 := by
  obtain ⟨hlo, hup⟩ := log2_mul_self hm
  have hcut : cut .binary64 (m * m) (-564 + -564) = -1074 := by
    rw [cut_binary64]
    omega
  have hrounded := rounded_roundWithAccuracy (s := .positive)
    (show -564 + -564 ≤ cut .binary64 (m * m) (-564 + -564) by omega) .exact
  have hcount : ((-1074 : Int) - (-564 + -564)).toNat = 54 := rfl
  rw [hcut, hcount] at hrounded
  have hfew := digitsLeft_mul_self_lt hlog
  have hstored := unpack_mul_self hx
  generalize roundWithAccuracy .binary64 .positive (m * m) (-564 + -564) .exact = u
    at hrounded hstored
  generalize digitsLeft (m * m) .exact 54 = r at hrounded hfew
  cases hrounded with
  | zero => cases hsquare.symm.trans (hstored.trans unpack_packedZero)
  | digits hr hlt =>
    have hkeptr : Unpacked.Kept .binary64 r (-1074) := ⟨Int.le_refl _, hlt, .inl rfl⟩
    rw [hsquare, Unpacked.unpack_pack_kept hkeptr (storable_binary64 (by omega))] at hstored
    cases hstored
    exact hfew
  | carry => exact absurd hfew (by decide)

/-- A number whose square has all its digits has them itself, and is not too small. -/
theorem HasNormalSquare.exists_finite (h : HasNormalSquare x) :
    ∃ s m e hm, x.toModel.unpack = .finite s m e hm ∧ m.log2 = 52 ∧ -563 ≤ e := by
  obtain ⟨hsmallest, hfinite⟩ := h
  have hpositive : ¬ smallestNormal ≤ 0.0 := by decide
  obtain ⟨s, hx⟩ | ⟨s, m, e, hm, hx⟩ := zero_or_finite (isFinite_of_mul hfinite).1
  · have hzero : Agree64 (x * x) 0.0 :=
      agree64_mul_zero (isFinite_of_mul hfinite).1 (agree64_zero_of_unpack hx)
    exact absurd ((Agree64.le_iff (.refl _) hzero).1 hsmallest) hpositive
  refine ⟨s, m, e, hm, hx, ?_⟩
  rcases size_mul_self hx with hsquare | hsquare | ⟨d, f, hd, hsquare, hkept, -, hhi⟩
  · exact absurd ((Agree64.le_iff (.refl _) (agree64_zero_of_unpack hsquare)).1 hsmallest) hpositive
  · have hno : (x * x).isFinite = (UnpackedFloat.infinity .positive).isFinite :=
      congrArg UnpackedFloat.isFinite hsquare
    rw [hno] at hfinite
    cases hfinite
  · obtain ⟨hcanonical, hlt, -⟩ := canonical_of_unpack (by decide) hx
    have hkeptx := Unpacked.kept_of_canonical hm hcanonical hlt
    have hlef : -1074 ≤ f := hkept.minExponent_le
    have hfull := le_of_smallestNormal_le hsquare hsmallest
    have hlogd : 52 ≤ d.log2 := (Nat.le_log2 hd.ne').2 hfull
    have hlog : m.log2 = 52 := log2_of_kept hm hkeptx (by omega)
    refine ⟨hlog, ?_⟩
    by_contra hsmall
    obtain rfl : e = -564 := by omega
    exact absurd (lt_of_unpack_mul_self hx hlog hsquare) (by omega)

/-- The root of the square of a number is its size; either zero will do for zero. -/
theorem agree_sqrt_mul_self (h : ¬ Agree64 x 0.0 → HasNormalSquare x) :
    Agree64 (Float.sqrt (x * x)) x.abs := by
  by_cases hzero : Agree64 x 0.0
  · exact (hzero.mul hzero).sqrt.trans (Agree64.symm hzero.abs)
  · obtain ⟨s, m, e, hm, hunpack, hlog, he⟩ := (h hzero).exists_finite
    rw [Agree64, unpack_abs, sqrt_mul_self hunpack hlog he (h hzero).2, hunpack]
    exact .refl _

end Numbers
end ProductQuantization
