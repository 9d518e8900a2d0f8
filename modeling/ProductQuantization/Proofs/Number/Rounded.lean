import ProductQuantization.Proofs.Number.MonotoneSum

/-!
# What rounding leaves

Rounding a number whose digits are all known, or all but a remainder that is less than one unit of
the last (`Accuracy`), cuts its digits off at the last place that the format has for a number of that
size and rounds what is left (`digitsLeft`).  If that makes one digit more, the number is a power of
two and has its last digit one place higher up.  `Rounded` is that rule, and
`rounded_roundWithAccuracy` says that every operation that rounds obeys it.

Two things are read off.  A number is rounded to one of its own size, up to a factor of two, or to
zero if it is small (`size_of_roundWithAccuracy`).  And as long as a number is not smaller than the
format has all its digits for, how many places are cut off does not depend on its exponent, so that
rounding goes along with a change of the exponent (`roundWithAccuracy_shift`).
-/

set_option autoImplicit false

namespace ProductQuantization

open Float.Model (Format UnpackedFloat totalExponent)
open Float.Model.UnpackedFloat

namespace Rounding

variable {format : Format} {m n : Nat} {e t : Int} {a : Accuracy} {s : Sign}

/-! ## The digits that are left -/

/-- What is left of a number without its last `n` digits, rounded. -/
def digitsLeft (m : Nat) (a : Accuracy) (n : Nat) : Nat :=
  (ExtendedMantissa.ofMantissaAndAccuracy m a >>> n).roundedMantissa

theorem mantissa_ofMantissaAndAccuracy (m : Nat) (a : Accuracy) :
    (ExtendedMantissa.ofMantissaAndAccuracy m a).mantissa = m := by
  cases a with
  | exact => rfl
  | inexact o => cases o <;> rfl

theorem div_le_digitsLeft (m : Nat) (a : Accuracy) (n : Nat) : m / 2 ^ n ≤ digitsLeft m a n := by
  have hle := mantissa_le_roundedMantissa (ExtendedMantissa.ofMantissaAndAccuracy m a >>> n)
  rwa [mantissa_shiftRight, mantissa_ofMantissaAndAccuracy] at hle

theorem digitsLeft_le (m : Nat) (a : Accuracy) (n : Nat) : digitsLeft m a n ≤ m / 2 ^ n + 1 := by
  have hle := roundedMantissa_le (ExtendedMantissa.ofMantissaAndAccuracy m a >>> n)
  rw [mantissa_shiftRight, mantissa_ofMantissaAndAccuracy] at hle
  exact hle.trans (Nat.add_le_add_left (Bool.toNat_le _) _)

/-- Where nothing is cut off, the remainder alone decides. -/
theorem digitsLeft_zero (m : Nat) (a : Accuracy) : digitsLeft m a 0 = a.roundToNearestEven m := by
  cases a with
  | exact => rfl
  | inexact o => cases o <;> rfl

/-- The place at which a number is cut off. -/
def cut (format : Format) (m : Nat) (e : Int) : Int := format.targetExponent (totalExponent m e)

theorem cut_eq (format : Format) (m : Nat) (e : Int) :
    cut format m e = max (m.log2 + e - format.mantissaBitsWithoutImplicit) format.minExponent := by
  rw [cut, Format.targetExponent, totalExponent, Format.mantissaBits]
  push_cast
  congr 1
  omega

theorem digitsLeft_le_two_pow (h : e ≤ cut format m e) (a : Accuracy) :
    digitsLeft m a (cut format m e - e).toNat ≤ 2 ^ (format.mantissaBitsWithoutImplicit + 1) := by
  have hlt : m / 2 ^ (cut format m e - e).toNat
      < 2 ^ (format.mantissaBitsWithoutImplicit + 1) := by
    rw [Nat.div_lt_iff_lt_mul (Nat.two_pow_pos _), ← Nat.pow_add]
    refine Nat.lt_of_lt_of_le Nat.lt_log2_self (Nat.pow_le_pow_right (by decide) ?_)
    have hcut := cut_eq format m e
    omega
  exact (digitsLeft_le m a _).trans hlt

/-! ## The rule -/

/-- The number with `r` digits at place `t`, once the case of one digit too many is put right. -/
inductive Rounded (format : Format) (s : Sign) (t : Int) : Nat → UnpackedFloat → Prop where
  | zero : Rounded format s t 0 (.zero s)
  | digits {r : Nat} (hr : 0 < r) (hlt : r < 2 ^ (format.mantissaBitsWithoutImplicit + 1)) :
      Rounded format s t r (.finite s r t hr)
  | carry : Rounded format s t (2 ^ (format.mantissaBitsWithoutImplicit + 1))
      (.finite s (2 ^ format.mantissaBitsWithoutImplicit) (t + 1) (Nat.two_pow_pos _))

theorem shiftToTargetExponent_of_lt {r : Nat} (ht : format.minExponent ≤ t)
    (hlt : r < 2 ^ (format.mantissaBitsWithoutImplicit + 1)) :
    shiftToTargetExponent format r t .exact = (⟨r, false, false⟩, t) := by
  have hlog : r.log2 ≤ format.mantissaBitsWithoutImplicit := by
    by_cases hr : r = 0
    · rw [hr, Nat.log2_zero]
      exact Nat.zero_le _
    · exact Nat.le_of_lt_succ ((Nat.log2_lt hr).2 hlt)
  have hcut := cut_eq format r t
  have hshift : (cut format r t - t).toNat = 0 := by omega
  rw [cut] at hshift
  rw [shiftToTargetExponent, shiftToExponent, hshift]
  simp only [Nat.cast_zero, add_zero]
  rfl

theorem shiftToTargetExponent_carry (ht : format.minExponent ≤ t) :
    shiftToTargetExponent format (2 ^ (format.mantissaBitsWithoutImplicit + 1)) t .exact
      = (⟨2 ^ format.mantissaBitsWithoutImplicit, false, false⟩, t + 1) := by
  have hcut := cut_eq format (2 ^ (format.mantissaBitsWithoutImplicit + 1)) t
  rw [Nat.log2_two_pow, cut] at hcut
  have htarget : format.targetExponent
      (totalExponent (2 ^ (format.mantissaBitsWithoutImplicit + 1)) t) = t + (1 : Nat) := by
    omega
  rw [shiftToTargetExponent, htarget, shiftToExponent_add, Nat.pow_succ, ← Nat.pow_one 2,
    ← Nat.pow_mul, Nat.one_mul, shiftRight_exact]
  rfl

/-- **Every operation that rounds obeys the rule**, if it knows enough digits. -/
theorem rounded_roundWithAccuracy (h : e ≤ cut format m e) (a : Accuracy) (s : Sign) :
    Rounded format s (cut format m e) (digitsLeft m a (cut format m e - e).toNat)
      (roundWithAccuracy format s m e a) := by
  have hle := digitsLeft_le_two_pow h a
  have hmin : format.minExponent ≤ cut format m e := by
    rw [cut_eq]
    exact le_max_right _ _
  have hplace : e + ((cut format m e - e).toNat : Int) = cut format m e := by omega
  have hfirst : shiftToTargetExponent format m e a
      = (ExtendedMantissa.ofMantissaAndAccuracy m a >>> (cut format m e - e).toNat,
        cut format m e) := by
    rw [shiftToTargetExponent, shiftToExponent]
    exact congrArg (Prod.mk _) hplace
  rw [roundWithAccuracy, hfirst]
  dsimp only
  rw [← digitsLeft]
  generalize digitsLeft m a (cut format m e - e).toNat = r at hle ⊢
  rcases Nat.lt_or_eq_of_le hle with hlt | rfl
  · rw [shiftToTargetExponent_of_lt hmin hlt]
    dsimp only
    split
    · rename_i hr
      rw [hr]
      exact .zero
    · exact .digits _ hlt
  · rw [shiftToTargetExponent_carry hmin]
    dsimp only
    rw [dif_neg (Nat.two_pow_pos _).ne']
    exact .carry

/-- Rounding keeps the sign and gives a number. -/
theorem roundWithAccuracy_cases (format : Format) (s : Sign) (m : Nat) (e : Int) (a : Accuracy) :
    roundWithAccuracy format s m e a = .zero s ∨
      ∃ m' e' hm', roundWithAccuracy format s m e a = .finite s m' e' hm' := by
  rw [roundWithAccuracy]
  dsimp only
  split
  · exact .inl rfl
  · exact .inr ⟨_, _, Nat.pos_of_ne_zero ‹_›, rfl⟩

/-! ## Sizes -/

section Sizes

variable {s' : Sign} {m' : Nat} {e' : Int} {hm' : 0 < m'} {r : Nat} {u : UnpackedFloat}

theorem digitsLeft_pos (hm : 0 < m) (h : n ≤ m.log2) (a : Accuracy) : 0 < digitsLeft m a n := by
  refine Nat.lt_of_lt_of_le ?_ (div_le_digitsLeft m a n)
  rw [Nat.div_pos_iff]
  exact ⟨Nat.two_pow_pos _,
    Nat.le_trans (Nat.pow_le_pow_right (by decide) h) (Nat.log2_self_le (Nat.ne_of_gt hm))⟩

theorem log2_digitsLeft (hm : 0 < m) (h : n ≤ m.log2) (a : Accuracy) :
    m.log2 ≤ (digitsLeft m a n).log2 + n ∧ (digitsLeft m a n).log2 + n ≤ m.log2 + 1 := by
  have hdiv := log2_div_two_pow h (Nat.ne_of_gt hm)
  have hpos := digitsLeft_pos hm h a
  have hlo : m.log2 - n ≤ (digitsLeft m a n).log2 := by
    have hle := div_le_digitsLeft m a n
    have hne : m / 2 ^ n ≠ 0 := by
      intro h0
      rw [Nat.div_eq_zero_iff] at h0
      have hself := Nat.log2_self_le (Nat.ne_of_gt hm)
      have hpow : 2 ^ n ≤ 2 ^ m.log2 := Nat.pow_le_pow_right (by decide) h
      have := Nat.two_pow_pos n
      omega
    rw [← hdiv, Nat.le_log2 (Nat.ne_of_gt hpos)]
    exact Nat.le_trans (Nat.log2_self_le hne) hle
  have hhi : digitsLeft m a n ≤ 2 ^ (m.log2 - n + 1) := by
    have hlt : m / 2 ^ n < 2 ^ ((m / 2 ^ n).log2 + 1) := Nat.lt_log2_self
    rw [hdiv] at hlt
    exact (digitsLeft_le m a n).trans hlt
  have hlog : (digitsLeft m a n).log2 < m.log2 - n + 2 := by
    rw [Nat.log2_lt (Nat.ne_of_gt hpos), Nat.pow_succ]
    have := Nat.two_pow_pos (m.log2 - n + 1)
    omega
  omega

/-- What is less than half of one unit is nothing. -/
theorem digitsLeft_eq_zero (h : m.log2 + 1 < n) (a : Accuracy) : digitsLeft m a n = 0 := by
  obtain ⟨k, rfl⟩ : ∃ k, n = k + 1 := ⟨n - 1, by omega⟩
  have hlt : m < 2 ^ k := by
    refine Nat.lt_of_lt_of_le Nat.lt_log2_self (Nat.pow_le_pow_right (by decide) ?_)
    omega
  have hle := roundedMantissa_shiftRight_le (ExtendedMantissa.ofMantissaAndAccuracy m a) k
  rw [mantissa_ofMantissaAndAccuracy, Nat.div_eq_of_lt hlt] at hle
  exact Nat.le_zero.1 hle

theorem Rounded.digits_eq (h : Rounded format s t r (.finite s' m' e' hm')) :
    s' = s ∧ 0 < r ∧ (m'.log2 + e' : Int) = r.log2 + t := by
  cases h with
  | digits hr hlt => exact ⟨rfl, hr, rfl⟩
  | carry =>
    refine ⟨rfl, Nat.two_pow_pos _, ?_⟩
    rw [Nat.log2_two_pow, Nat.log2_two_pow]
    push_cast
    omega

/-- **A number is rounded to one of its size**, up to a factor of two, unless it is smaller than
all that the format has. -/
theorem size_of_roundWithAccuracy (hm : 0 < m) (h : e ≤ cut format m e)
    (hu : roundWithAccuracy format s m e a = .finite s' m' e' hm') :
    (m.log2 + e : Int) ≤ m'.log2 + e' ∧
      (m'.log2 + e' : Int) ≤ max (m.log2 + e + 1) format.minExponent ∧
      format.minExponent ≤ m.log2 + e + 1 := by
  have hrounded := rounded_roundWithAccuracy h a s
  rw [hu] at hrounded
  obtain ⟨-, hr, hsize⟩ := hrounded.digits_eq
  have hcut := cut_eq format m e
  by_cases hfew : (cut format m e - e).toNat ≤ m.log2
  · obtain ⟨hlo, hhi⟩ := log2_digitsLeft hm hfew a
    omega
  · by_cases hnone : m.log2 + 1 < (cut format m e - e).toNat
    · rw [digitsLeft_eq_zero hnone] at hr
      exact absurd hr (Nat.lt_irrefl 0)
    · have hone : digitsLeft m a (cut format m e - e).toNat = 1 := by
        have hle := digitsLeft_le m a (cut format m e - e).toNat
        have hdiv : m / 2 ^ (cut format m e - e).toNat = 0 := by
          rw [Nat.div_eq_zero_iff]
          refine .inr (Nat.lt_of_lt_of_le Nat.lt_log2_self (Nat.pow_le_pow_right (by decide) ?_))
          omega
        omega
      have hlog : Nat.log2 1 = 0 := by decide
      rw [hone, hlog] at hsize
      omega

/-- A number that is not smaller than all that the format has is not rounded to zero. -/
theorem exists_finite_of_le (hm : 0 < m) (h : e ≤ cut format m e)
    (hlarge : format.minExponent ≤ m.log2 + e) (a : Accuracy) (s : Sign) :
    ∃ m' e' hm', roundWithAccuracy format s m e a = .finite s m' e' hm' := by
  have hrounded := rounded_roundWithAccuracy h a s
  have hcut := cut_eq format m e
  have hr := digitsLeft_pos hm (n := (cut format m e - e).toNat) (by omega) a
  generalize roundWithAccuracy format s m e a = u at hrounded ⊢
  generalize digitsLeft m a (cut format m e - e).toNat = r at hrounded hr
  cases hrounded with
  | zero => exact absurd hr (Nat.lt_irrefl 0)
  | digits hr hlt => exact ⟨_, _, _, rfl⟩
  | carry => exact ⟨_, _, _, rfl⟩

/-- Above the least exponent all digits that the format has are left. -/
theorem two_pow_le_digitsLeft (hm : 0 < m) (he : e ≤ cut format m e)
    (h : cut format m e ≠ format.minExponent) (a : Accuracy) :
    2 ^ format.mantissaBitsWithoutImplicit ≤ digitsLeft m a (cut format m e - e).toNat := by
  have hcut := cut_eq format m e
  have hn : (cut format m e - e).toNat ≤ m.log2 := by omega
  have hlog := (log2_digitsLeft hm hn a).1
  rw [← Nat.le_log2 (Nat.ne_of_gt (digitsLeft_pos hm hn a))]
  omega

/-- What rounding gives is a number that the format keeps as it is. -/
theorem kept_of_roundWithAccuracy (hm : 0 < m) (h : e ≤ cut format m e)
    (hu : roundWithAccuracy format s m e a = .finite s' m' e' hm') :
    s' = s ∧ Unpacked.Kept format m' e' := by
  have hrounded := rounded_roundWithAccuracy h a s
  have hcut := cut_eq format m e
  have hfull : cut format m e = format.minExponent ∨ 2 ^ format.mantissaBitsWithoutImplicit
      ≤ digitsLeft m a (cut format m e - e).toNat :=
    or_iff_not_imp_left.2 fun hmin => two_pow_le_digitsLeft hm h hmin a
  rw [hu] at hrounded
  generalize digitsLeft m a (cut format m e - e).toNat = r at hrounded hfull
  cases hrounded with
  | digits hr hlt => exact ⟨rfl, by omega, hlt, hfull⟩
  | carry =>
    refine ⟨rfl, by omega, ?_, .inr (Nat.le_refl _)⟩
    rw [Nat.pow_succ]
    have := Nat.two_pow_pos format.mantissaBitsWithoutImplicit
    omega

end Sizes

/-! ## Moving the point -/

/-- The number with its point moved by `k` binary places. -/
def shift (k : Int) : UnpackedFloat → UnpackedFloat
  | .finite s m e hm => .finite s m (e + k) hm
  | u => u

/-- **Rounding goes along with a change of the exponent**, as long as all digits are kept. -/
theorem roundWithAccuracy_shift (k : Int)
    (hfull : format.mantissaBitsWithoutImplicit ≤ m.log2)
    (h : format.minExponent + format.mantissaBitsWithoutImplicit ≤ m.log2 + e)
    (hk : format.minExponent + format.mantissaBitsWithoutImplicit ≤ m.log2 + e + k) :
    roundWithAccuracy format s m (e + k) a = shift k (roundWithAccuracy format s m e a) := by
  have hcut := cut_eq format m e
  have hcut' := cut_eq format m (e + k)
  have hplace : cut format m (e + k) = cut format m e + k := by omega
  have hn : cut format m (e + k) - (e + k) = cut format m e - e := by omega
  have hrounded := rounded_roundWithAccuracy (s := s) (show e ≤ cut format m e by omega) a
  have hrounded' := rounded_roundWithAccuracy (s := s)
    (show e + k ≤ cut format m (e + k) by omega) a
  rw [hn, hplace] at hrounded'
  generalize roundWithAccuracy format s m e a = u at hrounded ⊢
  generalize roundWithAccuracy format s m (e + k) a = u' at hrounded' ⊢
  generalize digitsLeft m a (cut format m e - e).toNat = r at hrounded hrounded'
  cases hrounded with
  | zero =>
    generalize hr : 0 = r at hrounded'
    cases hrounded' with
    | zero => rfl
    | digits hpos _ => omega
    | carry => exact absurd hr (Nat.two_pow_pos _).ne
  | digits hpos hlt =>
    cases hrounded' with
    | zero => exact absurd hpos (Nat.lt_irrefl 0)
    | digits _ _ => rfl
    | carry => exact absurd hlt (Nat.lt_irrefl _)
  | carry =>
    generalize hr : 2 ^ (format.mantissaBitsWithoutImplicit + 1) = r at hrounded'
    cases hrounded' with
    | zero => exact absurd hr (Nat.two_pow_pos _).ne'
    | digits _ hlt => omega
    | carry =>
      simp only [shift]
      congr 1
      omega

end Rounding
end ProductQuantization
