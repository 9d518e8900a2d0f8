import ProductQuantization.Proofs.Number.SquareRoot

/-!
# Numbers that differ by a power of two

Multiplying by a power of two changes no digit, as long as the format has an exponent for what comes
out.  Sums, products and roots go along with it if they are in range, neither too small to have all
digits nor infinite (`Scaled.add`, `Shifted.mul`, `Scaled.sqrt`).  Quotients, comparisons and the total
order do not see it at all (`Shifted.div_eq`, `Shifted.lt_iff`, `Shifted.rank64_le_iff`).
-/

set_option autoImplicit false

namespace ProductQuantization

open Float.Model (Format UnpackedFloat totalExponent)
open Float.Model.UnpackedFloat
open Rounding

/-! ## Moving the point -/

namespace Unpacked

variable {k : Int}

theorem shift_zero (u : UnpackedFloat) : shift 0 u = u := by
  cases u with
  | finite s m e hm => simp only [shift, Int.add_zero]
  | _ => rfl

theorem compare_add_right (a b k : Int) : compare (a + k) (b + k) = compare a b := by
  rcases Int.lt_trichotomy a b with h | h | h
  · rw [compare_lt_iff_lt.2 h, compare_lt_iff_lt.2 (by omega)]
  · rw [compare_eq_iff_eq.2 h, compare_eq_iff_eq.2 (by omega)]
  · rw [compare_gt_iff_gt.2 h, compare_gt_iff_gt.2 (by omega)]

theorem compare_shift (k : Int) (u v : UnpackedFloat) :
    (shift k u).compare (shift k v) = u.compare v := by
  cases u with
  | finite s m e hm =>
    cases v with
    | finite t m' e' hm' =>
      cases s <;> cases t <;> simp only [shift, UnpackedFloat.compare, compare_add_right]
    | infinity t => cases s <;> cases t <;> rfl
    | _ => cases s <;> rfl
  | infinity s =>
    cases v with
    | finite t m' e' hm' => cases s <;> cases t <;> rfl
    | _ => rfl
  | _ =>
    cases v with
    | finite t m' e' hm' => cases t <;> rfl
    | _ => rfl

theorem divCore_shift (format : Format) (m m' : Nat) (e e' k : Int) :
    divCore format m (e + k) m' (e' + k) = divCore format m e m' e' := by
  have hexponent : e + k - (e' + k) = e - e' := by omega
  have htotal : totalExponent m (e + k) - totalExponent m' (e' + k)
      = totalExponent m e - totalExponent m' e' := by
    rw [totalExponent, totalExponent, totalExponent, totalExponent]
    omega
  rw [divCore, divCore, hexponent, htotal]

theorem div_shift (format : Format) (k : Int) (u v : UnpackedFloat) :
    UnpackedFloat.div format (shift k u) (shift k v) = UnpackedFloat.div format u v := by
  cases u with
  | finite s m e hm =>
    cases v with
    | finite t m' e' hm' => simp only [shift, UnpackedFloat.div, divCore_shift]
    | _ => rfl
  | _ => cases v <;> rfl

theorem mul_comm (format : Format) (u v : UnpackedFloat) :
    UnpackedFloat.mul format u v = UnpackedFloat.mul format v u := by
  have hsign : ∀ s t : Sign, s * t = t * s := by
    intro s t
    cases s <;> cases t <;> rfl
  cases u with
  | notANumber => cases v <;> rfl
  | finite s m e hm =>
    cases v with
    | finite t m' e' hm' =>
      simp only [UnpackedFloat.mul, hsign t s, Nat.mul_comm m' m, Int.add_comm e' e]
    | infinity t => exact congrArg UnpackedFloat.infinity (hsign s t)
    | zero t => exact congrArg UnpackedFloat.zero (hsign s t)
    | notANumber => rfl
  | infinity s =>
    cases v with
    | finite t m' e' hm' => exact congrArg UnpackedFloat.infinity (hsign s t)
    | infinity t => exact congrArg UnpackedFloat.infinity (hsign s t)
    | _ => rfl
  | zero s =>
    cases v with
    | finite t m' e' hm' => exact congrArg UnpackedFloat.zero (hsign s t)
    | zero t => exact congrArg UnpackedFloat.zero (hsign s t)
    | _ => rfl

/-- A zero factor makes a zero with the sign of the product, wherever the points are. -/
theorem exists_zero_mul {u v : UnpackedFloat} (format : Format) (hu : u.isFinite = true)
    (hv : v.isFinite = true) (h : (∃ s, u = .zero s) ∨ ∃ s, v = .zero s) :
    ∃ s, ∀ k l, UnpackedFloat.mul format (shift k u) (shift l v) = .zero s := by
  obtain ⟨s, rfl⟩ | ⟨s, m, e, hm, rfl⟩ := zero_or_finite hu
  · obtain ⟨t, rfl⟩ | ⟨t, m', e', hm', rfl⟩ := zero_or_finite hv <;>
      exact ⟨s * t, fun _ _ => rfl⟩
  · obtain ⟨t, rfl⟩ : ∃ t, v = .zero t := h.resolve_left fun ⟨_, h⟩ => nomatch h
    exact ⟨s * t, fun _ _ => rfl⟩

theorem sub_eq_add_neg (format : Format) (u v : UnpackedFloat) :
    UnpackedFloat.sub format u v = UnpackedFloat.add format u v.neg := by
  cases u with
  | finite s m e hm =>
    cases v with
    | finite t m' e' hm' =>
      have hterm : ∀ a b : Int, a - t.apply b = a + (-t).apply b := by
        intro a b
        cases t with
        | positive => exact Int.sub_eq_add_neg
        | negative => exact Int.sub_neg a b
      simp only [UnpackedFloat.sub, UnpackedFloat.add, UnpackedFloat.neg, hterm]
    | _ => rfl
  | _ => cases v <;> rfl

end Unpacked

/-! ### In double precision -/

section Double

variable {k l : Int} {x x' y y' z z' : Float}

/-- The one number is `2 ^ k` times the other, whatever the format has to say to that. -/
def Shifted (k : Int) (x x' : Float) : Prop := x'.toModel.unpack = shift k x.toModel.unpack

theorem Shifted.refl (x : Float) : Shifted 0 x x := (Unpacked.shift_zero _).symm

theorem shifted_zero (k : Int) : Shifted k 0.0 0.0 := rfl

theorem Shifted.isNaN_eq (h : Shifted k x x') : x'.isNaN = x.isNaN := by
  show x'.toModel.unpack.isNaN = x.toModel.unpack.isNaN
  rw [h]
  cases x.toModel.unpack <;> rfl

theorem Shifted.compare_eq (hx : Shifted k x x') (hy : Shifted k y y') :
    x'.toModel.unpack.compare y'.toModel.unpack = x.toModel.unpack.compare y.toModel.unpack := by
  rw [hx, hy, Unpacked.compare_shift]

theorem lt_iff_unpack : x < y ↔ x.toModel.unpack.lt y.toModel.unpack = true := decide_eq_true_iff

theorem le_iff_unpack : x ≤ y ↔ x.toModel.unpack.le y.toModel.unpack = true := decide_eq_true_iff

theorem Shifted.lt_iff (hx : Shifted k x x') (hy : Shifted k y y') : x' < y' ↔ x < y := by
  rw [lt_iff_unpack, lt_iff_unpack, UnpackedFloat.lt, UnpackedFloat.lt, hx.compare_eq hy]

theorem Shifted.le_iff (hx : Shifted k x x') (hy : Shifted k y y') : x' ≤ y' ↔ x ≤ y := by
  rw [le_iff_unpack, le_iff_unpack, UnpackedFloat.le, UnpackedFloat.le, hx.compare_eq hy]

theorem Shifted.beq_zero_eq (hx : Shifted k x x') : (x' == 0.0) = (x == 0.0) := by
  show x'.toModel.unpack.beq (0.0 : Float).toModel.unpack
    = x.toModel.unpack.beq (0.0 : Float).toModel.unpack
  rw [UnpackedFloat.beq, UnpackedFloat.beq, hx.compare_eq (shifted_zero k)]

/-- **A quotient does not see a factor of both.** -/
theorem Shifted.div_eq (hx : Shifted k x x') (hy : Shifted k y y') : x' / y' = x / y :=
  eq_of_unpack_eq64 (by rw [unpack_div, unpack_div, hx, hy, Unpacked.div_shift])

theorem Shifted.eq_of_zero (h : Shifted k x x') (hx : (x == 0.0) = true) : x' = x := by
  obtain ⟨s, hs⟩ := exists_sign_of_agree64_zero (Unpacked.Agree.of_beq hx)
  refine eq_of_unpack_eq64 ?_
  rw [h, hs]
  rfl

/-- The total order is that of the numbers, except between zeros. -/
theorem rank64_le_iff (hx : x.isNaN = false) (hy : y.isNaN = false)
    (h : ¬ ((x == 0.0) = true ∧ (y == 0.0) = true)) : rank64 x ≤ rank64 y ↔ x ≤ y := by
  have hzero : ∀ z : Float, z.isNaN = false → ordinal64 z = 0 → (z == 0.0) = true :=
    fun z hz hordinal => beq_iff_ordinal64.2 ⟨hz, rfl, hordinal⟩
  have hne : ¬ (ordinal64 x = 0 ∧ ordinal64 y = 0) := fun hboth =>
    h ⟨hzero x hx hboth.1, hzero y hy hboth.2⟩
  have hrankx := rank64_eq hx
  have hranky := rank64_eq hy
  rw [le_iff_ordinal64]
  constructor
  · exact fun hle => ⟨hx, hy, by omega⟩
  · rintro ⟨-, -, hle⟩
    omega

/-- **Nor does the total order.** -/
theorem Shifted.rank64_le_iff (hx : Shifted k x x') (hy : Shifted k y y') (hnx : x.isNaN = false)
    (hny : y.isNaN = false) : rank64 x' ≤ rank64 y' ↔ rank64 x ≤ rank64 y := by
  by_cases h : (x == 0.0) = true ∧ (y == 0.0) = true
  · rw [hx.eq_of_zero h.1, hy.eq_of_zero h.2]
  · have h' : ¬ ((x' == 0.0) = true ∧ (y' == 0.0) = true) := by
      rwa [hx.beq_zero_eq, hy.beq_zero_eq]
    rw [ProductQuantization.rank64_le_iff hnx hny h,
      ProductQuantization.rank64_le_iff (hx.isNaN_eq.trans hnx) (hy.isNaN_eq.trans hny) h',
      hx.le_iff hy]

/-! ## Numbers with all their digits -/

/-- Zero, or a number that is larger in size than the smallest one with all digits, and finite. -/
def InRange (x : Float) : Prop :=
  (x == 0.0) = true ∨ smallestNormal < x.abs ∧ x.isFinite = true

instance (x : Float) : Decidable (InRange x) := inferInstanceAs (Decidable (_ ∨ _))

/-- A product in range, which is zero only if a factor is. -/
structure MulInRange (x y : Float) : Prop where
  inRange : InRange (x * y)
  zero : (x * y == 0.0) = true → (x == 0.0) = true ∨ (y == 0.0) = true

instance (x y : Float) : Decidable (MulInRange x y) :=
  decidable_of_iff (InRange (x * y) ∧ ((x * y == 0.0) = true → (x == 0.0) = true ∨ (y == 0.0) = true))
    ⟨fun h => ⟨h.1, h.2⟩, fun h => ⟨h.1, h.2⟩⟩

theorem InRange.zero_or_full (h : InRange x) : (∃ s, x.toModel.unpack = .zero s) ∨
    ∃ s m e hm, x.toModel.unpack = .finite s m e hm ∧ m.log2 = 52 ∧ (2 ^ 52 < m ∨ -1074 < e) := by
  rcases h with hzero | ⟨hlt, hfinite⟩
  · exact .inl (exists_sign_of_agree64_zero (Unpacked.Agree.of_beq hzero))
  obtain hx | ⟨s, m, e, hm, hx⟩ := zero_or_finite (u := x.toModel.unpack) hfinite
  · exact .inl hx
  · obtain ⟨hcanonical, hdigits, -⟩ := canonical_of_unpack (by decide) hx
    have hkept := Unpacked.kept_of_canonical hm hcanonical hdigits
    have hordinal : ordinal64 smallestNormal = 2 ^ 52 := by rfl
    have hsize : ordinal64 x.abs = ((e - -1074).toNat * 2 ^ 52 + m : Nat) := by
      rw [ordinal64, unpack_abs, hx]
      rfl
    obtain ⟨-, -, hlt⟩ := lt_iff_ordinal64.1 hlt
    rw [hordinal, hsize] at hlt
    have hlo : -1074 ≤ e := hkept.minExponent_le
    have hfull : e = -1074 ∨ 2 ^ 52 ≤ m := hkept.full
    have hmany : 2 ^ 52 < m ∨ -1074 < e := by
      by_contra hnot
      obtain rfl : e = -1074 := by omega
      simp at hlt
      omega
    refine .inr ⟨s, m, e, hm, hx, log2_of_kept hm hkept ?_, hmany⟩
    have hlog : 52 ≤ m.log2 := (Nat.le_log2 hm.ne').2 (by omega)
    omega

theorem InRange.isFinite_eq (h : InRange x) : x.isFinite = true := by
  show x.toModel.unpack.isFinite = true
  obtain ⟨s, hs⟩ | ⟨s, m, e, hm, hs, -⟩ := h.zero_or_full <;> rw [hs] <;> rfl

/-- A number that is large enough and finite is in range. -/
theorem inRange_of_le {s : Sign} {m : Nat} {e : Int} {hm : 0 < m}
    (hx : x.toModel.unpack = .finite s m e hm) (h : -1021 ≤ m.log2 + e) : InRange x := by
  obtain ⟨hcanonical, hdigits, -⟩ := canonical_of_unpack (by decide) hx
  have hkept := Unpacked.kept_of_canonical hm hcanonical hdigits
  have hlo : -1074 ≤ e := hkept.minExponent_le
  have hlog := log2_of_kept hm hkept (by omega)
  have hordinal : ordinal64 smallestNormal = 2 ^ 52 := by rfl
  have hsize : ordinal64 x.abs = ((e - -1074).toNat * 2 ^ 52 + m : Nat) := by
    rw [ordinal64, unpack_abs, hx]
    rfl
  have hfinite : x.isFinite = true := congrArg UnpackedFloat.isFinite hx
  refine .inr ⟨lt_iff_ordinal64.2 ⟨rfl, (nonNegative64_abs (isNaN_of_isFinite hfinite)).isNaN_eq, ?_⟩,
    hfinite⟩
  have hone : 1 * 2 ^ 52 ≤ (e - -1074).toNat * 2 ^ 52 := Nat.mul_le_mul_right _ (by omega)
  rw [hordinal, hsize]
  omega

/-! ## Scaled numbers -/

end Double

namespace Unpacked

/-- The one number is `2 ^ k` times the other, and both have all their digits, `p + 1` of them. -/
inductive Scaled (p : Nat) (k : Int) : UnpackedFloat → UnpackedFloat → Prop where
  | zero (s : Sign) : Scaled p k (.zero s) (.zero s)
  | finite (s : Sign) {m : Nat} {e : Int} (hm : 0 < m) (hlog : m.log2 = p) :
      Scaled p k (.finite s m e hm) (.finite s m (e + k) hm)

theorem Scaled.symm {p : Nat} {k : Int} {u v : UnpackedFloat} (h : Scaled p k u v) :
    Scaled p (-k) v u := by
  cases h with
  | zero s => exact .zero s
  | @finite s m e hm hlog =>
    have hback := Scaled.finite (k := -k) (e := e + k) s hm hlog
    rwa [Int.add_neg_cancel_right] at hback

theorem Scaled.eq_shift {p : Nat} {k : Int} {u v : UnpackedFloat} (h : Scaled p k u v) :
    v = shift k u := by
  cases h <;> rfl

end Unpacked

section Double

variable {k l : Int} {x x' y y' z z' : Float} {s : Sign} {m : Nat} {e : Int} {a : Accuracy}

/-- The one number is `2 ^ k` times the other, and both have all their digits. -/
def Scaled (k : Int) (x x' : Float) : Prop :=
  Unpacked.Scaled 52 k x.toModel.unpack x'.toModel.unpack

theorem Scaled.shifted (h : Scaled k x x') : Shifted k x x' := Unpacked.Scaled.eq_shift h

theorem Scaled.zero_or_finite (h : Scaled k x x') :
    (∃ s, x.toModel.unpack = .zero s ∧ x'.toModel.unpack = .zero s) ∨
      ∃ s m e hm, x.toModel.unpack = .finite s m e hm ∧
        x'.toModel.unpack = .finite s m (e + k) hm ∧ m.log2 = 52 := by
  rw [Scaled] at h
  generalize x.toModel.unpack = u, x'.toModel.unpack = v at h
  cases h with
  | zero s => exact .inl ⟨s, rfl, rfl⟩
  | finite s hm hlog => exact .inr ⟨s, _, _, hm, rfl, rfl, hlog⟩

theorem scaled_of_zero (hx : x.toModel.unpack = .zero s) (hx' : x'.toModel.unpack = .zero s) :
    Scaled k x x' := by
  rw [Scaled, hx, hx']
  exact .zero s

theorem scaled_of_finite {hm : 0 < m} (hx : x.toModel.unpack = .finite s m e hm)
    (hx' : x'.toModel.unpack = .finite s m (e + k) hm) (hlog : m.log2 = 52) : Scaled k x x' := by
  rw [Scaled, hx, hx']
  exact .finite s hm hlog

theorem scaled_zero (k : Int) : Scaled k 0.0 0.0 := scaled_of_zero rfl rfl

theorem Scaled.isFinite_eq (h : Scaled k x x') : x.isFinite = true := by
  show x.toModel.unpack.isFinite = true
  obtain ⟨s, hs, -⟩ | ⟨s, m, e, hm, hs, -⟩ := h.zero_or_finite <;> rw [hs] <;> rfl

theorem Scaled.symm (h : Scaled k x x') : Scaled (-k) x' x := Unpacked.Scaled.symm h

theorem Scaled.isNaN_eq (h : Scaled k x x') : x.isNaN = false :=
  isNaN_of_isFinite (u := x.toModel.unpack) h.isFinite_eq

theorem Scaled.abs (h : Scaled k x x') : Scaled k x.abs x'.abs := by
  obtain ⟨s, hs, hs'⟩ | ⟨s, m, e, hm, hs, hs', hlog⟩ := h.zero_or_finite
  · exact scaled_of_zero (by rw [unpack_abs, hs]; rfl) (by rw [unpack_abs, hs']; rfl)
  · exact scaled_of_finite (by rw [unpack_abs, hs]; rfl) (by rw [unpack_abs, hs']; rfl) hlog

theorem Scaled.neg (h : Scaled k x x') : Scaled k (-x) (-x') := by
  obtain ⟨s, hs, hs'⟩ | ⟨s, m, e, hm, hs, hs', hlog⟩ := h.zero_or_finite
  · exact scaled_of_zero (by rw [unpack_neg, hs]; rfl) (by rw [unpack_neg, hs']; rfl)
  · exact scaled_of_finite (by rw [unpack_neg, hs]; rfl) (by rw [unpack_neg, hs']; rfl) hlog

/-! ### Rounding -/

/-- What is stored and finite has been stored as it is. -/
theorem unpack_of_isFinite {hm : 0 < m} (hkept : Unpacked.Kept .binary64 m e)
    (hz : z.toModel.unpack = unpack .binary64 (pack .binary64 (.finite s m e hm)))
    (hfinite : z.isFinite = true) : z.toModel.unpack = .finite s m e hm := by
  by_cases h : Storable .binary64 e
  · rw [hz, Unpacked.unpack_pack_kept hkept h]
  · rw [pack_eq_packedInfinity h, unpack_packedInfinity] at hz
    have hno : z.isFinite = (UnpackedFloat.infinity s).isFinite := congrArg UnpackedFloat.isFinite hz
    rw [hno] at hfinite
    cases hfinite

/-- **Numbers that are rounded with all their digits scale**, if they are not too small to keep
them. -/
theorem scaled_of_roundWithAccuracy (hm : 0 < m) (hfull : 52 ≤ m.log2)
    (hlo : -1022 ≤ m.log2 + e) (hlo' : -1022 ≤ m.log2 + (e + k))
    (hz : z.toModel.unpack = unpack .binary64 (pack .binary64 (roundWithAccuracy .binary64 s m e a)))
    (hz' : z'.toModel.unpack
      = unpack .binary64 (pack .binary64 (roundWithAccuracy .binary64 s m (e + k) a)))
    (hfinite : z.isFinite = true) (hfinite' : z'.isFinite = true) : Scaled k z z' := by
  have hcut : e ≤ cut .binary64 m e := by
    rw [cut_binary64]
    omega
  have hcut' : e + k ≤ cut .binary64 m (e + k) := by
    rw [cut_binary64]
    omega
  have hmin : Format.binary64.minExponent = -1074 := rfl
  have hbits : Format.binary64.mantissaBitsWithoutImplicit = 52 := rfl
  obtain ⟨d, f, hd, hround⟩ := exists_finite_of_le hm hcut (by omega) a s
  have hround' : roundWithAccuracy .binary64 s m (e + k) a = .finite s d (f + k) hd := by
    rw [roundWithAccuracy_shift k hfull (by omega) (by omega), hround]
    rfl
  have hkept := (kept_of_roundWithAccuracy hm hcut hround).2
  have hkept' := (kept_of_roundWithAccuracy hm hcut' hround').2
  obtain ⟨hsize, -, -⟩ := size_of_roundWithAccuracy hm hcut hround
  rw [hround] at hz
  rw [hround'] at hz'
  exact scaled_of_finite (unpack_of_isFinite hkept hz hfinite)
    (unpack_of_isFinite hkept' hz' hfinite') (log2_of_kept hd hkept (by omega))

/-- A number that is too small to keep its digits is not rounded to one with all of them. -/
theorem le_log2_of_inRange (hm : 0 < m) (hcut : e ≤ cut .binary64 m e)
    (hz : z.toModel.unpack = unpack .binary64 (pack .binary64 (roundWithAccuracy .binary64 s m e a)))
    (h : InRange z) (hne : (z == 0.0) = false) : -1022 ≤ m.log2 + e := by
  by_contra hsmall
  obtain ⟨t, ht⟩ | ⟨t, d, f, hd, hunpack, hlog, hmany⟩ := h.zero_or_full
  · rw [beq_zero_of_unpack ht] at hne
    cases hne
  have hrounded := rounded_roundWithAccuracy hcut a s
  have hplace : cut .binary64 m e = -1074 := by
    rw [cut_binary64]
    omega
  rw [hplace] at hrounded hcut
  have hfew : digitsLeft m a (-1074 - e).toNat ≤ 2 ^ 52 := by
    have hle := digitsLeft_le m a (-1074 - e).toNat
    have hdiv : m / 2 ^ (-1074 - e).toNat < 2 ^ 52 := by
      rw [Nat.div_lt_iff_lt_mul (Nat.two_pow_pos _), ← Nat.pow_add]
      exact Nat.lt_of_lt_of_le Nat.lt_log2_self (Nat.pow_le_pow_right (by decide) (by omega))
    omega
  rcases roundWithAccuracy_cases .binary64 s m e a with hround | ⟨d', f', hd', hround⟩
  · rw [hround] at hz
    cases hunpack.symm.trans (hz.trans unpack_packedZero)
  have hkept := (kept_of_roundWithAccuracy hm (hplace ▸ hcut) hround).2
  rw [hround] at hz hrounded
  cases hunpack.symm.trans (unpack_of_isFinite hkept hz h.isFinite_eq)
  generalize digitsLeft m a (-1074 - e).toNat = r at hrounded hfew
  cases hrounded with
  | digits hr hlt => omega
  | carry => exact absurd hfew (by decide)

/-- The same for a number in range. -/
theorem scaled_of_inRange (hm : 0 < m) (hfull : 52 ≤ m.log2)
    (hz : z.toModel.unpack = unpack .binary64 (pack .binary64 (roundWithAccuracy .binary64 s m e a)))
    (hz' : z'.toModel.unpack
      = unpack .binary64 (pack .binary64 (roundWithAccuracy .binary64 s m (e + k) a)))
    (h : InRange z) (h' : InRange z') (hne : (z == 0.0) = false) (hne' : (z' == 0.0) = false) :
    Scaled k z z' := by
  have hcut : e ≤ cut .binary64 m e := by
    rw [cut_binary64]
    omega
  have hcut' : e + k ≤ cut .binary64 m (e + k) := by
    rw [cut_binary64]
    omega
  exact scaled_of_roundWithAccuracy hm hfull (le_log2_of_inRange hm hcut hz h hne)
    (le_log2_of_inRange hm hcut' hz' h' hne') hz hz' h.isFinite_eq h'.isFinite_eq

/-! ### Products -/

theorem unpack_mul (x y : Float) : (x * y).toModel.unpack = unpack .binary64
    (pack .binary64 (UnpackedFloat.mul .binary64 x.toModel.unpack y.toModel.unpack)) := rfl

/-- A product in range of numbers that are not zero is not zero. -/
theorem MulInRange.beq_zero_eq (h : MulInRange x y) (hx : ¬ Agree64 x 0.0) (hy : ¬ Agree64 y 0.0) :
    (x * y == 0.0) = false := by
  cases hzero : (x * y == 0.0) with
  | false => rfl
  | true =>
    rcases h.zero hzero with hx0 | hy0
    · exact absurd (Unpacked.Agree.of_beq hx0) hx
    · exact absurd (Unpacked.Agree.of_beq hy0) hy

/-- Products of which a factor is zero. -/
theorem scaled_mul_zero (hx : Shifted k x x') (hy : Shifted l y y') (hfx : x.isFinite = true)
    (hfy : y.isFinite = true)
    (hzero : (∃ s, x.toModel.unpack = .zero s) ∨ ∃ s, y.toModel.unpack = .zero s) :
    Scaled (k + l) (x * y) (x' * y') := by
  obtain ⟨s, hs⟩ := Unpacked.exists_zero_mul .binary64 hfx hfy hzero
  have hs0 := hs 0 0
  rw [Unpacked.shift_zero, Unpacked.shift_zero] at hs0
  refine scaled_of_zero (s := s) ?_ ?_
  · rw [unpack_mul, hs0]
    exact unpack_packedZero
  · rw [unpack_mul, hx, hy, hs]
    exact unpack_packedZero

/-- **Products scale**, if they are in range. -/
theorem Shifted.mul (hx : Shifted k x x') (hy : Scaled l y y') (h : MulInRange x y)
    (h' : MulInRange x' y') : Scaled (k + l) (x * y) (x' * y') := by
  obtain ⟨hfx, hfy⟩ := isFinite_of_mul h.inRange.isFinite_eq
  obtain ⟨s, hs⟩ | ⟨s, m, e, hm, hs⟩ := zero_or_finite (u := x.toModel.unpack) hfx
  · exact scaled_mul_zero hx hy.shifted hfx hfy (.inl ⟨s, hs⟩)
  obtain ⟨t, ht, -⟩ | ⟨t, d, f, hd, ht, ht', hlog⟩ := hy.zero_or_finite
  · exact scaled_mul_zero hx hy.shifted hfx hfy (.inr ⟨t, ht⟩)
  have hs' : x'.toModel.unpack = .finite s m (e + k) hm := by rw [hx, hs]; rfl
  have hexponent : e + k + (f + l) = e + f + (k + l) := by omega
  have hfull : 52 ≤ (m * d).log2 := by
    rw [← hlog, Nat.le_log2 (Nat.mul_pos hm hd).ne']
    exact (Nat.log2_self_le hd.ne').trans (Nat.le_mul_of_pos_left d hm)
  refine scaled_of_inRange (s := s * t) (e := e + f) (a := .exact) (Nat.mul_pos hm hd) hfull ?_ ?_
    h.inRange h'.inRange (h.beq_zero_eq (not_agree64_zero hs) (not_agree64_zero ht))
    (h'.beq_zero_eq (not_agree64_zero hs') (not_agree64_zero ht'))
  · rw [unpack_mul, hs, ht]
    rfl
  · rw [unpack_mul, hs', ht', ← hexponent]
    rfl

theorem mul_comm64 (x y : Float) : x * y = y * x :=
  eq_of_unpack_eq64 (by rw [unpack_mul, unpack_mul, Unpacked.mul_comm])

theorem MulInRange.comm (h : MulInRange x y) : MulInRange y x := by
  refine ⟨mul_comm64 x y ▸ h.inRange, fun hzero => ?_⟩
  rw [mul_comm64] at hzero
  exact (h.zero hzero).symm

/-- A factor that is not scaled. -/
theorem Scaled.const_mul {c : Float} (hx : Scaled k x x') (h : MulInRange c x)
    (h' : MulInRange c x') : Scaled k (c * x) (c * x') := by
  have hscaled := (Shifted.refl c).mul hx h h'
  rwa [Int.zero_add] at hscaled

theorem Scaled.mul_const {c : Float} (hx : Scaled k x x') (h : MulInRange x c)
    (h' : MulInRange x' c) : Scaled k (x * c) (x' * c) := by
  rw [mul_comm64 x, mul_comm64 x']
  exact hx.const_mul h.comm h'.comm

/-! ### Sums -/

theorem unpack_add (x y : Float) : (x + y).toModel.unpack = unpack .binary64
    (pack .binary64 (UnpackedFloat.add .binary64 x.toModel.unpack y.toModel.unpack)) := rfl

/-- A number that has few digits is given all of them. -/
theorem unpack_round_of_few (hm : 0 < m) (hlog : m.log2 ≤ 52) (he : -1074 ≤ e)
    (hz : z.toModel.unpack = unpack .binary64 (pack .binary64 (UnpackedFloat.round .binary64 s m e)))
    (h : InRange z) : z.toModel.unpack = .finite s (m * 2 ^ (52 - m.log2)) (e - (52 - m.log2 : Nat))
      (Nat.mul_pos hm (Nat.two_pow_pos _)) := by
  have htarget : Format.binary64.targetExponent (totalExponent m e) ≤ e := by
    show max ((m.log2 : Int) + 1 + e - (53 : Nat)) (3 - 2 ^ 10 - (53 : Nat)) ≤ e
    omega
  obtain ⟨n, hpos, hcanonical, hround⟩ := round_of_targetExponent_le hm s htarget
  have hplace : e - n = max ((m * 2 ^ n).log2 + (e - n) - (52 : Nat)) (1 - (1023 + 52 : Nat)) :=
    canonical_iff.1 hcanonical
  have hlogn : (m * 2 ^ n).log2 = m.log2 + n := log2_mul_two_pow hm n
  have hlt : m * 2 ^ n < 2 ^ 53 := (Nat.log2_lt hpos.ne').1 (by omega)
  rw [hround] at hz
  have hstored := unpack_of_isFinite (Unpacked.kept_of_canonical hpos hcanonical hlt) hz h.isFinite_eq
  obtain ⟨t, ht⟩ | ⟨t, d, f, hd, ht, hlogd, -⟩ := h.zero_or_full
  · cases hstored.symm.trans ht
  · cases hstored.symm.trans ht
    obtain rfl : n = 52 - m.log2 := by omega
    exact hstored

/-- A number that has many digits is not rounded to zero. -/
theorem beq_zero_of_round (hm : 0 < m) (hlog : 52 ≤ m.log2) (he : -1074 ≤ e)
    (hz : z.toModel.unpack = unpack .binary64 (pack .binary64 (roundWithAccuracy .binary64 s m e a)))
    (hfinite : z.isFinite = true) : (z == 0.0) = false := by
  have hmin : Format.binary64.minExponent = -1074 := rfl
  have hcut : e ≤ cut .binary64 m e := by
    rw [cut_binary64]
    omega
  obtain ⟨d, f, hd, hround⟩ := exists_finite_of_le hm hcut (by omega) a s
  rw [hround] at hz
  exact beq_zero_of_not_agree (not_agree64_zero
    (unpack_of_isFinite (kept_of_roundWithAccuracy hm hcut hround).2 hz hfinite))

theorem scaled_of_round (hm : 0 < m) (he : -1074 ≤ e) (he' : -1074 ≤ e + k)
    (hz : z.toModel.unpack = unpack .binary64 (pack .binary64 (UnpackedFloat.round .binary64 s m e)))
    (hz' : z'.toModel.unpack
      = unpack .binary64 (pack .binary64 (UnpackedFloat.round .binary64 s m (e + k))))
    (h : InRange z) (h' : InRange z') : Scaled k z z' := by
  rcases Nat.le_total m.log2 52 with hlog | hlog
  · have hfew := unpack_round_of_few hm hlog he hz h
    have hfew' := unpack_round_of_few hm hlog he' hz' h'
    have hexponent : e + k - (52 - m.log2 : Nat) = e - (52 - m.log2 : Nat) + k := by omega
    rw [hexponent] at hfew'
    refine scaled_of_finite hfew hfew' ?_
    rw [log2_mul_two_pow hm]
    omega
  · have htarget : ∀ f : Int, f ≤ Format.binary64.targetExponent (totalExponent m f) := by
      intro f
      show f ≤ max ((m.log2 : Int) + 1 + f - (53 : Nat)) (3 - 2 ^ 10 - (53 : Nat))
      omega
    rw [round_of_le_targetExponent s (htarget _)] at hz hz'
    exact scaled_of_inRange hm hlog hz hz' h h' (beq_zero_of_round hm hlog he hz h.isFinite_eq)
      (beq_zero_of_round hm hlog he' hz' h'.isFinite_eq)

theorem scaled_of_normalize {d : Int} (he : -1074 ≤ e) (he' : -1074 ≤ e + k)
    (hz : z.toModel.unpack
      = unpack .binary64 (pack .binary64 (UnpackedFloat.normalize .binary64 d e s)))
    (hz' : z'.toModel.unpack
      = unpack .binary64 (pack .binary64 (UnpackedFloat.normalize .binary64 d (e + k) s)))
    (h : InRange z) (h' : InRange z') : Scaled k z z' := by
  rw [UnpackedFloat.normalize] at hz hz'
  rcases Int.lt_trichotomy d 0 with hd | hd | hd
  · rw [compare_lt_iff_lt.2 hd] at hz hz'
    exact scaled_of_round (by omega) he he' hz hz' h h'
  · rw [compare_eq_iff_eq.2 hd] at hz hz'
    exact scaled_of_zero (hz.trans unpack_packedZero) (hz'.trans unpack_packedZero)
  · rw [compare_gt_iff_gt.2 hd] at hz hz'
    exact scaled_of_round (by omega) he he' hz hz' h h'

theorem exponent_of_unpack {hm : 0 < m} (hx : x.toModel.unpack = .finite s m e hm) :
    -1074 ≤ e ∧ e ≤ 971 := by
  have hwithin := within_of_isFinite (congrArg UnpackedFloat.isFinite hx)
  rw [hx] at hwithin
  cases hwithin with
  | finite _ _ _ hlo hhi => exact ⟨hlo, hhi⟩

/-- **Sums scale**, if they are in range. -/
theorem Scaled.add (hx : Scaled k x x') (hy : Scaled k y y') (h : InRange (x + y))
    (h' : InRange (x' + y')) : Scaled k (x + y) (x' + y') := by
  obtain ⟨s, hs, hs'⟩ | ⟨s, m, e, hm, hs, hs', hlogx⟩ := hx.zero_or_finite
  · obtain ⟨t, ht, ht'⟩ | ⟨t, d, f, hd, ht, ht', hlogy⟩ := hy.zero_or_finite
    · obtain ⟨r, hr⟩ : ∃ r, UnpackedFloat.add .binary64 (.zero s) (.zero t) = .zero r := by
        cases s <;> cases t <;> exact ⟨_, rfl⟩
      refine scaled_of_zero (s := r) ?_ ?_
      · rw [unpack_add, hs, ht, hr]
        exact unpack_packedZero
      · rw [unpack_add, hs', ht', hr]
        exact unpack_packedZero
    · rw [add_eq_right hs (not_agree64_zero ht), add_eq_right hs' (not_agree64_zero ht')]
      exact hy
  · obtain ⟨t, ht, ht'⟩ | ⟨t, d, f, hd, ht, ht', hlogy⟩ := hy.zero_or_finite
    · rw [add_eq_left (not_agree64_zero hs) ht, add_eq_left (not_agree64_zero hs') ht']
      exact hx
    · have he := exponent_of_unpack hs
      have he' := exponent_of_unpack hs'
      have hf := exponent_of_unpack ht
      have hf' := exponent_of_unpack ht'
      have hmin : min (e + k) (f + k) = min e f + k := by omega
      have hleft : e + k - (min e f + k) = e - min e f := by omega
      have hright : f + k - (min e f + k) = f - min e f := by omega
      refine scaled_of_normalize (s := .positive) (e := min e f)
        (d := s.apply (m <<< (e - min e f).toNat : Nat) + t.apply (d <<< (f - min e f).toNat : Nat))
        (by omega) (by omega) ?_ ?_ h h'
      · rw [unpack_add, hs, ht]
        rfl
      · rw [unpack_add, hs', ht', UnpackedFloat.add]
        simp only [hmin, decreaseExponent, hleft, hright]

theorem sub_eq_add_neg64 (x y : Float) : x - y = x + -y := by
  have hsub : (x - y).toModel.unpack = unpack .binary64
    (pack .binary64 (UnpackedFloat.sub .binary64 x.toModel.unpack y.toModel.unpack)) := rfl
  refine eq_of_unpack_eq64 ?_
  rw [hsub, unpack_add, unpack_neg, Unpacked.sub_eq_add_neg]

theorem Scaled.sub (hx : Scaled k x x') (hy : Scaled k y y') (h : InRange (x - y))
    (h' : InRange (x' - y')) : Scaled k (x - y) (x' - y') := by
  rw [sub_eq_add_neg64] at h h' ⊢
  rw [sub_eq_add_neg64]
  exact hx.add hy.neg h h'

/-! ### Roots -/

/-- A number whose size is known is not rounded to infinity. -/
theorem isFinite_of_log2_le (hm : 0 < m) (hcut : e ≤ cut .binary64 m e) (htop : m.log2 + e ≤ 970)
    (hz : z.toModel.unpack
      = unpack .binary64 (pack .binary64 (roundWithAccuracy .binary64 s m e a))) :
    z.isFinite = true := by
  have hmin : Format.binary64.minExponent = -1074 := rfl
  rcases roundWithAccuracy_cases .binary64 s m e a with hround | ⟨d, f, hd, hround⟩
  · rw [hround] at hz
    exact congrArg UnpackedFloat.isFinite (hz.trans unpack_packedZero)
  · obtain ⟨-, hsize, -⟩ := size_of_roundWithAccuracy hm hcut hround
    rw [hround] at hz
    exact (congrArg UnpackedFloat.isFinite hz).trans
      (isFinite_unpack_pack (storable_binary64 (by omega)))

theorem targetExponent_sqrt (hlog : m.log2 = 52) (he : -1074 ≤ e) : min (e.ediv 2)
    (Format.binary64.targetExponent ((totalExponent m e + 1).ediv 2)) = e / 2 - 26 := by
  rw [totalExponent, hlog]
  show min (e / 2) (max ((((52 : Nat) : Int) + 1 + e + 1) / 2 - (53 : Nat)) (3 - 2 ^ 10 - (53 : Nat)))
    = e / 2 - 26
  omega

/-- A root has all its digits. -/
theorem log2_sqrtCore (hlog : m.log2 = 52) (he : -1074 ≤ e) :
    (sqrtCore .binary64 m e).1.log2 = 52 ∧ (sqrtCore .binary64 m e).2.1 = e / 2 - 26 := by
  have hshift : e - 2 * (e / 2 - 26) = e % 2 + 52 := by omega
  have hm : 0 < m := Nat.pos_of_ne_zero fun h0 => by
    rw [h0, Nat.log2_zero] at hlog
    omega
  simp only [sqrtCore, targetExponent_sqrt hlog he, hshift, and_true]
  rw [Nat.shiftLeft_eq, log2_sqrt (Nat.mul_pos hm (Nat.two_pow_pos _)), log2_mul_two_pow hm]
  omega

/-- An even exponent is taken out of a root as half of it. -/
theorem sqrtCore_shift (hlog : m.log2 = 52) (he : -1074 ≤ e) (he' : -1074 ≤ e + (k + k)) :
    sqrtCore .binary64 m (e + (k + k)) = ((sqrtCore .binary64 m e).1,
      (sqrtCore .binary64 m e).2.1 + k, (sqrtCore .binary64 m e).2.2) := by
  have hplace : (e + (k + k)) / 2 - 26 = e / 2 - 26 + k := by omega
  have hshift : e + (k + k) - 2 * (e / 2 - 26 + k) = e - 2 * (e / 2 - 26) := by omega
  simp only [sqrtCore, targetExponent_sqrt hlog he, targetExponent_sqrt hlog he', hplace, hshift]

/-- **Roots scale**, by half of the exponent. -/
theorem Scaled.sqrt (h : Scaled (k + k) x x') (hx : NonNegative64 x) :
    Scaled k (Float.sqrt x) (Float.sqrt x') := by
  obtain ⟨s, hs, hs'⟩ | ⟨s, m, e, hm, hs, hs', hlog⟩ := h.zero_or_finite
  · refine scaled_of_zero (s := s) ?_ ?_
    · rw [unpack_sqrt, hs]
      exact unpack_packedZero
    · rw [unpack_sqrt, hs']
      exact unpack_packedZero
  · obtain rfl : s = .positive := by
      rw [NonNegative64, hs] at hx
      cases hx
      rfl
    have he := exponent_of_unpack hs
    have he' := exponent_of_unpack hs'
    obtain ⟨hroot, hplace⟩ := log2_sqrtCore hlog he.1
    have hshift := sqrtCore_shift hlog he.1 he'.1
    have hz : (Float.sqrt x).toModel.unpack = unpack .binary64 (pack .binary64
        (roundWithAccuracy .binary64 .positive (sqrtCore .binary64 m e).1
          (sqrtCore .binary64 m e).2.1 (sqrtCore .binary64 m e).2.2)) := by
      rw [unpack_sqrt, hs]
      rfl
    have hz' : (Float.sqrt x').toModel.unpack = unpack .binary64 (pack .binary64
        (roundWithAccuracy .binary64 .positive (sqrtCore .binary64 m e).1
          ((sqrtCore .binary64 m e).2.1 + k) (sqrtCore .binary64 m e).2.2)) := by
      rw [unpack_sqrt, hs', UnpackedFloat.sqrt, hshift]
    generalize sqrtCore .binary64 m e = core at hroot hplace hz hz'
    have hpos : 0 < core.1 := Nat.pos_of_ne_zero fun h0 => by
      rw [h0, Nat.log2_zero] at hroot
      omega
    have hcut : core.2.1 ≤ cut .binary64 core.1 core.2.1 := by
      rw [cut_binary64]
      omega
    have hcut' : core.2.1 + k ≤ cut .binary64 core.1 (core.2.1 + k) := by
      rw [cut_binary64]
      omega
    exact scaled_of_roundWithAccuracy hpos hroot.ge (by omega) (by omega) hz hz'
      (isFinite_of_log2_le hpos hcut (by omega) hz) (isFinite_of_log2_le hpos hcut' (by omega) hz')

end Double

end ProductQuantization
