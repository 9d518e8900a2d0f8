import ProductQuantization.Proofs.Number.Bits

/-!
# Numbers up to the sign of a zero

There are two zeros, and arithmetic can tell them apart: it copies the sign of a zero into its
results, and division by a zero has the sign of its infinity from there.  Two numbers *agree* here
if they are equal or both zero.  Not-a-number agrees with itself, and of stored numbers two that are
none agree if they have the same bits.

Sums, differences, products, and quotients by one divisor of numbers that agree agree again, and so
do numbers that agree in the other precision.  A square forgets the sign: the squares of numbers
that agree are equal (`Single.Agree.squared`), bit for bit.

The relation is defined on the exact values that arithmetic works with, `Unpacked.Agree`, and
carried over to the two precisions and to stored numbers of both widths.
-/

set_option autoImplicit false

namespace ProductQuantization

open Float.Model (Format UnpackedFloat)
open Float.Model.UnpackedFloat

/-! ## Exact values -/

namespace Unpacked

/-- Equal, or both zero. -/
inductive Agree : UnpackedFloat → UnpackedFloat → Prop where
  | refl (u : UnpackedFloat) : Agree u u
  | zeros (s t : Sign) : Agree (.zero s) (.zero t)

theorem isNaN_of_beq {u v : UnpackedFloat} (h : u.beq v = true) : u.isNaN = false := by
  have hu := ((beq_iff_ne_notANumber_and_eq u v).1 h).1
  cases u with
  | notANumber => exact absurd rfl hu
  | _ => rfl

namespace Agree

variable {format : Format} {u u' v v' w : UnpackedFloat}

theorem eq_or_zeros (h : Agree u v) : u = v ∨ ∃ s t, u = .zero s ∧ v = .zero t := by
  cases h with
  | refl => exact .inl rfl
  | zeros s t => exact .inr ⟨s, t, rfl, rfl⟩

theorem isNaN_eq (h : Agree u v) : u.isNaN = v.isNaN := by
  cases h <;> rfl

theorem symm (h : Agree u v) : Agree v u := by
  cases h with
  | refl => exact .refl _
  | zeros s t => exact .zeros t s

theorem trans (h : Agree u v) (h' : Agree v w) : Agree u w := by
  obtain rfl | ⟨s, t, rfl, rfl⟩ := h.eq_or_zeros
  · exact h'
  · obtain rfl | ⟨-, r, -, rfl⟩ := h'.eq_or_zeros
    · exact .zeros _ _
    · exact .zeros _ _

theorem beq_eq_true (h : Agree u v) (hu : u.isNaN = false) : u.beq v = true := by
  cases h with
  | refl =>
    have hne : u ≠ .notANumber := fun h0 => by
      rw [h0] at hu
      cases hu
    exact (beq_iff_ne_notANumber_and_eq u u).2 ⟨hne, hne, .inl rfl⟩
  | zeros s t => rfl

theorem of_beq (h : u.beq v = true) : Agree u v := by
  obtain ⟨-, -, rfl | ⟨rfl, rfl⟩ | ⟨rfl, rfl⟩⟩ := (beq_iff_ne_notANumber_and_eq u v).1 h
  · exact .refl _
  · exact .zeros _ _
  · exact .zeros _ _

theorem add (h : Agree u u') (h' : Agree v v') :
    Agree (UnpackedFloat.add format u v) (UnpackedFloat.add format u' v') := by
  cases h with
  | refl u =>
    cases h' with
    | refl v => exact .refl _
    | zeros s t =>
      cases u with
      | zero r => cases r <;> cases s <;> cases t <;> exact .zeros _ _
      | _ => exact .refl _
  | zeros s t =>
    cases h' with
    | refl v =>
      cases v with
      | zero r => cases r <;> cases s <;> cases t <;> exact .zeros _ _
      | _ => exact .refl _
    | zeros s' t' => cases s <;> cases t <;> cases s' <;> cases t' <;> exact .zeros _ _

theorem sub (h : Agree u u') (h' : Agree v v') :
    Agree (UnpackedFloat.sub format u v) (UnpackedFloat.sub format u' v') := by
  cases h with
  | refl u =>
    cases h' with
    | refl v => exact .refl _
    | zeros s t =>
      cases u with
      | zero r => cases r <;> cases s <;> cases t <;> exact .zeros _ _
      | _ => exact .refl _
  | zeros s t =>
    cases h' with
    | refl v =>
      cases v with
      | zero r => cases r <;> cases s <;> cases t <;> exact .zeros _ _
      | _ => exact .refl _
    | zeros s' t' => cases s <;> cases t <;> cases s' <;> cases t' <;> exact .zeros _ _

theorem mul (h : Agree u u') (h' : Agree v v') :
    Agree (UnpackedFloat.mul format u v) (UnpackedFloat.mul format u' v') := by
  cases h with
  | refl u =>
    cases h' with
    | refl v => exact .refl _
    | zeros s t => cases u <;> first | exact .refl _ | exact .zeros _ _
  | zeros s t =>
    cases h' with
    | refl v => cases v <;> first | exact .refl _ | exact .zeros _ _
    | zeros s' t' => exact .zeros _ _

/-- Division by a zero would show the sign of that zero, so the divisor is the same. -/
theorem div (h : Agree u u') :
    Agree (UnpackedFloat.div format u w) (UnpackedFloat.div format u' w) := by
  cases h with
  | refl => exact .refl _
  | zeros s t => cases w <;> first | exact .refl _ | exact .zeros _ _

theorem sqrt (h : Agree u v) :
    Agree (UnpackedFloat.sqrt format u) (UnpackedFloat.sqrt format v) := by
  cases h with
  | refl => exact .refl _
  | zeros s t => exact .zeros s t

theorem abs (h : Agree u v) : Agree u.abs v.abs := by
  cases h <;> exact .refl _

/-- Adding a zero changes at most the sign of a zero. -/
theorem add_zero (u : UnpackedFloat) (s : Sign) : Agree (UnpackedFloat.add format u (.zero s)) u := by
  cases u with
  | zero t => cases t <;> cases s <;> exact .zeros _ _
  | _ => exact .refl _

theorem zero_add (s : Sign) (u : UnpackedFloat) : Agree (UnpackedFloat.add format (.zero s) u) u := by
  cases u with
  | zero t => cases t <;> cases s <;> exact .zeros _ _
  | _ => exact .refl _

theorem sub_zero (u : UnpackedFloat) (s : Sign) : Agree (UnpackedFloat.sub format u (.zero s)) u := by
  cases u with
  | zero t => cases t <;> cases s <;> exact .zeros _ _
  | _ => exact .refl _

/-- A square has no sign. -/
theorem mul_self (h : Agree u v) : UnpackedFloat.mul format u u = UnpackedFloat.mul format v v := by
  cases h with
  | refl => rfl
  | zeros s t => cases s <;> cases t <;> rfl

theorem regrain (h : Agree u v) :
    Agree (ProductQuantization.regrain format u) (ProductQuantization.regrain format v) := by
  cases h with
  | refl => exact .refl _
  | zeros s t => exact .zeros s t

theorem pack (h : Agree u v) :
    Agree (unpack format (UnpackedFloat.pack format u))
      (unpack format (UnpackedFloat.pack format v)) := by
  cases h with
  | refl => exact .refl _
  | zeros s t =>
    show Agree (unpack format (packedZero format s)) (unpack format (packedZero format t))
    rw [unpack_packedZero, unpack_packedZero]
    exact .zeros s t

end Agree
end Unpacked

/-! ## The two precisions -/

/-- Equal, or both zero, in single precision. -/
def Agree32 (x y : Float32) : Prop := Unpacked.Agree x.toModel.unpack y.toModel.unpack

/-- Equal, or both zero, in double precision. -/
def Agree64 (x y : Float) : Prop := Unpacked.Agree x.toModel.unpack y.toModel.unpack

theorem agree32_ofModel {u v : UnpackedFloat} (h : Unpacked.Agree u v) :
    Agree32 (.ofModel (.pack u)) (.ofModel (.pack v)) :=
  @Unpacked.Agree.pack .binary32 u v h

theorem agree64_ofModel {u v : UnpackedFloat} (h : Unpacked.Agree u v) :
    Agree64 (.ofModel (.pack u)) (.ofModel (.pack v)) :=
  @Unpacked.Agree.pack .binary64 u v h

/-- The exact value tells which number it is. -/
theorem eq_of_unpack_eq32 {x y : Float32} (h : x.toModel.unpack = y.toModel.unpack) : x = y :=
  Float32.toBits_inj.1 <| UInt32.toBitVec_inj.1 <|
    (unpack_inj_of_valid x.toModel.valid y.toModel.valid).1 h

theorem eq_of_unpack_eq64 {x y : Float} (h : x.toModel.unpack = y.toModel.unpack) : x = y :=
  Float.toBits_inj.1 <| UInt64.toBitVec_inj.1 <|
    (unpack_inj_of_valid x.toModel.valid y.toModel.valid).1 h

namespace Agree32

variable {x x' y y' : Float32}

theorem refl (x : Float32) : Agree32 x x := Unpacked.Agree.refl _

theorem isNaN_eq (h : Agree32 x y) : x.isNaN = y.isNaN := Unpacked.Agree.isNaN_eq h

theorem add (h : Agree32 x x') (h' : Agree32 y y') : Agree32 (x + y) (x' + y') :=
  agree32_ofModel (Unpacked.Agree.add h h')

theorem sub (h : Agree32 x x') (h' : Agree32 y y') : Agree32 (x - y) (x' - y') :=
  agree32_ofModel (Unpacked.Agree.sub h h')

theorem mul (h : Agree32 x x') (h' : Agree32 y y') : Agree32 (x * y) (x' * y') :=
  agree32_ofModel (Unpacked.Agree.mul h h')

theorem mul_self (h : Agree32 x y) : x * x = y * y :=
  congrArg (fun u => Float32.ofModel (.pack u)) (Unpacked.Agree.mul_self h)

theorem widen (h : Agree32 x y) : Agree64 (widen x) (ProductQuantization.widen y) :=
  agree64_ofModel (Unpacked.Agree.regrain h)

end Agree32

namespace Agree64

variable {x x' y y' : Float}

theorem refl (x : Float) : Agree64 x x := Unpacked.Agree.refl _

theorem isNaN_eq (h : Agree64 x y) : x.isNaN = y.isNaN := Unpacked.Agree.isNaN_eq h

theorem add (h : Agree64 x x') (h' : Agree64 y y') : Agree64 (x + y) (x' + y') :=
  agree64_ofModel (Unpacked.Agree.add h h')

theorem sub (h : Agree64 x x') (h' : Agree64 y y') : Agree64 (x - y) (x' - y') :=
  agree64_ofModel (Unpacked.Agree.sub h h')

theorem symm (h : Agree64 x y) : Agree64 y x := Unpacked.Agree.symm h

theorem trans {z : Float} (h : Agree64 x y) (h' : Agree64 y z) : Agree64 x z :=
  Unpacked.Agree.trans h h'

theorem mul (h : Agree64 x x') (h' : Agree64 y y') : Agree64 (x * y) (x' * y') :=
  agree64_ofModel (Unpacked.Agree.mul h h')

theorem div (h : Agree64 x x') (y : Float) : Agree64 (x / y) (x' / y) :=
  agree64_ofModel (Unpacked.Agree.div h)

theorem sqrt (h : Agree64 x y) : Agree64 (Float.sqrt x) (Float.sqrt y) :=
  agree64_ofModel (Unpacked.Agree.sqrt h)

theorem abs (h : Agree64 x y) : Agree64 x.abs y.abs := agree64_ofModel (Unpacked.Agree.abs h)

theorem mul_self (h : Agree64 x y) : x * x = y * y :=
  congrArg (fun u => Float.ofModel (.pack u)) (Unpacked.Agree.mul_self h)

theorem narrow (h : Agree64 x y) : Agree32 (narrow x) (ProductQuantization.narrow y) :=
  agree32_ofModel (Unpacked.Agree.regrain h)

end Agree64

/-! ## Stored numbers -/

namespace Single

/-- One of the two zeros. -/
def IsZero (x : Single) : Prop := x = zero ∨ x = zero.negate

/-- Equal, or both zero. -/
def Agree (x y : Single) : Prop := x = y ∨ x.IsZero ∧ y.IsZero

theorem IsZero.exists_sign {x : Single} (h : x.IsZero) :
    ∃ s, x.value.toModel.unpack = .zero s := by
  obtain rfl | rfl := h
  · exact ⟨.positive, (unpack_eq_zero_iff_of_valid zero.value.toModel.valid).2 (by decide)⟩
  · exact ⟨.negative, (unpack_eq_zero_iff_of_valid zero.negate.value.toModel.valid).2 (by decide)⟩

theorem IsZero.isNaN_eq {x : Single} (h : x.IsZero) : x.isNaN = false := by
  obtain rfl | rfl := h <;> rfl

theorem isZero_ofValue {x : Float32} {s : Sign} (h : x.toModel.unpack = .zero s) :
    (ofValue x).IsZero := by
  have hbits : x.toModel.toBits.toBitVec = packedZero .binary32 s :=
    (unpack_eq_zero_iff_of_valid x.toModel.valid).1 h
  cases s with
  | positive => exact .inl (congrArg Single.mk (UInt32.toBitVec_inj.1 hbits))
  | negative => exact .inr (congrArg Single.mk (UInt32.toBitVec_inj.1 hbits))

theorem agree_ofValue {x y : Float32} (h : Agree32 x y) : (ofValue x).Agree (ofValue y) := by
  obtain h | ⟨s, t, hx, hy⟩ := Unpacked.Agree.eq_or_zeros h
  · exact .inl (congrArg ofValue (eq_of_unpack_eq32 h))
  · exact .inr ⟨isZero_ofValue hx, isZero_ofValue hy⟩

namespace Agree

variable {x x' y y' : Single}

theorem refl (x : Single) : x.Agree x := .inl rfl

theorem value (h : x.Agree y) : Agree32 x.value y.value := by
  obtain rfl | ⟨hx, hy⟩ := h
  · exact .refl _
  · obtain ⟨s, hs⟩ := hx.exists_sign
    obtain ⟨t, ht⟩ := hy.exists_sign
    rw [Agree32, hs, ht]
    exact .zeros s t

/-- Of numbers that are none the bits agree. -/
theorem eq_of_isNaN (h : x.Agree y) (hx : x.isNaN = true) : x = y :=
  h.resolve_right fun hzero => Bool.false_ne_true (hzero.1.isNaN_eq.symm.trans hx)

theorem isNaN_eq (h : x.Agree y) : x.isNaN = y.isNaN := by
  obtain rfl | ⟨hx, hy⟩ := h
  · rfl
  · rw [hx.isNaN_eq, hy.isNaN_eq]

theorem isZero (h : x.Agree y) (hy : y.IsZero) : x.IsZero := by
  obtain rfl | ⟨hx, -⟩ := h
  · exact hy
  · exact hx

theorem trans {z : Single} (h : x.Agree y) (h' : y.Agree z) : x.Agree z := by
  obtain rfl | ⟨hy, hz⟩ := h'
  · exact h
  · exact .inr ⟨h.isZero hy, hz⟩

/-- An operation on stored numbers keeps agreement where the operation on numbers does. -/
theorem lift {op : Float32 → Float32 → Float32} (hx : x.Agree x') (hy : y.Agree y')
    (hop : Agree32 (op x.value y.value) (op x'.value y'.value)) :
    (lift op x y).Agree (lift op x' y') := by
  rw [Single.lift, Single.lift, ← hx.isNaN_eq, ← hy.isNaN_eq]
  split
  · rename_i hnan
    rw [hx.eq_of_isNaN hnan]
    exact .refl _
  · split
    · rename_i hnan
      rw [hy.eq_of_isNaN hnan]
      exact .refl _
    · simp only [hop.isNaN_eq]
      split
      · exact .refl _
      · exact agree_ofValue hop

theorem add (hx : x.Agree x') (hy : y.Agree y') : (x + y).Agree (x' + y') :=
  lift hx hy (hx.value.add hy.value)

theorem sub (hx : x.Agree x') (hy : y.Agree y') : (x - y).Agree (x' - y') :=
  lift hx hy (hx.value.sub hy.value)

theorem mul (hx : x.Agree x') (hy : y.Agree y') : (x * y).Agree (x' * y') :=
  lift hx hy (hx.value.mul hy.value)

/-- **A square forgets the sign of a zero.** -/
theorem squared (h : x.Agree y) : x * x = y * y := by
  cases hnan : x.isNaN with
  | true => rw [h.eq_of_isNaN hnan]
  | false =>
    show Single.lift (· * ·) x x = Single.lift (· * ·) y y
    simp only [Single.lift, ← h.isNaN_eq, hnan, h.value.mul_self, Bool.false_eq_true, if_false]

theorem toFloat (h : x.Agree y) : Agree64 x.toFloat y.toFloat := h.value.widen

/-- Numbers that agree are equal, unless they are none. -/
theorem sameValue (h : x.Agree y) (hx : x.isNaN = false) : x.sameValue y = true :=
  Unpacked.Agree.beq_eq_true h.value ((Single.isNaN_eq x).symm.trans hx)

end Agree

/-- Numbers that are equal agree. -/
theorem agree_of_sameValue {x y : Single} (h : x.sameValue y = true) : x.Agree y := by
  have hvalue : Agree32 x.value y.value := Unpacked.Agree.of_beq h
  have hx : x.isNaN = false := (Single.isNaN_eq x).trans (Unpacked.isNaN_of_beq h)
  have hy : y.isNaN = false := (Single.isNaN_eq y).trans (hvalue.isNaN_eq.symm.trans
    (Unpacked.isNaN_of_beq h))
  rw [← ofValue_value hx, ← ofValue_value hy]
  exact agree_ofValue hvalue

/-- The two zeros are what equals zero. -/
theorem beq_zero_iff {x : Single} : (x.value == 0.0) = true ↔ x.IsZero := by
  have hzero : (0.0 : Float32) = zero.value := by decide
  rw [hzero]
  refine ⟨fun h => (agree_of_sameValue h).isZero (.inl rfl), fun h => ?_⟩
  exact Agree.sameValue (.inr ⟨h, .inl rfl⟩) h.isNaN_eq

theorem agree_ofFloat {x y : Float} (h : Agree64 x y) : (ofFloat x).Agree (ofFloat y) :=
  agree_ofValue h.narrow

end Single

namespace Double

/-- One of the two zeros. -/
def IsZero (x : Double) : Prop := x = zero ∨ x = ⟨0x8000000000000000⟩

/-- Equal, or both zero. -/
def Agree (x y : Double) : Prop := x = y ∨ x.IsZero ∧ y.IsZero

theorem IsZero.exists_sign {x : Double} (h : x.IsZero) :
    ∃ s, x.value.toModel.unpack = .zero s := by
  obtain rfl | rfl := h
  · exact ⟨.positive, (unpack_eq_zero_iff_of_valid zero.value.toModel.valid).2 (by decide)⟩
  · exact ⟨.negative, (unpack_eq_zero_iff_of_valid (value ⟨_⟩).toModel.valid).2 (by decide)⟩

theorem IsZero.isNaN_eq {x : Double} (h : x.IsZero) : x.isNaN = false := by
  obtain rfl | rfl := h <;> rfl

theorem isZero_ofValue {x : Float} {s : Sign} (h : x.toModel.unpack = .zero s) :
    (ofValue x).IsZero := by
  have hbits : x.toModel.toBits.toBitVec = packedZero .binary64 s :=
    (unpack_eq_zero_iff_of_valid x.toModel.valid).1 h
  cases s with
  | positive => exact .inl (congrArg Double.mk (UInt64.toBitVec_inj.1 hbits))
  | negative => exact .inr (congrArg Double.mk (UInt64.toBitVec_inj.1 hbits))

theorem agree_ofValue {x y : Float} (h : Agree64 x y) : (ofValue x).Agree (ofValue y) := by
  obtain h | ⟨s, t, hx, hy⟩ := Unpacked.Agree.eq_or_zeros h
  · exact .inl (congrArg ofValue (eq_of_unpack_eq64 h))
  · exact .inr ⟨isZero_ofValue hx, isZero_ofValue hy⟩

namespace Agree

variable {x x' y y' : Double}

theorem refl (x : Double) : x.Agree x := .inl rfl

theorem value (h : x.Agree y) : Agree64 x.value y.value := by
  obtain rfl | ⟨hx, hy⟩ := h
  · exact .refl _
  · obtain ⟨s, hs⟩ := hx.exists_sign
    obtain ⟨t, ht⟩ := hy.exists_sign
    rw [Agree64, hs, ht]
    exact .zeros s t

/-- Of numbers that are none the bits agree. -/
theorem eq_of_isNaN (h : x.Agree y) (hx : x.isNaN = true) : x = y :=
  h.resolve_right fun hzero => Bool.false_ne_true (hzero.1.isNaN_eq.symm.trans hx)

theorem isNaN_eq (h : x.Agree y) : x.isNaN = y.isNaN := by
  obtain rfl | ⟨hx, hy⟩ := h
  · rfl
  · rw [hx.isNaN_eq, hy.isNaN_eq]

/-- An operation on stored numbers keeps agreement where the operation on numbers does. -/
theorem lift {op : Float → Float → Float} (hx : x.Agree x') (hy : y.Agree y')
    (hop : Agree64 (op x.value y.value) (op x'.value y'.value)) :
    (lift op x y).Agree (lift op x' y') := by
  rw [Double.lift, Double.lift, ← hx.isNaN_eq, ← hy.isNaN_eq]
  split
  · rename_i hnan
    rw [hx.eq_of_isNaN hnan]
    exact .refl _
  · split
    · rename_i hnan
      rw [hy.eq_of_isNaN hnan]
      exact .refl _
    · simp only [hop.isNaN_eq]
      split
      · exact .refl _
      · exact agree_ofValue hop

theorem add (hx : x.Agree x') (hy : y.Agree y') : (x + y).Agree (x' + y') :=
  lift hx hy (hx.value.add hy.value)

theorem div (hx : x.Agree x') (y : Double) : (x / y).Agree (x' / y) :=
  lift hx (.refl y) (hx.value.div y.value)

theorem toSingle (h : x.Agree y) : x.toSingle.Agree y.toSingle := by
  cases hnan : x.isNaN with
  | true =>
    rw [h.eq_of_isNaN hnan]
    exact .refl _
  | false =>
    simp only [Double.toSingle, ← h.isNaN_eq, hnan]
    exact Single.agree_ofFloat h.value

end Agree

theorem agree_ofSingle {x y : Single} (h : x.Agree y) : (ofSingle x).Agree (ofSingle y) := by
  cases hnan : x.isNaN with
  | true =>
    rw [h.eq_of_isNaN hnan]
    exact .refl _
  | false =>
    simp only [ofSingle, ← h.isNaN_eq, hnan]
    exact agree_ofValue h.toFloat

end Double
end ProductQuantization
