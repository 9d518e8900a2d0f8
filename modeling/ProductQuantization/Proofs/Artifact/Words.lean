import Mathlib.Algebra.Group.Nat.Defs
import ProductQuantization.Artifact.Word

/-!
# Words and their bytes

Writing a word as four bytes and reading four bytes as a word undo each other.  Both are said by
numbers: `toNat_ofBytes` is the number that four bytes make, and the rest is arithmetic.

Stored numbers are words and nothing else, so a list of them is written and read back without any
change of a bit (`takeSingles_bytesOfSingles`), and bytes that come in fours are what is written for
the numbers read from them (`bytesOfSingles_takeSingles`).
-/

set_option autoImplicit false

namespace ProductQuantization
namespace Word

/-! ## One word -/

/-- A number with another one put in front of its bits. -/
theorem or_shiftLeft {a i : Nat} (h : a < 2 ^ i) (b : Nat) : a ||| b <<< i = a + b * 2 ^ i := by
  rw [Nat.or_comm, ← Nat.shiftLeft_add_eq_or_of_lt h, Nat.shiftLeft_eq, Nat.add_comm]

/-- The number that four bytes make. -/
theorem toNat_ofBytes (b0 b1 b2 b3 : UInt8) :
    (ofBytes b0 b1 b2 b3).toNat
      = b0.toNat + b1.toNat * 2 ^ 8 + b2.toNat * 2 ^ 16 + b3.toNat * 2 ^ 24 := by
  have h0 := b0.toNat_lt
  have h1 := b1.toNat_lt
  have h2 := b2.toNat_lt
  have h3 := b3.toNat_lt
  have h01 : b0.toNat + b1.toNat * 2 ^ 8 < 2 ^ 16 := by omega
  have h012 : b0.toNat + b1.toNat * 2 ^ 8 + b2.toNat * 2 ^ 16 < 2 ^ 24 := by omega
  -- no byte is shifted out at the top
  have hshift : ∀ (b : UInt8) (i : Nat), i ≤ 24 → b.toNat <<< i % 2 ^ 32 = b.toNat <<< i := by
    intro b i hi
    have hb := b.toNat_lt
    have hpow : 2 ^ i ≤ 2 ^ 24 := Nat.pow_le_pow_right (by decide) hi
    rw [Nat.shiftLeft_eq]
    refine Nat.mod_eq_of_lt ?_
    calc b.toNat * 2 ^ i ≤ b.toNat * 2 ^ 24 := Nat.mul_le_mul_left _ hpow
      _ < 2 ^ 32 := by omega
  have hbits : (ofBytes b0 b1 b2 b3).toNat
      = b0.toNat ||| b1.toNat <<< 8 ||| b2.toNat <<< 16 ||| b3.toNat <<< 24 := by
    rw [← hshift b1 8 (by decide), ← hshift b2 16 (by decide), ← hshift b3 24 (by decide)]
    rfl
  rw [hbits, or_shiftLeft h0, or_shiftLeft h01, or_shiftLeft h012]

/-- One byte of a word. -/
theorem toNat_byte (w s : UInt32) (i : Nat) (hs : s.toNat = i) (hi : i < 32) :
    (w >>> s).toUInt8.toNat = w.toNat / 2 ^ i % 2 ^ 8 := by
  rw [UInt32.toNat_toUInt8, UInt32.toNat_shiftRight, hs, Nat.mod_eq_of_lt hi,
    Nat.shiftRight_eq_div_pow]

/-- A word is what its bytes make. -/
theorem ofBytes_bytes (w : UInt32) :
    ofBytes w.toUInt8 (w >>> 8).toUInt8 (w >>> 16).toUInt8 (w >>> 24).toUInt8 = w := by
  have hw := w.toNat_lt
  refine UInt32.toNat_inj.1 ?_
  rw [toNat_ofBytes, UInt32.toNat_toUInt8, toNat_byte w 8 8 rfl (by decide),
    toNat_byte w 16 16 rfl (by decide), toNat_byte w 24 24 rfl (by decide)]
  omega

/-- Four bytes are those of the word they make. -/
theorem toBytes_ofBytes (b0 b1 b2 b3 : UInt8) :
    toBytes (ofBytes b0 b1 b2 b3) = [b0, b1, b2, b3] := by
  have h0 := b0.toNat_lt
  have h1 := b1.toNat_lt
  have h2 := b2.toNat_lt
  have h3 := b3.toNat_lt
  have hw := toNat_ofBytes b0 b1 b2 b3
  have hbyte0 : (ofBytes b0 b1 b2 b3).toUInt8 = b0 := by
    rw [← UInt8.toNat_inj, UInt32.toNat_toUInt8]
    omega
  have hbyte1 : (ofBytes b0 b1 b2 b3 >>> 8).toUInt8 = b1 := by
    rw [← UInt8.toNat_inj, toNat_byte _ 8 8 rfl (by decide)]
    omega
  have hbyte2 : (ofBytes b0 b1 b2 b3 >>> 16).toUInt8 = b2 := by
    rw [← UInt8.toNat_inj, toNat_byte _ 16 16 rfl (by decide)]
    omega
  have hbyte3 : (ofBytes b0 b1 b2 b3 >>> 24).toUInt8 = b3 := by
    rw [← UInt8.toNat_inj, toNat_byte _ 24 24 rfl (by decide)]
    omega
  rw [toBytes, hbyte0, hbyte1, hbyte2, hbyte3]

/-- A word is read off the front of its bytes. -/
theorem ofBytes?_toBytes (w : UInt32) (rest : List UInt8) :
    ofBytes? (toBytes w ++ rest) = some (w, rest) := by
  rw [toBytes, List.cons_append, List.cons_append, List.cons_append, List.cons_append,
    List.nil_append, ofBytes?, ofBytes_bytes]

/-- What was read off the front are the bytes of the word. -/
theorem eq_of_ofBytes? {bytes rest : List UInt8} {w : UInt32} (h : ofBytes? bytes = some (w, rest)) :
    bytes = toBytes w ++ rest := by
  unfold ofBytes? at h
  split at h
  · cases h
    rw [toBytes_ofBytes]
    rfl
  · cases h

theorem exists_ofBytes? {bytes : List UInt8} (h : 4 ≤ bytes.length) :
    ∃ w, ofBytes? bytes = some (w, bytes.drop 4) := by
  rcases bytes with _ | ⟨b0, _ | ⟨b1, _ | ⟨b2, _ | ⟨b3, rest⟩⟩⟩⟩
  · cases h
  · exact absurd h (by simp)
  · exact absurd h (by simp)
  · exact absurd h (by simp)
  · exact ⟨_, rfl⟩

@[simp] theorem length_toBytes (w : UInt32) : (toBytes w).length = 4 := rfl

/-! ## Stored numbers -/

/-- **Stored numbers are read back** from their bytes, bit by bit. -/
theorem takeSingles_bytesOfSingles (xs : List Single) : takeSingles (bytesOfSingles xs) = xs := by
  induction xs with
  | nil => rfl
  | cons x xs ih =>
    rw [bytesOfSingles, List.flatMap_cons, toBytes, List.cons_append, List.cons_append,
      List.cons_append, List.cons_append, List.nil_append, takeSingles, ofBytes_bytes]
    exact congrArg (x :: ·) ih

/-- **Bytes in fours are those of the stored numbers** read from them. -/
theorem bytesOfSingles_takeSingles {n : Nat} {bytes : List UInt8} (h : bytes.length = n * 4) :
    bytesOfSingles (takeSingles bytes) = bytes := by
  induction n generalizing bytes with
  | zero =>
    rw [Nat.zero_mul] at h
    rw [List.length_eq_zero_iff.1 h]
    rfl
  | succ n ih =>
    rcases bytes with _ | ⟨b0, _ | ⟨b1, _ | ⟨b2, _ | ⟨b3, rest⟩⟩⟩⟩
    all_goals simp only [List.length_cons, List.length_nil] at h
    · omega
    · omega
    · omega
    · omega
    · have hrest : bytesOfSingles (takeSingles rest) = rest := ih (by omega)
      rw [takeSingles, bytesOfSingles, List.flatMap_cons, toBytes_ofBytes]
      rw [bytesOfSingles] at hrest
      rw [hrest]
      rfl

theorem length_bytesOfSingles (xs : List Single) : (bytesOfSingles xs).length = xs.length * 4 := by
  induction xs with
  | nil => rfl
  | cons x xs ih =>
    rw [bytesOfSingles, List.flatMap_cons, List.length_append, length_toBytes, List.length_cons,
      Nat.succ_mul, Nat.add_comm]
    exact congrArg (· + 4) ih

theorem length_takeSingles {n : Nat} {bytes : List UInt8} (h : bytes.length = n * 4) :
    (takeSingles bytes).length = n := by
  have hlen := length_bytesOfSingles (takeSingles bytes)
  rw [bytesOfSingles_takeSingles h, h] at hlen
  exact (Nat.eq_of_mul_eq_mul_right (by decide) hlen).symm

end Word
end ProductQuantization
