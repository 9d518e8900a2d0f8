import ProductQuantization.Options
import ProductQuantization.Proofs.Outcome

/-!
# What checked options promise

The checks of the options are sequences of guards.  Here they are read as what they promise to the
training that follows: `Split` for the subspaces, and the lemmas `check_eq_ok` for the rest.
-/

set_option autoImplicit false

namespace ProductQuantization

/-- The dimension is positive, and splits evenly into a positive number of subspaces. -/
structure Split (dim subspaces : Nat) : Prop where
  dim_ne_zero : dim ≠ 0
  subspaces_ne_zero : subspaces ≠ 0
  mod_eq_zero : dim % subspaces = 0

theorem checkSplit_eq_ok {dim subspaces : Nat} :
    checkSplit dim subspaces = .ok () ↔ Split dim subspaces := by
  rw [checkSplit, bind_eq_ok]
  constructor
  · rintro ⟨u, hd, h⟩
    obtain ⟨v, hs, hm⟩ := bind_eq_ok.1 h
    exact ⟨by simpa using hd, by simpa using hs, by simpa using hm⟩
  · rintro ⟨hd, hs, hm⟩
    exact ⟨(), by simpa using hd, bind_eq_ok.2 ⟨(), by simpa using hs, by simpa using hm⟩⟩

namespace Split

variable {dim subspaces : Nat}

/-- The subspaces side by side are the whole space. -/
theorem mul_div (h : Split dim subspaces) : subspaces * (dim / subspaces) = dim :=
  Nat.mul_div_cancel' (Nat.dvd_of_mod_eq_zero h.mod_eq_zero)

theorem div_ne_zero (h : Split dim subspaces) : dim / subspaces ≠ 0 := by
  intro h0
  have hdim := h.mul_div
  rw [h0, Nat.mul_zero] at hdim
  exact h.dim_ne_zero hdim.symm

/-- A subspace lies inside the space. -/
theorem block_le (h : Split dim subspaces) {m : Nat} (hm : m < subspaces) :
    m * (dim / subspaces) + dim / subspaces ≤ dim := by
  conv => rhs; rw [← h.mul_div]
  rw [← Nat.succ_mul]
  exact Nat.mul_le_mul_right _ hm

end Split

theorem KMeansOptions.restarts_ne_zero {o : KMeansOptions} (h : o.check = .ok ()) :
    o.restarts ≠ 0 := by
  obtain ⟨u, hu, -⟩ := bind_eq_ok.1 h
  simpa using hu

theorem QuantizerOptions.check_eq_ok {o : QuantizerOptions} {dim : Nat} :
    o.check dim = .ok () ↔
      Split dim o.subspaces ∧ (o.bits ≠ 0 ∧ o.bits ≤ maxBits) ∧ o.kmeans.check = .ok () := by
  rw [check, bind_eq_ok, ← checkSplit_eq_ok]
  constructor
  · rintro ⟨u, hs, h⟩
    obtain ⟨v, hb, hk⟩ := bind_eq_ok.1 h
    exact ⟨hs, by simpa using hb, hk⟩
  · rintro ⟨hs, hb, hk⟩
    exact ⟨(), hs, bind_eq_ok.2 ⟨(), by simpa using hb, hk⟩⟩

theorem RotationOptions.check_eq_ok {o : RotationOptions} {dim : Nat} :
    o.check dim = .ok () ↔
      Split dim o.subspaces ∧ (o.clusters ≠ 0 ∧ o.clusters ≤ maxCodes) ∧ o.kmeans.check = .ok () := by
  rw [check, bind_eq_ok, ← checkSplit_eq_ok]
  constructor
  · rintro ⟨u, hs, h⟩
    obtain ⟨v, hc, hk⟩ := bind_eq_ok.1 h
    exact ⟨hs, by simpa using hc, hk⟩
  · rintro ⟨hs, hc, hk⟩
    exact ⟨(), hs, bind_eq_ok.2 ⟨(), by simpa using hc, hk⟩⟩

end ProductQuantization
