import ProductQuantization.Proofs.Distance.LaneSums
import ProductQuantization.Proofs.Matrix.Agreement
import ProductQuantization.Proofs.Number.NonNegative

/-!
# Squared distances

A squared distance is a sum of squares.  Whatever the two vectors hold, it is not negative if it is
a number (`unsigned_squaredDistance`), and that it is if one of them is finite and the other has
numbers only (`nonNegative_squaredDistance_numbers`).  Between two finite vectors it is the same in
either direction (`squaredDistance_comm`).  From a finite vector to one that is equal to it the
squared distance is zero, and the signs of zeros play no part in that (`squaredDistance_of_agree`).
-/

set_option autoImplicit false

namespace ProductQuantization

/-! ## Distances -/

section Distances

variable {x y : Point}

/-- A vector of finite numbers. -/
abbrev Point.IsFinite (x : Point) : Prop := ∀ a ∈ x, a.IsFinite

theorem mem_pairUp {p : Single × Single} (h : p ∈ pairUp x y) : p.1 ∈ x ∧ p.2 ∈ y := by
  rw [pairUp] at h
  split at h
  · exact List.of_mem_zip h
  · rcases List.mem_append.1 h with h | h
    · obtain ⟨h1, h2⟩ := List.of_mem_zip h
      exact ⟨List.mem_of_mem_take h1, List.mem_of_mem_take h2⟩
    · obtain ⟨h1, h2⟩ := List.of_mem_zip h
      exact ⟨List.mem_of_mem_drop h1, List.mem_of_mem_drop h2⟩

/-- A squared distance is never below zero, whatever the vectors are. -/
theorem unsigned_squaredDistance (x y : Point) : (squaredDistance x y).Unsigned := by
  refine laneSum_induction (P := Single.Unsigned) (.inr Single.nonNegative_zero)
    (fun _ _ => Single.Unsigned.add) ?_
  intro t ht
  obtain ⟨p, -, rfl⟩ := List.mem_map.1 ht
  exact Single.unsigned_mul_self _

/-- Distances from a finite vector to one of numbers are numbers, and not negative. -/
theorem nonNegative_squaredDistance_numbers (hx : Point.IsFinite x)
    (hy : ∀ a ∈ y, a.isNaN = false) : (squaredDistance x y).NonNegative := by
  refine laneSum_induction Single.nonNegative_zero (fun _ _ => Single.NonNegative.add) ?_
  intro t ht
  obtain ⟨p, hp, rfl⟩ := List.mem_map.1 ht
  obtain ⟨h1, h2⟩ := mem_pairUp hp
  exact Single.nonNegative_mul_self ((hx _ h1).isNaN_sub_number (hy _ h2))

/-- **Distances between finite vectors are numbers, and not negative.** -/
theorem nonNegative_squaredDistance (hx : Point.IsFinite x) (hy : Point.IsFinite y) :
    (squaredDistance x y).NonNegative :=
  nonNegative_squaredDistance_numbers hx fun a ha => (hy a ha).isNaN_eq

theorem squaredDistance_self (hx : Point.IsFinite x) : squaredDistance x x = .zero := by
  refine laneSum_induction (P := (· = Single.zero)) rfl ?_ ?_
  · rintro _ _ rfl rfl
    rfl
  · intro t ht
    obtain ⟨p, hp, rfl⟩ := List.mem_map.1 ht
    rw [pairUp, if_pos rfl, List.zip, List.zipWith_self] at hp
    obtain ⟨a, ha, rfl⟩ := List.mem_map.1 hp
    have hsub : a - a = .zero := (hx a ha).sub_self
    show (a - a) * (a - a) = .zero
    rw [hsub]
    rfl

theorem pairUp_swap (x y : Point) : pairUp y x = (pairUp x y).map Prod.swap := by
  rw [pairUp, pairUp]
  by_cases hlen : x.length = y.length
  · rw [if_pos hlen, if_pos hlen.symm, List.zip_swap]
  · rw [if_neg hlen, if_neg (Ne.symm hlen), List.map_append, List.zip_swap, List.zip_swap]

/-- **The distance between finite vectors is the same in either direction.** -/
theorem squaredDistance_comm (hx : Point.IsFinite x) (hy : Point.IsFinite y) :
    squaredDistance x y = squaredDistance y x := by
  rw [squaredDistance, squaredDistance, pairUp_swap x y, List.map_map]
  refine congrArg laneSum (List.map_congr_left fun p hp => ?_)
  obtain ⟨h1, h2⟩ := mem_pairUp hp
  exact (hx _ h1).squared_sub_comm (hy _ h2)

/-- Between finite vectors that are equal there is no distance. -/
theorem squaredDistance_of_agree (hx : Point.IsFinite x) (h : Point.Agree x y) :
    squaredDistance x y = .zero :=
  (squaredDistance_eq (Point.Agree.refl x) h).symm.trans (squaredDistance_self hx)

/-! ## Vectors that are equal -/

/-- Equality of numbers, component for component: the two zeros are equal. -/
abbrev Point.SameValues (x y : Point) : Prop := List.Forall₂ (fun a b => a.sameValue b = true) x y

theorem Point.SameValues.agree (h : Point.SameValues x y) : Point.Agree x y :=
  h.imp fun _ _ => Single.agree_of_sameValue

theorem Point.IsFinite.sameValues_self (hx : Point.IsFinite x) : Point.SameValues x x :=
  List.forall₂_same.2 fun a ha => (Single.Agree.refl a).sameValue (hx a ha).isNaN_eq

end Distances
end ProductQuantization
