import ProductQuantization.Proofs.Distance
import ProductQuantization.Proofs.Number.Integers

/-!
# Kernels on integers

The single-precision kernels spread their terms over four running sums.  No term is lost on the way
and none is counted twice (`laneSum_sum`), so all that could come between a kernel and the sum it
should be is rounding.

Rounding leaves integers alone as long as they are small.  So every term brings a budget along, its
size, and a partial sum is exact if the budgets of its terms do not exceed `2 ^ 24`, in whatever
order they are added (`Exact.add`).  A squared distance between vectors of integers, and an inner
product of two, is then the integer that it should be, as it is in the loop from left to right
(`kernels_exact`).
-/

set_option autoImplicit false

namespace ProductQuantization

/-! ## Budgets -/

section Budgets

variable {α : Type} {limit : Nat} {is : α → Int → Prop} {zs : List Int}

/-- An integer with a budget, to which it is exact if the budget is within the limit. -/
structure Exact (limit : Nat) (is : α → Int → Prop) (x : α) (b : Int × Nat) : Prop where
  natAbs_le : b.1.natAbs ≤ b.2
  exact_of_le : b.2 ≤ limit → is x b.1

/-- The budget of a term is its size. -/
def budget (z : Int) : Int × Nat := (z, z.natAbs)

theorem sum_budget (zs : List Int) : (zs.map budget).sum = (zs.sum, (zs.map Int.natAbs).sum) := by
  induction zs with
  | nil => rfl
  | cons z zs ih =>
    rw [List.map_cons, List.sum_cons, ih, List.sum_cons, List.map_cons, List.sum_cons]
    rfl

theorem Exact.zero {x : α} (h : is x 0) : Exact limit is x 0 := ⟨le_rfl, fun _ => h⟩

/-- **A sum is exact if the sizes of its terms do not exceed the limit**, whatever their signs. -/
theorem Exact.add [Add α]
    (hadd : ∀ {x y a b}, is x a → is y b → (a + b).natAbs ≤ limit → is (x + y) (a + b)) {x y : α}
    {b c : Int × Nat} (hx : Exact limit is x b) (hy : Exact limit is y c) :
    Exact limit is (x + y) (b + c) := by
  have hsize : (b + c).1.natAbs ≤ (b + c).2 :=
    (Int.natAbs_add_le b.1 c.1).trans (Nat.add_le_add hx.natAbs_le hy.natAbs_le)
  refine ⟨hsize, fun hle => ?_⟩
  have hboth : b.2 + c.2 ≤ limit := hle
  exact hadd (hx.exact_of_le (by omega)) (hy.exact_of_le (by omega)) (hsize.trans hle)

/-- Terms that are the integers `zs`, as far as these are within the limit. -/
def Terms (limit : Nat) (is : α → Int → Prop) (terms : List α) (zs : List Int) : Prop :=
  List.Forall₂ (fun t z => z.natAbs ≤ limit → is t z) terms zs

theorem Terms.exact {terms : List α} (h : Terms limit is terms zs) :
    List.Forall₂ (Exact limit is) terms (zs.map budget) :=
  List.forall₂_map_right_iff.2 (h.imp fun _ _ ht => ⟨le_rfl, ht⟩)

theorem Exact.sum_budget {x : α} (h : Exact limit is x (zs.map budget).sum)
    (hle : (zs.map Int.natAbs).sum ≤ limit) : is x zs.sum := by
  rw [ProductQuantization.sum_budget] at h
  exact h.exact_of_le hle

/-- The loop from left to right. -/
theorem Terms.is_foldl [Add α]
    (hadd : ∀ {x y a b}, is x a → is y b → (a + b).natAbs ≤ limit → is (x + y) (a + b))
    {start : α} (hstart : is start 0) {terms : List α} (h : Terms limit is terms zs)
    (hle : (zs.map Int.natAbs).sum ≤ limit) : is (terms.foldl (· + ·) start) zs.sum := by
  have hsum := foldl_sum (Exact.add hadd) (Exact.zero hstart) h.exact
  rw [zero_add] at hsum
  exact hsum.sum_budget hle

/-- The four running sums. -/
theorem Terms.isInteger_laneSum {terms : List Single} (h : Terms (2 ^ 24) Single.IsInteger terms zs)
    (hle : (zs.map Int.natAbs).sum ≤ 2 ^ 24) : (laneSum terms).IsInteger zs.sum :=
  have hsum : Exact (2 ^ 24) Single.IsInteger (laneSum terms) (zs.map budget).sum :=
    laneSum_sum (.zero (Single.IsZero.isInteger (.inl rfl)))
      (Exact.add fun hx hy => Single.IsInteger.add hx hy) h.exact
  hsum.sum_budget hle

theorem Terms.isInteger64_sumInOrder {terms : List Float} (h : Terms (2 ^ 53) IsInteger64 terms zs)
    (hle : (zs.map Int.natAbs).sum ≤ 2 ^ 53) : IsInteger64 (sumInOrder terms) zs.sum :=
  h.is_foldl (fun hx hy => IsInteger64.add hx hy) ⟨rfl, by decide +kernel⟩ hle

end Budgets

/-! ## Vectors of integers -/

section Vectors

variable {x y : Point} {p q : List Int}

/-- A vector of stored numbers that are the integers `p`. -/
abbrev Point.Integers (x : Point) (p : List Int) : Prop := List.Forall₂ Single.IsInteger x p

theorem Point.Integers.isFinite (h : x.Integers p) : Point.IsFinite x := by
  induction h with
  | nil => exact List.forall_mem_nil _
  | cons ha _ ih => exact List.forall_mem_cons.2 ⟨ha.isFinite, ih⟩

/-- The squared differences of the components. -/
def squaredGaps (p q : List Int) : List Int := (p.zip q).map fun (a, b) => (a - b) ^ 2

/-- The products of the components. -/
def componentProducts (p q : List Int) : List Int := (p.zip q).map fun (a, b) => a * b

/-- Squares are their own sizes. -/
theorem sum_natAbs_squaredGaps (p q : List Int) :
    ((squaredGaps p q).map Int.natAbs).sum = (squaredGaps p q).sum := by
  have hterm : ∀ z ∈ squaredGaps p q, ((Int.natAbs z : Nat) : Int) = z := by
    intro z hz
    obtain ⟨⟨a, b⟩, -, rfl⟩ := List.mem_map.1 hz
    exact Int.natAbs_of_nonneg (sq_nonneg (a - b))
  rw [Nat.cast_list_sum, List.map_map]
  exact congrArg List.sum ((List.map_congr_left hterm).trans (List.map_id _))

theorem natAbs_sub_le {a b : Int} {limit : Nat} (h : ((a - b) ^ 2).natAbs ≤ limit) :
    (a - b).natAbs ≤ limit := by
  rw [Int.natAbs_pow] at h
  exact (Nat.le_self_pow two_ne_zero _).trans h

theorem isInteger_squaredDifference {s t : Single} {a b : Int} (hs : s.IsInteger a)
    (ht : t.IsInteger b) (h : ((a - b) ^ 2).natAbs ≤ 2 ^ 24) :
    (squaredDifference s t).IsInteger ((a - b) ^ 2) := by
  have hsub := hs.sub ht (natAbs_sub_le h)
  rw [sq] at h ⊢
  exact hsub.mul hsub h

theorem isInteger64_squaredDifference {s t : Single} {a b : Int} (hs : s.IsInteger a)
    (ht : t.IsInteger b) (h : ((a - b) ^ 2).natAbs ≤ 2 ^ 53) :
    IsInteger64 ((s.toFloat - t.toFloat) * (s.toFloat - t.toFloat)) ((a - b) ^ 2) := by
  have hsub := hs.toFloat.sub ht.toFloat (natAbs_sub_le h)
  rw [sq] at h ⊢
  exact hsub.mul hsub h

/-- Terms that are made from two components each. -/
theorem terms_of_zip {α : Type} {limit : Nat} {is : α → Int → Prop} {f : Single → Single → α}
    {g : Int → Int → Int}
    (hf : ∀ {s t a b}, Single.IsInteger s a → t.IsInteger b → (g a b).natAbs ≤ limit →
      is (f s t) (g a b)) (hx : x.Integers p) (hy : y.Integers q) :
    Terms limit is ((x.zip y).map fun (s, t) => f s t) ((p.zip q).map fun (a, b) => g a b) := by
  rw [Terms, List.forall₂_map_left_iff, List.forall₂_map_right_iff]
  exact (forall₂_zip hx hy).imp fun _ _ h => hf h.1 h.2

/-- The squared distance in the loop from left to right. -/
def squaredDistanceInOrder (start : Single) (x y : Point) : Single :=
  ((x.zip y).map fun (a, b) => squaredDifference a b).foldl (· + ·) start

/-- The inner product in the loop from left to right. -/
def dotProductInOrder (start : Single) (x y : Point) : Single :=
  ((x.zip y).map fun (a, b) => a * b).foldl (· + ·) start

theorem pairUp_eq_zip (h : x.length = y.length) : pairUp x y = x.zip y := if_pos h

/-- What the three sums of squared differences are. -/
theorem isInteger_squaredDistance (hlen : x.length = y.length) (hx : x.Integers p)
    (hy : y.Integers q) (hle : (squaredGaps p q).sum ≤ 2 ^ 24) :
    (squaredDistance x y).IsInteger (squaredGaps p q).sum ∧
      IsInteger64 (squaredDistance64 x y) (squaredGaps p q).sum ∧
      ∀ start : Single, start.IsZero →
        (squaredDistanceInOrder start x y).IsInteger (squaredGaps p q).sum := by
  have hsizes : ((squaredGaps p q).map Int.natAbs).sum ≤ 2 ^ 24 := by
    have := sum_natAbs_squaredGaps p q
    omega
  have hterms : Terms (2 ^ 24) Single.IsInteger _ (squaredGaps p q) :=
    terms_of_zip (fun hs ht => isInteger_squaredDifference hs ht) hx hy
  have hterms64 : Terms (2 ^ 53) IsInteger64 _ (squaredGaps p q) :=
    terms_of_zip (fun hs ht => isInteger64_squaredDifference hs ht) hx hy
  refine ⟨?_, hterms64.isInteger64_sumInOrder (hsizes.trans (by decide)), fun start hstart => ?_⟩
  · rw [squaredDistance, pairUp_eq_zip hlen]
    exact hterms.isInteger_laneSum hsizes
  · exact hterms.is_foldl (fun hx hy => Single.IsInteger.add hx hy) hstart.isInteger hsizes

theorem isInteger_dotProduct (hlen : x.length = y.length) (hx : x.Integers p) (hy : y.Integers q)
    (hle : ((componentProducts p q).map Int.natAbs).sum ≤ 2 ^ 24) :
    (dotProduct x y).IsInteger (componentProducts p q).sum ∧
      ∀ start : Single, start.IsZero →
        (dotProductInOrder start x y).IsInteger (componentProducts p q).sum := by
  have hterms : Terms (2 ^ 24) Single.IsInteger _ (componentProducts p q) :=
    terms_of_zip (fun hs ht => Single.IsInteger.mul hs ht) hx hy
  refine ⟨?_, fun start hstart => ?_⟩
  · rw [dotProduct, pairUp_eq_zip hlen]
    exact hterms.isInteger_laneSum hle
  · exact hterms.is_foldl (fun hx hy => Single.IsInteger.add hx hy) hstart.isInteger hle

/-! ## Either way round -/

theorem Single.IsFinite.mul_comm {s t : Single} (hs : s.IsFinite) (ht : t.IsFinite) :
    s * t = t * s := by
  have hvalues : s.value * t.value = t.value * s.value :=
    congrArg (fun u => Float32.ofModel (.pack u)) (Unpacked.mul_comm _ _ _)
  show lift (· * ·) s t = lift (· * ·) t s
  simp only [lift, hs.isNaN_eq, ht.isNaN_eq, hvalues, Bool.false_eq_true, if_false]

/-- **The inner product of finite vectors is the same either way round.** -/
theorem dotProduct_comm (hx : Point.IsFinite x) (hy : Point.IsFinite y) :
    dotProduct x y = dotProduct y x := by
  rw [dotProduct, dotProduct, pairUp_swap x y, List.map_map]
  refine congrArg laneSum (List.map_congr_left fun p hp => ?_)
  obtain ⟨h1, h2⟩ := mem_pairUp hp
  exact (hx _ h1).mul_comm (hy _ h2)

/-! ## The kernels -/

/-- **The kernels on integers.**  Between two vectors of integers of one length, the squared
distance is the integer that it should be, in single and in double precision, if that is at most
`2 ^ 24`; and the inner product is, if the sizes of the products add up to no more.  The loop from
left to right has nothing else for its result.  On finite vectors no kernel tells the two arguments
apart. -/
theorem kernels_exact (x y : Point) :
    (∀ p q, x.length = y.length → x.Integers p → y.Integers q → (squaredGaps p q).sum ≤ 2 ^ 24 →
      (squaredDistance x y).IsInteger (squaredGaps p q).sum ∧
      IsInteger64 (squaredDistance64 x y) (squaredGaps p q).sum ∧
      ∀ start : Single, start.IsZero →
        (squaredDistance x y).sameValue (squaredDistanceInOrder start x y) = true) ∧
    (∀ p q, x.length = y.length → x.Integers p → y.Integers q →
      ((componentProducts p q).map Int.natAbs).sum ≤ 2 ^ 24 →
      (dotProduct x y).IsInteger (componentProducts p q).sum ∧
      ∀ start : Single, start.IsZero →
        (dotProduct x y).sameValue (dotProductInOrder start x y) = true) ∧
    (Point.IsFinite x → Point.IsFinite y →
      squaredDistance x y = squaredDistance y x ∧ dotProduct x y = dotProduct y x) := by
  refine ⟨fun p q hlen hx hy hle => ?_, fun p q hlen hx hy hle => ?_, fun hx hy => ?_⟩
  · obtain ⟨hsingle, hdouble, hloop⟩ := isInteger_squaredDistance hlen hx hy hle
    exact ⟨hsingle, hdouble, fun start hstart => hsingle.sameValue (hloop start hstart)⟩
  · obtain ⟨hsingle, hloop⟩ := isInteger_dotProduct hlen hx hy hle
    exact ⟨hsingle, fun start hstart => hsingle.sameValue (hloop start hstart)⟩
  · exact ⟨squaredDistance_comm hx hy, dotProduct_comm hx hy⟩

/-- One block of eight and three components more, with both signs and a negative zero. -/
def elevenLeft : Point :=
  [⟨0x453b8000⟩, ⟨0xc0400000⟩, ⟨0⟩, ⟨0x40e00000⟩, ⟨0x80000000⟩, ⟨0x42c80000⟩, ⟨0x40a00000⟩,
    ⟨0x3f800000⟩, ⟨0x40000000⟩, ⟨0xbf800000⟩, ⟨0x40800000⟩]

def elevenRight : Point :=
  [⟨0x453b9000⟩, ⟨0x40800000⟩, ⟨0xc0000000⟩, ⟨0x40e00000⟩, ⟨0x40400000⟩, ⟨0x42b40000⟩,
    ⟨0x40a00000⟩, ⟨0xbf800000⟩, ⟨0x40000000⟩, ⟨0x40c00000⟩, ⟨0x40800000⟩]

theorem kernels_exact_eleven :
    (squaredDistance elevenLeft elevenRight).IsInteger 216 ∧
    IsInteger64 (squaredDistance64 elevenLeft elevenRight) 216 ∧
    (dotProduct elevenLeft elevenRight).IsInteger 9012075 ∧
    squaredDistance elevenLeft elevenRight = squaredDistance elevenRight elevenLeft := by
  have hx : elevenLeft.Integers [3000, -3, 0, 7, 0, 100, 5, 1, 2, -1, 4] := by decide +kernel
  have hy : elevenRight.Integers [3001, 4, -2, 7, 3, 90, 5, -1, 2, 6, 4] := by decide +kernel
  obtain ⟨hdistance, hproduct, hcomm⟩ := kernels_exact elevenLeft elevenRight
  obtain ⟨hsingle, hdouble, -⟩ := hdistance _ _ rfl hx hy (by decide)
  obtain ⟨hdot, -⟩ := hproduct _ _ rfl hx hy (by decide)
  exact ⟨hsingle, hdouble, hdot, (hcomm hx.isFinite hy.isFinite).1⟩

end Vectors

end ProductQuantization
