import ProductQuantization.Proofs.Matrix.Rows
import ProductQuantization.Proofs.Number.SignedZero
import ProductQuantization.Rotation.Procrustes

/-!
# The product `Xᵀ · Y`

The solver forms `Xᵀ · Y` as a grid, row after row of `X` and `Y`, in pieces of so many rows that are
added up afterwards.  The grid is square, and each of its entries is a sum that takes nothing but one
column of `X` and one of `Y` (`crossCovariance_ofFn`).  A product whose factor from `X` is zero is not
formed, so it does not matter what the other factor is (`crossCovariance_congr`).
-/

set_option autoImplicit false

namespace ProductQuantization
namespace Procrustes

/-! ## Pieces of a list -/

section Blocks

variable {α : Type} {width : Nat} (hw : 0 < width)

theorem blocks_nil : blocks width hw ([] : List α) = [] := by
  rw [blocks, dif_pos rfl]

theorem blocks_of_ne_nil {xs : List α} (h : xs ≠ []) :
    blocks width hw xs = xs.take width :: blocks width hw (xs.drop width) := by
  rw [blocks, dif_neg h]

/-- The pieces of a list, put together again. -/
theorem flatten_blocks (xs : List α) : (blocks width hw xs).flatten = xs := by
  induction xs using blocks.induct width hw with
  | case1 => rw [blocks_nil, List.flatten_nil]
  | case2 xs hne ih => rw [blocks_of_ne_nil hw hne, List.flatten_cons, ih, List.take_append_drop]

/-- What is in a piece of a list is in the list. -/
theorem mem_of_mem_blocks {xs block : List α} {x : α} (hblock : block ∈ blocks width hw xs)
    (hx : x ∈ block) : x ∈ xs := by
  rw [← flatten_blocks hw xs]
  exact List.mem_flatten.2 ⟨block, hblock, hx⟩

theorem blocks_map {β : Type} (f : α → β) (xs : List α) :
    blocks width hw (xs.map f) = (blocks width hw xs).map (List.map f) := by
  induction xs using blocks.induct width hw with
  | case1 => rw [List.map_nil, blocks_nil, blocks_nil, List.map_nil]
  | case2 xs hne ih =>
    have hmap : xs.map f ≠ [] := fun h => hne (List.map_eq_nil_iff.1 h)
    rw [blocks_of_ne_nil hw hmap, blocks_of_ne_nil hw hne, List.map_cons, ← List.map_take,
      ← List.map_drop, ih]

end Blocks

variable {n d : Nat}

/-! ## The shape of the grid -/

/-- A grid of `d` rows of length `d`. -/
def IsSquare (d : Nat) (g : Grid) : Prop := g.length = d ∧ ∀ row ∈ g, row.length = d

theorem isSquare_zeroGrid (d : Nat) : IsSquare d (zeroGrid d) := by
  refine ⟨List.length_replicate, fun row hrow => ?_⟩
  rw [List.eq_of_mem_replicate hrow, List.length_replicate]

theorem isSquare_addOuter {acc : Grid} {xs ys : Point} (h : IsSquare d acc) (hx : xs.length = d)
    (hy : ys.length = d) : IsSquare d (addOuter acc xs ys) := by
  refine ⟨by rw [addOuter, List.length_zipWith, h.1, hx, Nat.min_self], fun row hrow => ?_⟩
  obtain ⟨i, hi, rfl⟩ := List.mem_iff_getElem.1 hrow
  have hold : ∀ (j : Nat) (hj : j < acc.length), acc[j].length = d := fun j hj =>
    h.2 _ (List.getElem_mem hj)
  simp only [addOuter, List.getElem_zipWith]
  split
  · exact hold i _
  · rw [List.length_zipWith, hold, hy, Nat.min_self]

theorem isSquare_addGrid {a b : Grid} (ha : IsSquare d a) (hb : IsSquare d b) :
    IsSquare d (addGrid a b) := by
  refine ⟨by rw [addGrid, List.length_zipWith, ha.1, hb.1, Nat.min_self], fun row hrow => ?_⟩
  obtain ⟨i, hi, rfl⟩ := List.mem_iff_getElem.1 hrow
  rw [addGrid, List.length_zipWith] at hi
  simp only [addGrid, List.getElem_zipWith, List.length_zipWith]
  rw [ha.2 _ (List.getElem_mem _), hb.2 _ (List.getElem_mem _), Nat.min_self]

/-- The grid of two matrices of one width is square. -/
theorem isSquare_crossCovariance {x y : Matrix} (hcols : x.cols = y.cols) :
    IsSquare x.cols (crossCovariance x y) := by
  have hblock : ∀ block ∈ blocks blockRows (by decide) (x.toRows.zip y.toRows),
      IsSquare x.cols (block.foldl (fun acc p => addOuter acc p.1 p.2) (zeroGrid x.cols)) := by
    intro block hblock
    refine List.foldlRecOn block _ (isSquare_zeroGrid _) fun acc hacc p hp => ?_
    have hpair := List.of_mem_zip (mem_of_mem_blocks _ hblock hp)
    exact isSquare_addOuter hacc (Matrix.length_of_mem_toRows hpair.1)
      ((Matrix.length_of_mem_toRows hpair.2).trans hcols.symm)
  rw [crossCovariance]
  refine List.foldlRecOn _ _ (isSquare_zeroGrid _) fun acc hacc g hg => ?_
  obtain ⟨block, hmem, rfl⟩ := List.mem_map.1 hg
  exact isSquare_addGrid hacc (hblock block hmem)

theorem IsSquare.size_flatten {g : Grid} (h : IsSquare d g) : g.flatten.toArray.size = d * d := by
  have hlen := length_flatMap_of_length (f := id) h.2
  rw [List.size_toArray, ← List.flatMap_id, hlen, h.1]

/-! ## The sum for one entry -/

/-- Add the product of two components, unless the first is zero. -/
def addProduct (s : Float) (x y : Single) : Float :=
  if x.value == 0.0 then s else s + x.toFloat * y.toFloat

theorem addProduct_of_isZero {x : Single} (hx : x.IsZero) (s : Float) (y : Single) :
    addProduct s x y = s := if_pos (Single.beq_zero_iff.2 hx)

theorem blockRows_pos : 0 < blockRows := Nat.succ_pos 511

/-- The part of an entry of `Xᵀ · Y` that comes from some of the rows; `a` is a column of `X` and `b`
one of `Y`. -/
def partialSum (a b : Fin n → Single) (rows : List (Fin n)) : Float :=
  rows.foldl (fun s r => addProduct s (a r) (b r)) 0.0

/-- An entry of `Xᵀ · Y`. -/
def covariance (a b : Fin n → Single) : Float :=
  ((blocks blockRows blockRows_pos (List.finRange n)).map (partialSum a b)).foldl (· + ·) 0.0

/-- Products that are not formed are not missed. -/
theorem covariance_congr {a b b' : Fin n → Single} (h : ∀ r, (a r).IsZero ∨ b r = b' r) :
    covariance a b = covariance a b' := by
  have hstep : (fun s r => addProduct s (a r) (b r)) = fun s r => addProduct s (a r) (b' r) := by
    funext s r
    rcases h r with hzero | heq
    · rw [addProduct_of_isZero hzero, addProduct_of_isZero hzero]
    · rw [heq]
  have hpart : partialSum a b = partialSum a b' := by
    funext rows
    rw [partialSum, partialSum, hstep]
  rw [covariance, covariance, hpart]

/-! ## The grid, entry by entry -/

/-- The grid with the given entries. -/
def gridOf (f : Fin d → Fin d → Float) : Grid := List.ofFn fun i => List.ofFn (f i)

theorem zipWith_ofFn {α β γ : Type} (op : α → β → γ) (a : Fin d → α) (b : Fin d → β) :
    (List.ofFn a).zipWith op (List.ofFn b) = List.ofFn fun i => op (a i) (b i) :=
  List.ext_getElem (by simp) (by simp)

theorem zeroGrid_eq (d : Nat) :
    zeroGrid d = gridOf fun (_ : Fin d) (_ : Fin d) => (0.0 : Float) := by
  rw [zeroGrid, gridOf, List.ofFn_const, List.ofFn_const]

theorem addOuter_gridOf (f : Fin d → Fin d → Float) (xs ys : Fin d → Single) :
    addOuter (gridOf f) (List.ofFn xs) (List.ofFn ys)
      = gridOf fun i j => addProduct (f i j) (xs i) (ys j) := by
  rw [addOuter, gridOf, zipWith_ofFn, gridOf]
  refine congrArg List.ofFn (funext fun i => ?_)
  simp only [addProduct]
  split
  · rfl
  · exact zipWith_ofFn _ _ _

theorem addGrid_gridOf (f g : Fin d → Fin d → Float) :
    addGrid (gridOf f) (gridOf g) = gridOf fun i j => f i j + g i j := by
  simp only [addGrid, gridOf, zipWith_ofFn]

theorem foldl_addOuter (f g : Fin n → Fin d → Single) (rows : List (Fin n))
    (s : Fin d → Fin d → Float) :
    rows.foldl (fun acc r => addOuter acc (List.ofFn (f r)) (List.ofFn (g r))) (gridOf s)
      = gridOf fun i j => rows.foldl (fun t r => addProduct t (f r i) (g r j)) (s i j) := by
  induction rows generalizing s with
  | nil => rfl
  | cons r rows ih =>
    rw [List.foldl_cons, addOuter_gridOf, ih]
    rfl

theorem foldl_addGrid {α : Type} (t : α → Fin d → Fin d → Float) (parts : List α)
    (s : Fin d → Fin d → Float) :
    (parts.map fun p => gridOf (t p)).foldl addGrid (gridOf s)
      = gridOf fun i j => (parts.map fun p => t p i j).foldl (· + ·) (s i j) := by
  induction parts generalizing s with
  | nil => rfl
  | cons p parts ih =>
    rw [List.map_cons, List.foldl_cons, addGrid_gridOf, ih]
    rfl

/-- **The entries of `Xᵀ · Y`.** -/
theorem crossCovariance_ofFn (f g : Fin n → Fin d → Single) :
    crossCovariance (.ofFn n d f) (.ofFn n d g)
      = gridOf fun i j => covariance (fun r => f r i) (fun r => g r j) := by
  by_cases hd : d = 0
  · subst hd
    simp [crossCovariance, Matrix.toRows, blocks_nil, zeroGrid_eq, gridOf]
  · have hzip : (Matrix.ofFn n d f).toRows.zip (Matrix.ofFn n d g).toRows
        = (List.finRange n).map fun r => (List.ofFn (f r), List.ofFn (g r)) := by
      rw [Matrix.toRows_ofFn hd, Matrix.toRows_ofFn hd, List.zip_map']
    simp only [crossCovariance, hzip, blocks_map, List.map_map, Function.comp_def, List.foldl_map,
      Matrix.cols_ofFn, zeroGrid_eq, foldl_addOuter]
    rw [← List.foldl_map (g := addGrid)]
    exact foldl_addGrid _ _ _

/-- Rows of `Y` beside rows of zeros do not matter. -/
theorem crossCovariance_congr {f g g' : Fin n → Fin d → Single}
    (h : ∀ r, (∀ i, (f r i).IsZero) ∨ g r = g' r) :
    crossCovariance (.ofFn n d f) (.ofFn n d g) = crossCovariance (.ofFn n d f) (.ofFn n d g') := by
  rw [crossCovariance_ofFn, crossCovariance_ofFn]
  refine congrArg gridOf (funext fun i => funext fun j => covariance_congr fun r => ?_)
  exact (h r).imp (· i) (congrFun · j)

end Procrustes
end ProductQuantization
