import Mathlib.Data.List.FinRange
import Mathlib.Data.List.NodupEquivFin
import ProductQuantization.Dataset.Sample
import ProductQuantization.Proofs.Matrix.Rows
import ProductQuantization.Random.Listed

/-!
# No row is sampled twice

`sampleIndices` has three ways to draw numbers, and each of them draws different ones, whatever the
source of random words gives.  What keeps them apart differs.

* **In place** the numbers are only ever swapped, so that all of them stay in the list
  (`perm_shuffleFront`).
* **By Floyd's method** every step adds one number that was not there: the number drawn, or else the
  newest candidate, which is larger than all candidates before it (`exists_perm_floydStep`).  It
  does not matter at which place it is put, nor what the shuffle at the end does.
* **By rejection** a number is kept only if it is new, and as long as numbers are missing a new one
  is found (`exists_fresh`).

So a sample of rows that is smaller than the dataset consists of rows with different indices
(`sampleRows_distinct`).
-/

set_option autoImplicit false

namespace ProductQuantization
namespace IndexSample

variable {σ : Type} [RandomSource σ] {n amount : Nat}

/-- A sample of `amount` numbers: so many, and all of them different. -/
structure IsSample (amount : Nat) (indices : List (Fin n)) : Prop where
  length_eq : indices.length = amount
  nodup : indices.Nodup

/-! ## In place -/

theorem perm_shuffleFront (count i : Nat) (v : Vector (Fin n) n) (s : σ) :
    (shuffleFront count i v s).1.toList.Perm v.toList := by
  induction count generalizing i v s with
  | zero => exact .refl _
  | succ count ih =>
    rw [shuffleFront]
    split
    · rename_i hi
      generalize between i n hi s = drawn
      exact (ih (i + 1) _ drawn.2).trans (Vector.swap_perm hi drawn.1.isLt).toList
    · exact .refl _

theorem isSample_inPlace (h : amount ≤ n) (s : σ) : IsSample amount (inPlace n amount s).1 := by
  have hperm := perm_shuffleFront amount 0 (Vector.ofFn (id : Fin n → Fin n)) s
  rw [Vector.toList_ofFn] at hperm
  have hnodup : (shuffleFront amount 0 (Vector.ofFn id) s).1.toList.Nodup :=
    hperm.nodup_iff.2 (List.nodup_ofFn.2 Function.injective_id)
  exact ⟨by simp [inPlace, h], hnodup.sublist (List.take_sublist _ _)⟩

/-! ## Floyd's method -/

theorem perm_insertBefore {α : Type} [BEq α] [LawfulBEq α] (x : α) {y : α} {xs : List α}
    (h : y ∈ xs) : (insertBefore x y xs).Perm (x :: xs) := by
  induction xs with
  | nil => cases h
  | cons z xs ih =>
    rw [insertBefore]
    split
    · exact .refl _
    · rename_i hne
      have hmem : y ∈ xs := (List.mem_cons.1 h).resolve_left fun heq => hne (by simp [heq])
      exact ((ih hmem).cons z).trans (.swap x z xs)

/-- **A step adds a new number**, one of the candidates. -/
theorem exists_perm_floydStep (short : Bool) {drawn : List (Fin n)} {j : Fin n}
    (h : ∀ k ∈ drawn, k < j) (s : σ) :
    ∃ k, k ∉ drawn ∧ k ≤ j ∧ (floydStep short drawn j s).1.Perm (k :: drawn) := by
  have hj : j ∉ drawn := fun hmem => lt_irrefl j (h j hmem)
  rw [floydStep]
  split
  rename_i t s' _
  dsimp only
  split
  · rename_i hmem
    refine ⟨j, hj, le_refl j, ?_⟩
    dsimp only
    split
    · exact perm_insertBefore j hmem
    · exact List.perm_append_singleton j drawn
  · rename_i hnew
    exact ⟨_, hnew, Nat.le_of_lt_succ t.isLt, List.perm_append_singleton _ drawn⟩

/-- The numbers drawn so far are different, and smaller than the candidates to come. -/
structure Floyd (drawn js : List (Fin n)) : Prop where
  nodup : drawn.Nodup
  lt : ∀ k ∈ drawn, ∀ j ∈ js, k < j
  increasing : js.Pairwise (· < ·)

theorem Floyd.step {drawn js : List (Fin n)} {j : Fin n} (h : Floyd drawn (j :: js)) (short : Bool)
    (s : σ) : Floyd (floydStep short drawn j s).1 js ∧
      (floydStep short drawn j s).1.length = drawn.length + 1 := by
  obtain ⟨k, hnew, hle, hperm⟩ :=
    exists_perm_floydStep short (fun k hk => h.lt k hk j List.mem_cons_self) s
  obtain ⟨hlater, hincreasing⟩ := List.pairwise_cons.1 h.increasing
  refine ⟨⟨hperm.nodup_iff.2 (List.nodup_cons.2 ⟨hnew, h.nodup⟩), fun i hi j' hj' => ?_,
    hincreasing⟩, hperm.length_eq⟩
  rcases List.mem_cons.1 (hperm.mem_iff.1 hi) with rfl | hold
  · exact lt_of_le_of_lt hle (hlater j' hj')
  · exact h.lt i hold j' (List.mem_cons_of_mem _ hj')

/-- **All steps** together add as many new numbers as there are candidates. -/
theorem isSample_floydFrom {drawn js : List (Fin n)} (h : Floyd drawn js) (short : Bool) (s : σ) :
    IsSample (drawn.length + js.length) (floydFrom short js drawn s).1 := by
  induction js generalizing drawn s with
  | nil => exact ⟨rfl, h.nodup⟩
  | cons j js ih =>
    obtain ⟨hstep, hlen⟩ := h.step short s
    have hrest := ih hstep (floydStep short drawn j s).2
    rw [hlen, Nat.add_assoc, Nat.add_comm 1] at hrest
    exact hrest

theorem shuffleBack_succ {α : Type} (i : Nat) (a : Array α) (s : σ) :
    shuffleBack (i + 1) a s
      = shuffleBack i
        (a.swapIfInBounds (i + 1) (Random.below32 (i + 2) (Nat.succ_pos _) s).1.val)
        (Random.below32 (i + 2) (Nat.succ_pos _) s).2 := by
  rfl

theorem perm_shuffleBack {α : Type} (i : Nat) (a : Array α) (s : σ) :
    (shuffleBack i a s).1.toList.Perm a.toList := by
  induction i generalizing a s with
  | zero => exact .refl _
  | succ i ih =>
    rw [shuffleBack_succ]
    refine (ih _ _).trans ?_
    rw [Array.swapIfInBounds_def]
    split
    · split
      · exact (Array.swap_perm _ _).toList
      · exact .refl _
    · exact .refl _

theorem floyd_newcomers (h : amount ≤ n) : Floyd [] (newcomers n amount h) := by
  refine ⟨List.nodup_nil, fun _ hk => (by cases hk), List.pairwise_ofFn.2 fun i j hij => ?_⟩
  exact Nat.add_lt_add_left hij _

theorem isSample_floyd (h : amount ≤ n) (s : σ) : IsSample amount (floyd n amount h s).1 := by
  have hdrawn := isSample_floydFrom (floyd_newcomers h) (decide (amount < 50)) s
  rw [List.length_nil, Nat.zero_add, newcomers, List.length_ofFn, ← newcomers] at hdrawn
  rw [floyd]
  dsimp only
  split
  · exact hdrawn
  · have hperm := perm_shuffleBack (amount - 1)
      (floydFrom (decide (amount < 50)) (newcomers n amount h) [] s).1.toArray
      (floydFrom (decide (amount < 50)) (newcomers n amount h) [] s).2
    exact ⟨hperm.length_eq.trans hdrawn.length_eq, hperm.nodup_iff.2 hdrawn.nodup⟩

/-! ## Rejection -/

/-- Fewer numbers than there are leave one out. -/
theorem exists_not_mem {xs : List (Fin n)} (h : xs.length < n) : ∃ k, k ∉ xs := by
  by_contra hall
  have hsub : List.finRange n ⊆ xs := fun k _ => not_not.1 fun hk => hall ⟨k, hk⟩
  have hle := (List.subperm_of_subset (List.nodup_finRange n) hsub).length_le
  rw [List.length_finRange] at hle
  exact Nat.not_lt.2 hle h

/-- **A new number is found** as long as one is missing. -/
theorem exists_fresh (hn : 0 < n) (drawn : Drawn n) (h : drawn.latestFirst.length < n) (fuel : Nat)
    (s : σ) : ∃ k, (fresh hn drawn fuel s).1 = some k ∧ k ∉ drawn.latestFirst := by
  induction fuel generalizing s with
  | zero =>
    obtain ⟨k, hk⟩ := exists_not_mem h
    have hsome : ((List.finRange n).find? (· ∉ drawn.latestFirst)).isSome = true :=
      List.find?_isSome.2 ⟨k, List.mem_finRange k, decide_eq_true hk⟩
    obtain ⟨j, hj⟩ := Option.isSome_iff_exists.1 hsome
    have hnew := List.find?_some hj
    exact ⟨j, hj, of_decide_eq_true hnew⟩
  | succ fuel ih =>
    rw [fresh]
    dsimp only
    split
    · exact ih _
    · rename_i hnew
      refine ⟨_, rfl, fun hmem => hnew ?_⟩
      rw [Std.HashSet.contains_iff_mem, drawn.mem_seen]
      exact hmem

theorem isSample_rejectionFrom (hn : 0 < n) (count : Nat) (drawn : Drawn n)
    (hnodup : drawn.latestFirst.Nodup) (hle : drawn.latestFirst.length + count ≤ n) (s : σ) :
    IsSample (drawn.latestFirst.length + count) (rejectionFrom hn count drawn s).1 := by
  induction count generalizing drawn s with
  | zero => exact ⟨List.length_reverse, List.nodup_reverse.2 hnodup⟩
  | succ count ih =>
    obtain ⟨k, hk, hnew⟩ := exists_fresh hn drawn (by omega) Random.patience s
    rw [rejectionFrom]
    split
    · rename_i j s' heq
      rw [heq] at hk
      cases hk
      have hrest := ih (drawn.add k) (List.nodup_cons.2 ⟨hnew, hnodup⟩)
        (by rw [Drawn.add, List.length_cons]; omega) s'
      rw [Drawn.add, List.length_cons, Nat.add_assoc, Nat.add_comm 1] at hrest
      exact hrest
    · rename_i s' heq
      rw [heq] at hk
      cases hk

theorem isSample_rejection (hn : 0 < n) (h : amount ≤ n) (s : σ) :
    IsSample amount (rejection n amount hn s).1 := by
  have hdrawn := isSample_rejectionFrom hn amount (.nothing n) List.nodup_nil
    (by simpa [Drawn.nothing] using h) s
  rw [Drawn.nothing, List.length_nil, Nat.zero_add] at hdrawn
  exact hdrawn

/-! ## The choice of method -/

/-- **Whatever the method, the numbers drawn are different**, and as many as asked for. -/
theorem isSample_sampleIndices (h : amount < n) (s : σ) :
    IsSample amount (sampleIndices n amount h s).1 := by
  rw [sampleIndices]
  split
  · exact isSample_inPlace (Nat.le_of_lt h) s
  · exact isSample_floyd (Nat.le_of_lt h) s
  · exact isSample_rejection _ (Nat.le_of_lt h) s

end IndexSample

/-! ## Rows -/

open IndexSample (IsSample)

/-- The rows of a matrix that have the given indices, one below the other. -/
structure Matrix.IsSelection (m : Matrix) (indices : List (Fin m.rows)) (out : Matrix) : Prop where
  rows_eq : out.rows = indices.length
  cols_eq : out.cols = m.cols
  rowAt_eq : ∀ (k : Nat) (hout : k < out.rows) (hk : k < indices.length),
    out.rowAt ⟨k, hout⟩ = m.rowAt indices[k]

theorem Matrix.isSelection_selectRows (m : Matrix) (indices : List (Fin m.rows)) :
    m.IsSelection indices (m.selectRows indices) := by
  refine ⟨List.length_map _, rfl, fun k hout hk => ?_⟩
  have hrow : (indices.map m.rowAt).get ⟨k, hout⟩ = m.rowAt indices[k] := List.getElem_map _
  have hfit : (m.selectRows indices).rowAt ⟨k, hout⟩
      = fitTo m.cols ((indices.map m.rowAt).get ⟨k, hout⟩) := rowAt_stack hout
  rw [hrow, fitTo_eq_self (length_rowAt m _)] at hfit
  exact hfit

section Rows

variable {σ : Type} [RandomSource σ]

/-- **No row is sampled twice.**  A sample at least as large as the dataset is the dataset, and
nothing is drawn for it.  A smaller one consists of the rows at different indices, as many as asked
for: those that are drawn, in the order in which they are drawn.

This includes draws from a source that has `Random.patience` words refused, or old numbers drawn, in a
row.  It would go on being asked for as long as it keeps that up; here the last of these words is
taken, or the least number that is new. -/
theorem sampleRows_distinct (data : Matrix) (size : Nat) (s : σ) :
    (data.rows ≤ size → sampleRows data size s = (data, s)) ∧
    ∀ h : size < data.rows, ∃ (indices : List (Fin data.rows)) (after : σ),
      sampleIndices data.rows size h s = (indices, after) ∧
      indices.length = size ∧ indices.Nodup ∧
      data.IsSelection indices (sampleRows data size s).1 ∧ (sampleRows data size s).2 = after := by
  refine ⟨fun h => dif_pos h, fun h => ?_⟩
  have hsample := IndexSample.isSample_sampleIndices h s
  have hdrawn : sampleRows data size s = (data.selectRows (sampleIndices data.rows size h s).1,
      (sampleIndices data.rows size h s).2) := dif_neg (Nat.not_le.2 h)
  rw [hdrawn]
  exact ⟨_, _, rfl, hsample.length_eq, hsample.nodup, data.isSelection_selectRows _, rfl⟩

end Rows

/-- Of three rows the one in the middle is drawn, and then drawn again: the last one is put before
it instead. -/
theorem sampleRows_distinct_collision :
    sampleRows (.stack 1 [[.zero], [.one], [.nan]]) 3 (ListedSource.ofList [])
        = (.stack 1 [[.zero], [.one], [.nan]], ListedSource.ofList []) ∧
      2 < (Matrix.stack 1 [[.zero], [.one], [.nan]]).rows ∧
      ∃ (indices : List (Fin 3)) (after : ListedSource),
        sampleIndices 3 2 (by decide) (ListedSource.ofList [0x80000000, 0x80000000])
          = (indices, after) ∧
        indices.map Fin.val = [2, 1] ∧ indices.Nodup ∧
        (Matrix.stack 1 [[.zero], [.one], [.nan]]).IsSelection indices
          (sampleRows (.stack 1 [[.zero], [.one], [.nan]]) 2
            (ListedSource.ofList [0x80000000, 0x80000000])).1 := by
  have hwhole := (sampleRows_distinct (.stack 1 [[.zero], [.one], [.nan]]) 3
    (ListedSource.ofList [])).1 (by decide)
  obtain ⟨indices, after, hdrawn, -, hnodup, hrows, -⟩ :=
    (sampleRows_distinct (.stack 1 [[.zero], [.one], [.nan]]) 2
      (ListedSource.ofList [0x80000000, 0x80000000])).2 (by decide)
  have hindices : indices.map Fin.val = [2, 1] := by
    have hfirst := congrArg (fun drawn => drawn.1.map Fin.val) hdrawn
    exact hfirst.symm.trans (by decide +kernel)
  exact ⟨hwhole, by decide, indices, after, hdrawn, hindices, hnodup, hrows⟩

end ProductQuantization
