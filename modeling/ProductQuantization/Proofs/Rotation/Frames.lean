import ProductQuantization.Proofs.Outcome
import ProductQuantization.Rotation.Svd

/-!
# From columns to factors

The stages of the factorization, each with a name: the columns and rotations that it starts from
(`start`), the sweeps, and what is read off the columns at the end: their lengths, the order by
length, the tolerance below which a length counts as zero, and the columns of `U` before the gaps are
filled (`seed`).  Columns that are all orthogonal are not touched by a sweep (`sweep_of_settled`).
-/

set_option autoImplicit false

namespace ProductQuantization
namespace Svd

variable {n : Nat} {f : Floors} {frame : Frame n}

/-! ## The start -/

/-- The columns of a matrix that is stored row by row, and no rotations. -/
def start (a : Array Float) (n : Nat) : Frame n where
  work := Vector.ofFn fun j : Fin n => (List.range n).map fun i => a.getD (i * n + j.val) 0.0
  turns := Vector.ofFn fun j : Fin n => unitColumn n j.val

/-- The sum of the squares of all entries. -/
def frobenius (a : Array Float) : Float := sumInOrder (a.toList.map fun x => x * x)

theorem get_start_work (a : Array Float) (j : Fin n) :
    (start a n).work.get j = (List.range n).map fun i => a.getD (i * n + j.val) 0.0 := by
  show (start a n).work[j] = _
  simp [start]

theorem get_start_turns (a : Array Float) (j : Fin n) :
    (start a n).turns.get j = unitColumn n j.val := by
  show (start a n).turns[j] = _
  simp [start]

theorem svd_eq {a : Array Float} (ha : a.size = n * n)
    (hfinite : a.all (·.isFinite) = true) : svd a n =
      match sweeps (floors n (frobenius a)) maxSweeps (start a n) with
      | some frame => .ok (ofFrame frame)
      | none => .error (.numerical (.notConverged n maxSweeps)) := by
  rw [svd, decide_eq_true ha, hfinite]
  rfl

/-! ## Sweeps -/

theorem lt_of_mem_pairs {pq : Fin n × Fin n} (h : pq ∈ pairs n) : pq.1 < pq.2 := by
  simp only [pairs, List.mem_flatMap, List.mem_map, List.mem_filter, decide_eq_true_eq] at h
  obtain ⟨p, -, q, ⟨-, hlt⟩, rfl⟩ := h
  exact hlt

/-- Nothing is done about columns that count as orthogonal. -/
theorem foldl_turn_of_settled {pqs : List (Fin n × Fin n)} {count : Nat}
    (h : ∀ pq ∈ pqs, settled f (products (frame.work.get pq.1) (frame.work.get pq.2)) = true) :
    pqs.foldl (turn f) (frame, count) = (frame, count) := by
  induction pqs with
  | nil => rfl
  | cons pq pqs ih =>
    rw [List.forall_mem_cons] at h
    have hturn : turn f (frame, count) pq = (frame, count) := if_pos h.1
    rw [List.foldl_cons, hturn]
    exact ih h.2

theorem sweep_of_settled
    (h : ∀ p q : Fin n, p < q → settled f (products (frame.work.get p) (frame.work.get q)) = true) :
    sweep f frame = (frame, 0) :=
  foldl_turn_of_settled fun pq hpq => h pq.1 pq.2 (lt_of_mem_pairs hpq)

theorem sweeps_of_sweep {fuel : Nat} (h : sweep f frame = (frame, 0)) :
    sweeps f (fuel + 1) frame = some frame := by
  rw [sweeps, h]
  rfl

theorem zipWith_eq_map (op : Float → Float → Float) (a b : Column) :
    a.zipWith op b = (a.zip b).map fun p => op p.1 p.2 := by
  rw [List.zip, List.map_zipWith]

theorem foldl_zip_mul (a b : Column) (z : Float) :
    (a.zip b).foldl (fun s p => s + p.1 * p.2) z = (a.zipWith (· * ·) b).foldl (· + ·) z := by
  rw [zipWith_eq_map, List.foldl_map]

/-- The inner product of two columns, as it is computed with the lengths. -/
theorem gamma_products (a b : Column) :
    (products a b).gamma = (a.zipWith (· * ·) b).foldl (· + ·) 0 := by
  rw [← foldl_zip_mul, products]
  exact (List.foldl_hom Products.gamma fun _ _ => rfl).symm

/-! ## The end -/

/-- The lengths of the columns. -/
def norms (frame : Frame n) : Vector Float n := frame.work.map norm

/-- The columns from the longest to the shortest. -/
def order (frame : Frame n) : List (Fin n) :=
  (List.finRange n).mergeSort fun i j => rank64 ((norms frame).get j) ≤ rank64 ((norms frame).get i)

/-- The length of the longest column. -/
def largest (frame : Frame n) : Float :=
  ((order frame).map fun j => (norms frame).get j).head?.getD 0.0

/-- The length below which a column counts as zero. -/
def rankTolerance (frame : Frame n) : Float := largest frame * Float.ofNat n * epsilon

/-- A column made a unit vector, unless it counts as zero. -/
def seed (frame : Frame n) (j : Fin n) : Option Column :=
  if (norms frame).get j > rankTolerance frame ∧ (norms frame).get j > 0.0 then
    some (divideBy (frame.work.get j) ((norms frame).get j))
  else none

theorem ofFrame_eq (frame : Frame n) : ofFrame frame =
    { n
      left := complete n [] (orthonormalize [] ((order frame).map (seed frame)))
      values := (order frame).map fun j => (norms frame).get j
      right := (order frame).map fun j => frame.turns.get j } := rfl

theorem get_norms (frame : Frame n) (j : Fin n) : (norms frame).get j = norm (frame.work.get j) := by
  show (norms frame)[j] = norm frame.work[j]
  simp [norms]

theorem perm_order (frame : Frame n) : (order frame).Perm (List.finRange n) :=
  List.mergeSort_perm _ _

theorem length_order (frame : Frame n) : (order frame).length = n :=
  (perm_order frame).length_eq.trans List.length_finRange

theorem nodup_order (frame : Frame n) : (order frame).Nodup :=
  (perm_order frame).nodup_iff.2 (List.nodup_finRange n)

theorem mem_order (frame : Frame n) (j : Fin n) : j ∈ order frame :=
  (perm_order frame).mem_iff.2 (List.mem_finRange j)

/-- The columns are in the order of their lengths, the longest first. -/
theorem pairwise_order (frame : Frame n) :
    (order frame).Pairwise fun i j => rank64 ((norms frame).get j) ≤ rank64 ((norms frame).get i) := by
  have hsorted := @List.pairwise_mergeSort _
    (fun i j => decide (rank64 ((norms frame).get j) ≤ rank64 ((norms frame).get i)))
    (fun i j k hij hjk => decide_eq_true (Nat.le_trans (of_decide_eq_true hjk)
      (of_decide_eq_true hij)))
    (fun i j => by simpa only [Bool.or_eq_true, decide_eq_true_eq] using Nat.le_total _ _)
    (List.finRange n)
  exact hsorted.imp of_decide_eq_true

/-- The longest column is one of the columns, and no column is longer. -/
theorem exists_largest (frame : Frame n) (hn : 0 < n) :
    ∃ j : Fin n, largest frame = (norms frame).get j ∧
      ∀ k : Fin n, rank64 ((norms frame).get k) ≤ rank64 ((norms frame).get j) := by
  have hlen := length_order frame
  have hsorted := pairwise_order frame
  have hmem := mem_order frame
  rw [largest]
  cases horder : order frame with
  | nil =>
    rw [horder, List.length_nil] at hlen
    omega
  | cons j rest =>
    rw [horder] at hsorted hmem
    refine ⟨j, rfl, fun k => ?_⟩
    rcases List.mem_cons.1 (hmem k) with rfl | hk
    · exact Nat.le_refl _
    · exact List.rel_of_pairwise_cons hsorted hk

end Svd
end ProductQuantization
