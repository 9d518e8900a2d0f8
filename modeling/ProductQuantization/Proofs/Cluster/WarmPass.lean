import Mathlib.Data.List.FinRange
import ProductQuantization.Proofs.Cluster.Settled

/-!
# What a warm pass does

A warm pass takes a clustering and moves its centroids once.  `ExactPass` says what it leaves: the
centroid of a cluster is the mean of the points that were its members before, a cluster without
members keeps its centroid to the bit, and everything else belongs to the new centroids.

The pass overwrites the clustering it is made on, and its means come from one loop over the points
in which the clusters take turns.  So there are two things to prove before `refineInPlace_spec`.
`tallies_eq` separates the clusters again: what the loop leaves at a place is the tally of the
members of that cluster, as if there were no others.  `pass_eq` says that nothing has been overwritten
when a pass is refused.

A pass that is not refused leaves a clustering that goes together with the points, and no pass after
it is refused.
-/

set_option autoImplicit false

namespace ProductQuantization
namespace Cluster

/-! ## Members and their mean -/

/-- The points that belong to centroid `k`, in point order. -/
def members (points : Matrix) (assignments : Array Nat) (k : Nat) : List (Fin points.rows) :=
  (List.finRange points.rows).filter fun i => assignments[i.val]? = some k

/-- The sum of component `j` of some points, in double precision and in the given order. -/
def entrySum (points : Matrix) (is : List (Fin points.rows)) (j : Fin points.cols) : Double :=
  is.foldl (fun s i => Double.ofSingle (points.entry i j) + s) .zero

/-- The mean of some points: the sums are divided by the number of points and rounded once. -/
def meanOf (points : Matrix) (is : List (Fin points.rows)) : Point :=
  List.ofFn fun j => (entrySum points is j / Double.ofNat is.length).toSingle

/-- The tally of some points. -/
def tallyOf (points : Matrix) (is : List (Fin points.rows)) : Tally :=
  ⟨is.length, List.ofFn (entrySum points is)⟩

theorem count_tallyOf_eq_zero (points : Matrix) (is : List (Fin points.rows)) :
    (tallyOf points is).count = 0 ↔ is = [] := List.length_eq_zero_iff

theorem mean_tallyOf (points : Matrix) (is : List (Fin points.rows)) :
    (tallyOf points is).mean = meanOf points is := by
  rw [Tally.mean, tallyOf, List.map_ofFn]
  rfl

/-! ## One loop for all clusters -/

/-- A place that a loop modifies again and again holds what the elements with that place make of
it. -/
theorem getElem?_foldl_modify {α β : Type} (f : α → β → β) (xs : List (α × Nat)) (ts : Array β)
    (k : Nat) :
    (xs.foldl (fun ts (a, c) => ts.modify c (f a)) ts)[k]?
      = ts[k]?.map fun t => (xs.filter (·.2 = k)).foldl (fun t x => f x.1 t) t := by
  induction xs generalizing ts with
  | nil => simp
  | cons x xs ih =>
    rw [List.foldl_cons, ih, Array.getElem?_modify]
    by_cases hk : x.2 = k
    · simp [hk, Function.comp_def]
    · simp [hk]

/-- Points are added to a tally component by component. -/
theorem foldl_add (points : Matrix) (is : List (Fin points.rows)) (n : Nat)
    (g : Fin points.cols → Double) :
    is.foldl (fun t i => Tally.add (points.rowAt i) t) ⟨n, List.ofFn g⟩
      = ⟨n + is.length, List.ofFn fun j =>
          is.foldl (fun s i => Double.ofSingle (points.entry i j) + s) (g j)⟩ := by
  induction is generalizing n g with
  | nil => rfl
  | cons i is ih =>
    have hadd : Tally.add (points.rowAt i) ⟨n, List.ofFn g⟩
        = ⟨n + 1, List.ofFn fun j => Double.ofSingle (points.entry i j) + g j⟩ := by
      refine congrArg (Tally.mk (n + 1)) (List.ext_getElem ?_ fun j h1 h2 => ?_)
      · simp
      · simp [Matrix.rowAt]
    rw [List.foldl_cons, hadd, ih, List.length_cons, Nat.add_assoc, Nat.add_comm 1]
    rfl

theorem foldl_add_empty (points : Matrix) (is : List (Fin points.rows)) :
    is.foldl (fun t i => Tally.add (points.rowAt i) t) (Tally.empty points.cols)
      = tallyOf points is := by
  rw [Tally.empty, ← List.ofFn_const, foldl_add, Nat.zero_add]
  rfl

/-- Two lists of one length side by side. -/
theorem zip_eq_map_finRange {α β : Type} {n : Nat} {xs : List α} {ys : List β}
    (hx : xs.length = n) (hy : ys.length = n) :
    xs.zip ys = (List.finRange n).map fun i =>
      (xs.get (i.cast hx.symm), ys.get (i.cast hy.symm)) := by
  refine List.ext_getElem ?_ fun i h1 h2 => ?_
  · rw [List.length_map, List.length_finRange, List.length_zip, hx, hy, Nat.min_self]
  · simp

section Tallies

variable {points : Matrix} {assignments : Array Nat}

/-- The points of a cluster, as the loop comes across them. -/
theorem filter_zip_assignments (hc : points.cols ≠ 0) (hr : points.rows = assignments.size)
    (k : Nat) :
    (points.toRows.zip assignments.toList).filter (·.2 = k)
      = (members points assignments k).map fun i => (points.rowAt i, k) := by
  have hsame : ∀ i : Fin points.rows, assignments[i.val]? = some k
      ↔ assignments.toList.get (i.cast (Array.length_toList.trans hr.symm).symm) = k := fun i => by
    rw [List.get_eq_getElem, Array.getElem_toList, Array.getElem?_eq_getElem (hr ▸ i.isLt),
      Option.some_inj]
    rfl
  rw [zip_eq_map_finRange (Matrix.length_toRows hc) (Array.length_toList.trans hr.symm),
    List.filter_map, members]
  simp only [Function.comp_def, hsame]
  refine List.map_congr_left fun i hi => ?_
  rw [of_decide_eq_true (List.mem_filter.1 hi).2, List.get_eq_getElem, Matrix.getElem_toRows hc]
  rfl

/-- **The tallies of all clusters** are those of their members, each for itself. -/
theorem tallies_eq (hc : points.cols ≠ 0) (hr : points.rows = assignments.size) (n : Nat) :
    tallies n points.cols points assignments
      = Array.ofFn fun k : Fin n => tallyOf points (members points assignments k) := by
  refine Array.ext_getElem? fun k => ?_
  rw [tallies, getElem?_foldl_modify, Array.getElem?_ofFn, Array.getElem?_ofFn]
  by_cases hk : k < n
  · rw [dif_pos hk, dif_pos hk, Option.map_some, filter_zip_assignments hc hr, List.foldl_map,
      foldl_add_empty]
  · rw [dif_neg hk, dif_neg hk, Option.map_none]

/-- The centroids of a pass. -/
theorem toRows_means {centroids : Matrix} (hc : points.cols ≠ 0)
    (hcols : points.cols = centroids.cols) (hr : points.rows = assignments.size) :
    (means (tallies centroids.rows centroids.cols points assignments) centroids).toRows
      = (List.finRange centroids.rows).map fun k : Fin centroids.rows =>
          if members points assignments k = [] then centroids.rowAt k
          else meanOf points (members points assignments k) := by
  have hts : tallies centroids.rows centroids.cols points assignments
      = Array.ofFn fun k : Fin centroids.rows => tallyOf points (members points assignments k) :=
    hcols ▸ tallies_eq hc hr _
  simp only [hts, means, Array.getElem?_ofFn, Fin.is_lt, dite_true, count_tallyOf_eq_zero,
    mean_tallyOf]
  refine Matrix.toRows_stack (hcols ▸ hc) fun row hrow => ?_
  obtain ⟨k, -, rfl⟩ := List.mem_map.1 hrow
  split
  · exact Matrix.length_rowAt _ _
  · rw [meanOf, List.length_ofFn, hcols]

theorem getElem?_toRows_means {centroids : Matrix} (hc : points.cols ≠ 0)
    (hcols : points.cols = centroids.cols) (hr : points.rows = assignments.size)
    (k : Fin centroids.rows) :
    (means (tallies centroids.rows centroids.cols points assignments) centroids).toRows[k.val]?
      = some (if members points assignments k = [] then centroids.rowAt k
          else meanOf points (members points assignments k)) := by
  rw [toRows_means hc hcols hr]
  simp

end Tallies

/-! ## When a pass is refused -/

/-- The points, the centroids and the assignments go together. -/
structure Refinable (points : Matrix) (c : Clustering) : Prop where
  cols_eq : points.cols = c.centroids.cols
  rows_eq : points.rows = c.assignments.size
  assignments_lt : ∀ a ∈ c.assignments, a < c.size

/-- Why a pass is refused: which of the three conditions is the first that fails, and for which
point. -/
inductive Refused (points : Matrix) (c : Clustering) : QuantError → Prop where
  | width (h : points.cols ≠ c.centroids.cols) :
    Refused points c (.dimensionMismatch c.centroids.cols points.cols)
  | count (hcols : points.cols = c.centroids.cols) (h : points.rows ≠ c.assignments.size) :
    Refused points c (.dimensionMismatch c.assignments.size points.rows)
  | stray (hcols : points.cols = c.centroids.cols) (hrows : points.rows = c.assignments.size)
    {row a : Nat} (ha : c.assignments[row]? = some a) (h : c.size ≤ a)
    (hfirst : ∀ i b, i < row → c.assignments[i]? = some b → b < c.size) :
    Refused points c (.invalidParams (.strayAssignment row a c.size))

section Checks

variable {points : Matrix} {c : Clustering}

theorem Refused.not_refinable {e : QuantError} (h : Refused points c e) :
    ¬ Refinable points c := fun hc => by
  cases h with
  | width h => exact h hc.cols_eq
  | count _ h => exact h hc.rows_eq
  | stray _ _ ha h _ =>
    exact Nat.not_lt.2 h (hc.assignments_lt _ (Array.mem_of_getElem? ha))

theorem stray?_eq_some {a row : Nat} : stray? c = some (a, row) ↔
    c.assignments[row]? = some a ∧ c.size ≤ a ∧
      ∀ i b, i < row → c.assignments[i]? = some b → b < c.size := by
  have hfind := @find?_zipIdx_eq_some _ (fun a => decide (c.size ≤ a)) c.assignments.toList a row
  simp only [decide_eq_false_iff_not, Nat.not_le, decide_eq_true_eq,
    Array.getElem?_toList] at hfind
  exact hfind

/-- Either nothing is in the way of a pass, or it is refused for one of the reasons. -/
theorem checkRefinable_cases (points : Matrix) (c : Clustering) :
    (Refinable points c ∧ checkRefinable points c = .ok ()) ∨
      ∃ e, Refused points c e ∧ checkRefinable points c = .error e := by
  rw [checkRefinable]
  by_cases hcols : points.cols = c.centroids.cols
  case neg => exact .inr ⟨_, .width hcols, by simp [hcols]⟩
  by_cases hrows : points.rows = c.assignments.size
  case neg => exact .inr ⟨_, .count hcols hrows, by simp [hcols, hrows]⟩
  cases hstray : stray? c with
  | none => exact .inl ⟨⟨hcols, hrows, stray?_eq_none.1 hstray⟩, by simp [hcols, hrows]⟩
  | some found =>
    obtain ⟨ha, hlt, hfirst⟩ := stray?_eq_some.1 hstray
    exact .inr ⟨_, .stray hcols hrows ha hlt hfirst, by simp [hcols, hrows]⟩

theorem not_refinable_iff : ¬ Refinable points c ↔
    points.cols ≠ c.centroids.cols ∨ points.rows ≠ c.assignments.size ∨
      ∃ a ∈ c.assignments, c.size ≤ a := by
  constructor
  · intro h
    by_contra! hall
    exact h ⟨hall.1, hall.2.1, hall.2.2⟩
  · rintro (h | h | ⟨a, ha, h⟩) hc
    · exact h hc.cols_eq
    · exact h hc.rows_eq
    · exact Nat.not_lt.2 h (hc.assignments_lt a ha)

end Checks

/-! ## A pass in place -/

/-- What a pass answers, and the clustering that is there afterwards. -/
def pass (points : Matrix) (c : Clustering) : Result RefineReport × Clustering :=
  (refineInPlace points).run.run c

/-- **Nothing has been overwritten when a pass is refused**, and otherwise the parts that have been
overwritten are those of the new clustering. -/
theorem pass_eq (points : Matrix) (c : Clustering) :
    pass points c = match refine points c with
      | .ok (report, next) => (.ok report, next)
      | .error e => (.error e, c) := by
  let rest : ExceptT QuantError (StateM Clustering) RefineReport := monadLift (overwrite points)
  have hstart : pass points c
      = (MonadExcept.ofExcept (checkRefinable points c) >>= fun _ => rest).run.run c := rfl
  rcases checkRefinable_cases points c with ⟨-, hok⟩ | ⟨e, -, herror⟩
  · rw [hstart, refine, hok]
    rfl
  · rw [hstart, refine, herror]
    rfl

/-! ## What a pass leaves -/

/-- What the clustering after a pass has to do with the one before it. -/
structure ExactPass (points : Matrix) (c : Clustering) (report : RefineReport)
    (next : Clustering) : Prop where
  rows_eq : next.centroids.rows = c.centroids.rows
  cols_eq : next.centroids.cols = c.centroids.cols
  /-- The centroid of a cluster with members is their mean. -/
  mean : ∀ k, k < c.size → members points c.assignments k ≠ [] →
    next.centroids.toRows[k]? = some (meanOf points (members points c.assignments k))
  /-- A cluster without members keeps its centroid. -/
  kept : ∀ k, k < c.size → members points c.assignments k = [] →
    next.centroids.toRows[k]? = c.centroids.toRows[k]?
  size_assignments : next.assignments.size = points.rows
  /-- Every point is assigned to the nearest of the new centroids. -/
  nearest : ∀ i : Fin points.rows,
    next.assignments[i.val]? = some (nearest (points.rowAt i) next.centroids.toRows).index
  /-- The inertia is the sum of the distances to the new centroids, in point order. -/
  inertia : next.inertia = sumInOrder (List.ofFn fun i =>
    widen (Cluster.nearest (points.rowAt i) next.centroids.toRows).distance)
  emptyClusters : report.emptyClusters
    = (List.finRange c.size).countP fun k : Fin c.size => members points c.assignments k = []
  reassigned : report.reassigned
    = (List.finRange points.rows).countP fun i => next.assignments[i.val]? ≠ c.assignments[i.val]?

theorem countChanges_eq {a b : Array Nat} {n : Nat} (ha : a.size = n) (hb : b.size = n) :
    countChanges a b = (List.finRange n).countP fun i => a[i.val]? ≠ b[i.val]? := by
  rw [countChanges,
    zip_eq_map_finRange (Array.length_toList.trans ha) (Array.length_toList.trans hb),
    List.countP_map]
  refine List.countP_congr fun i _ => ?_
  simp [ha, hb]

theorem countP_tallies {points : Matrix} {assignments : Array Nat} (hc : points.cols ≠ 0)
    (hr : points.rows = assignments.size) (n : Nat) :
    (tallies n points.cols points assignments).toList.countP (·.count = 0)
      = (List.finRange n).countP fun k : Fin n => members points assignments k = [] := by
  rw [tallies_eq hc hr, Array.toList_ofFn, List.ofFn_eq_map, List.countP_map]
  simp only [Function.comp_def, count_tallyOf_eq_zero]

section Passes

variable {points : Matrix} {c : Clustering}

theorem exactPass_of_refine {report : RefineReport} {next : Clustering} (h : Refinable points c)
    (hw : points.cols ≠ 0) (hrefine : refine points c = .ok (report, next)) :
    ExactPass points c report next := by
  obtain ⟨hs, hg⟩ := settled_refine hrefine rfl
  obtain ⟨-, -, hmade⟩ := bind_eq_ok.1 hrefine
  cases hmade
  have hsize := hs.size_assignments hw
  have hrow := getElem?_toRows_means hw h.cols_eq h.rows_eq
  constructor
  case rows_eq => exact hg.rows_eq
  case cols_eq => exact hg.cols_eq.trans h.cols_eq
  case mean => exact fun k hk hne => (hrow ⟨k, hk⟩).trans (congrArg some (if_neg hne))
  case kept =>
    intro k hk hnil
    rw [Matrix.getElem?_toRows (h.cols_eq ▸ hw) ⟨k, hk⟩]
    exact (hrow ⟨k, hk⟩).trans (congrArg some (if_pos hnil))
  case size_assignments => exact hsize
  case nearest => exact hs.getElem?_assignments hw
  case inertia => exact hs.inertia_eq hw
  case emptyClusters =>
    simp only [← h.cols_eq]
    exact countP_tallies hw h.rows_eq c.size
  case reassigned => exact countChanges_eq hsize h.rows_eq.symm

/-- What is left can be refined again: where there is a point there was an old assignment, and it was
to a centroid. -/
theorem refinable_of_refine {report : RefineReport} {next : Clustering} (h : Refinable points c)
    (hw : points.cols ≠ 0) (hrefine : refine points c = .ok (report, next)) :
    Refinable points next := by
  obtain ⟨hs, hg⟩ := settled_refine hrefine rfl
  have hsize := hs.size_assignments hw
  refine ⟨hg.cols_eq.symm, hsize.symm, fun a ha => ?_⟩
  have hpos : 0 < c.assignments.size := by
    rw [← h.rows_eq, ← hsize]
    exact Array.size_pos_of_mem ha
  have hk : 0 < c.size := Nat.zero_lt_of_lt (h.assignments_lt _ (Array.getElem_mem hpos))
  exact hs.assignments_lt (Nat.lt_of_lt_of_eq hk hg.rows_eq.symm) (hg.cols_eq ▸ hw) a ha

/-- **A pass is exact** if it is made, and what is left can be refined again. -/
theorem Refinable.exists_exactPass (h : Refinable points c) (hw : points.cols ≠ 0) :
    ∃ report next, pass points c = (.ok report, next) ∧ ExactPass points c report next ∧
      Refinable points next := by
  obtain ⟨report, next, hrefine⟩ := exists_refine h.cols_eq h.rows_eq h.assignments_lt
  have hpass : pass points c = (.ok report, next) := by rw [pass_eq, hrefine]
  exact ⟨report, next, hpass, exactPass_of_refine h hw hrefine, refinable_of_refine h hw hrefine⟩

/-- The clustering after so many passes. -/
def passes (points : Matrix) : Nat → Clustering → Clustering
  | 0, c => c
  | n + 1, c => passes points n (pass points c).2

theorem Refinable.passes (h : Refinable points c) (hw : points.cols ≠ 0) (n : Nat) :
    Refinable points (passes points n c) := by
  induction n generalizing c with
  | zero => exact h
  | succ n ih =>
    obtain ⟨report, next, hpass, -, hnext⟩ := h.exists_exactPass hw
    rw [Cluster.passes, hpass]
    exact ih hnext

/-- A pass is made or refused. -/
theorem pass_cases (c : Clustering) (hw : points.cols ≠ 0) :
    (∃ report next, pass points c = (.ok report, next) ∧ Refinable points c ∧
      ExactPass points c report next ∧ Refinable points next) ∨
    ∃ e, pass points c = (.error e, c) ∧ Refused points c e := by
  rcases checkRefinable_cases points c with ⟨hc, -⟩ | ⟨e, he, herror⟩
  · obtain ⟨report, next, hpass, hexact, hnext⟩ := hc.exists_exactPass hw
    exact .inl ⟨report, next, hpass, hc, hexact, hnext⟩
  · refine .inr ⟨e, ?_, he⟩
    rw [pass_eq, refine, herror]
    rfl

/-- **A warm pass is exact, or it changes nothing.**  It is refused exactly if the points are not as
wide as the centroids, if there is not one assignment for each of them, or if an assignment is to
none of the centroids; the error says which, and the clustering is what it was.  A pass that is made
is exact, and after it any number of further passes are made. -/
theorem refineInPlace_spec (hw : points.cols ≠ 0) (c : Clustering) :
    ((∃ e, (pass points c).1 = .error e) ↔ points.cols ≠ c.centroids.cols ∨
      points.rows ≠ c.assignments.size ∨ ∃ a ∈ c.assignments, c.size ≤ a) ∧
    (∀ e, (pass points c).1 = .error e → Refused points c e ∧ (pass points c).2 = c) ∧
    (∀ report, (pass points c).1 = .ok report → ExactPass points c report (pass points c).2 ∧
      ∀ n, ∃ again, (pass points (passes points n (pass points c).2)).1 = .ok again) := by
  rw [← not_refinable_iff]
  rcases pass_cases c hw with ⟨report, next, hpass, hc, hexact, hnext⟩ | ⟨e, hpass, he⟩
  · rw [hpass]
    refine ⟨⟨fun ⟨e, h⟩ => (by cases h), fun h => absurd hc h⟩, fun e h => (by cases h),
      fun report' h => ?_⟩
    cases h
    refine ⟨hexact, fun n => ?_⟩
    obtain ⟨again, last, hagain, -⟩ := (hnext.passes hw n).exists_exactPass hw
    exact ⟨again, by rw [hagain]⟩
  · rw [hpass]
    refine ⟨⟨fun _ => he.not_refinable, fun _ => ⟨e, rfl⟩⟩, fun e' h => ?_,
      fun report h => (by cases h)⟩
    cases h
    exact ⟨he, rfl⟩

end Passes

/-- Of the points 0, 1 and 10 the first two have centroid 2 and the third centroid 1.  A pass moves
the two to one half and 10, leaves centroid 0 where it is, and assigns the point 0 to it. -/
theorem refineInPlace_spec_line :
    ∃ next, pass (.stack 1 [[.zero], [.one], [⟨0x41200000⟩]])
        ⟨.stack 1 [[.zero], [.one], [.one]], #[2, 2, 1], 0.0⟩ = (.ok ⟨1, 1⟩, next) ∧
      next.centroids.toRows = [[.zero], [⟨0x41200000⟩], [⟨0x3f000000⟩]] ∧
      next.assignments = #[0, 2, 1] ∧
      ExactPass (.stack 1 [[.zero], [.one], [⟨0x41200000⟩]])
        ⟨.stack 1 [[.zero], [.one], [.one]], #[2, 2, 1], 0.0⟩ ⟨1, 1⟩ next := by
  have hreport : (pass (.stack 1 [[.zero], [.one], [⟨0x41200000⟩]])
      ⟨.stack 1 [[.zero], [.one], [.one]], #[2, 2, 1], 0.0⟩).1 = .ok ⟨1, 1⟩ := by decide +kernel
  have hends : (pass (.stack 1 [[.zero], [.one], [⟨0x41200000⟩]])
        ⟨.stack 1 [[.zero], [.one], [.one]], #[2, 2, 1], 0.0⟩).2.centroids.toRows
        = [[.zero], [⟨0x41200000⟩], [⟨0x3f000000⟩]] ∧
      (pass (.stack 1 [[.zero], [.one], [⟨0x41200000⟩]])
        ⟨.stack 1 [[.zero], [.one], [.one]], #[2, 2, 1], 0.0⟩).2.assignments = #[0, 2, 1] := by
    decide +kernel
  have hexact := ((refineInPlace_spec
    (by decide : (Matrix.stack 1 [[.zero], [.one], [⟨0x41200000⟩]]).cols ≠ 0)
    ⟨.stack 1 [[.zero], [.one], [.one]], #[2, 2, 1], 0.0⟩).2.2 _ hreport).1
  generalize pass _ _ = made at hreport hends hexact ⊢
  obtain ⟨answer, next⟩ := made
  cases hreport
  exact ⟨next, rfl, hends.1, hends.2, hexact⟩

end Cluster
end ProductQuantization
