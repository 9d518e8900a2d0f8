import Mathlib.Data.List.FinRange
import ProductQuantization.Proofs.Cluster.Numbers
import ProductQuantization.Proofs.Distance
import ProductQuantization.Proofs.Number.MonotoneSum
import ProductQuantization.Random.Listed

/-!
# No point is chosen twice

The points that k-means starts from are drawn one after the other, and after each draw the distance of
every point to the nearest one chosen so far is brought up to date (`Shortest`).  While one of these
distances is positive, the next point is drawn among those at a positive distance, and is therefore
apart from all points before it.  Only when there is no distance left is a point drawn uniformly
(`Draw`).

The random threshold plays no part in this.  It is a fraction of a rounded sum that may be infinite,
and it may be zero, past the last running sum, or not a number: whatever it is, a point that the scan
stops at has a positive distance, and if it stops at none, the last point at a positive distance is
taken.  Two facts about sums are needed.  The sum of the distances is zero only if all of them are,
whatever is rounded off on the way; and no distance is missing, because the points are finite.
-/

set_option autoImplicit false

namespace ProductQuantization
namespace Seeding

/-! ## One draw -/

section Draws

variable {n : Nat} {ds : Distances n}

/-- The scan stops at a positive distance only. -/
theorem mem_of_reach? {threshold sum : Float} {i : Fin n} (h : reach? threshold sum ds = some i) :
    ∃ d, (i, d) ∈ ds ∧ 0 < d := by
  induction ds generalizing sum with
  | nil => cases h
  | cons p ds ih =>
    rw [reach?] at h
    split at h
    · rename_i hstop
      cases h
      exact ⟨p.2, List.mem_cons_self, hstop.1⟩
    · obtain ⟨d, hd, hpos⟩ := ih h
      exact ⟨d, List.mem_cons_of_mem _ hd, hpos⟩

theorem mem_of_lastApart? {i : Fin n} (h : lastApart? ds = some i) : ∃ d, (i, d) ∈ ds ∧ 0 < d := by
  obtain ⟨⟨j, d⟩, hlast, rfl⟩ := Option.map_eq_some_iff.1 h
  obtain ⟨hmem, hpos⟩ := List.mem_filter.1 (List.mem_of_getLast? hlast)
  exact ⟨d, hmem, of_decide_eq_true hpos⟩

theorem exists_lastApart? (h : ∃ p ∈ ds, 0 < p.2) : ∃ i, lastApart? ds = some i := by
  obtain ⟨p, hp, hpos⟩ := h
  cases hlast : lastApart? ds with
  | some i => exact ⟨i, rfl⟩
  | none =>
    rw [lastApart?, Option.map_eq_none_iff, List.getLast?_eq_none_iff,
      List.filter_eq_nil_iff] at hlast
    exact absurd (decide_eq_true hpos) (hlast p hp)

/-- **A point at a positive distance is found if there is one**, whatever the threshold. -/
theorem exists_found (h : ∃ p ∈ ds, 0 < p.2) (threshold : Float) :
    ∃ i d, (reach? threshold 0.0 ds <|> lastApart? ds) = some i ∧ (i, d) ∈ ds ∧ 0 < d := by
  cases hreach : reach? threshold 0.0 ds with
  | some i =>
    obtain ⟨d, hd, hpos⟩ := mem_of_reach? hreach
    exact ⟨i, d, rfl, hd, hpos⟩
  | none =>
    obtain ⟨i, hi⟩ := exists_lastApart? h
    obtain ⟨d, hd, hpos⟩ := mem_of_lastApart? hi
    exact ⟨i, d, hi, hd, hpos⟩

/-- The sum of the distances is zero only if all of them are. -/
theorem total_beq_zero_iff (h : ∀ p ∈ ds, Unpacked.NonNegative p.2.toModel.unpack) :
    (total ds == 0.0) = true ↔ ∀ p ∈ ds, ¬ 0 < p.2 := by
  rw [total, sumInOrder_beq_zero_iff, List.forall_mem_map]
  · exact forall₂_congr fun p hp => widen_beq_zero_iff (h p hp)
  · exact List.forall_mem_map.2 fun p hp => nonNegative64_widen (h p hp)

end Draws

/-! ## Shortest distances -/

/-- The squared distance from one point to another. -/
def distance (points : Matrix) (i j : Fin points.rows) : Float32 :=
  (squaredDistance (points.rowAt i) (points.rowAt j)).value

/-- Two points are apart, seen from either of them. -/
def Apart (points : Matrix) (i j : Fin points.rows) : Prop :=
  0 < distance points i j ∧ 0 < distance points j i

/-- Every point with the least of its distances to the chosen ones. -/
structure Shortest (points : Matrix) (chosen : List (Fin points.rows))
    (ds : Distances points.rows) : Prop where
  indices_eq : ds.map Prod.fst = List.finRange points.rows
  attained : ∀ p ∈ ds, ∃ seed ∈ chosen, p.2 = distance points p.1 seed
  le : ∀ p ∈ ds, ∀ seed ∈ chosen, p.2 ≤ distance points p.1 seed

section Shortest

variable {points : Matrix} {chosen : List (Fin points.rows)} {ds : Distances points.rows}

theorem nonNegative_distance (hp : points.AllFinite) (i j : Fin points.rows) :
    Unpacked.NonNegative (distance points i j).toModel.unpack :=
  nonNegative_squaredDistance (hp.rowAt i) (hp.rowAt j)

theorem isNaN_distance (hp : points.AllFinite) (i j : Fin points.rows) :
    (distance points i j).isNaN = false := (nonNegative_distance hp i j).isNaN_eq

theorem distance_comm (hp : points.AllFinite) (i j : Fin points.rows) :
    distance points i j = distance points j i :=
  congrArg Single.value (squaredDistance_comm (hp.rowAt i) (hp.rowAt j))

theorem Shortest.nonNegative (h : Shortest points chosen ds) (hp : points.AllFinite) :
    ∀ p ∈ ds, Unpacked.NonNegative p.2.toModel.unpack := by
  intro p hmem
  obtain ⟨seed, -, heq⟩ := h.attained p hmem
  rw [heq]
  exact nonNegative_distance hp _ _

theorem shortest_distancesFrom (hp : points.AllFinite) (hw : points.cols ≠ 0)
    (first : Fin points.rows) : Shortest points [first] (distancesFrom points first) := by
  have hds : distancesFrom points first
      = (List.finRange points.rows).map fun i => (i, distance points i first) := by
    rw [distancesFrom, Matrix.indexedRows, if_neg hw, List.ofFn_eq_map, List.map_map]
    rfl
  rw [hds]
  refine ⟨?_, List.forall_mem_map.2 fun i _ => ?_, List.forall_mem_map.2 fun i _ => ?_⟩
  · rw [List.map_map]
    exact List.map_id _
  · exact ⟨first, List.mem_singleton_self first, rfl⟩
  · exact List.forall_mem_singleton.2 (le_refl32 (isNaN_distance hp i first))

/-- **One more chosen point** keeps the distances the least ones. -/
theorem Shortest.shrink (h : Shortest points chosen ds) (hp : points.AllFinite)
    (seed : Fin points.rows) : Shortest points (seed :: chosen) (shrink points ds seed) := by
  refine ⟨?_, List.forall_mem_map.2 fun p hmem => ?_, List.forall_mem_map.2 fun p hmem => ?_⟩
  · rw [← h.indices_eq, Seeding.shrink, List.map_map]
    rfl
  · dsimp only
    split
    · exact ⟨seed, List.mem_cons_self, rfl⟩
    · obtain ⟨e, he, heq⟩ := h.attained p hmem
      exact ⟨e, List.mem_cons_of_mem _ he, heq⟩
  · dsimp only
    have hnew := isNaN_distance hp p.1 seed
    have hold : p.2.isNaN = false := (h.nonNegative hp p hmem).isNaN_eq
    rw [List.forall_mem_cons]
    split
    · rename_i hlt
      exact ⟨le_refl32 hnew, fun e he => le_of_lt32 (lt_of_lt_of_le32 hlt (h.le p hmem e he))⟩
    · rename_i hnot
      exact ⟨le_of_not_lt32 hold hnew hnot, h.le p hmem⟩

/-- What is at a positive distance after a draw was so before it. -/
theorem exists_pos_of_shrink {seed : Fin points.rows} (h : ∃ p ∈ shrink points ds seed, 0 < p.2) :
    ∃ p ∈ ds, 0 < p.2 := by
  obtain ⟨q, hq, hpos⟩ := h
  obtain ⟨p, hmem, rfl⟩ := List.mem_map.1 hq
  refine ⟨p, hmem, ?_⟩
  dsimp only at hpos
  split at hpos
  · rename_i hlt
    exact lt_of_lt_of_le32 hpos (le_of_lt32 hlt)
  · exact hpos

/-- A point at a positive distance is apart from all chosen ones. -/
theorem Shortest.apart (h : Shortest points chosen ds) (hp : points.AllFinite)
    {i : Fin points.rows} {d : Float32} (hmem : (i, d) ∈ ds) (hpos : 0 < d) :
    ∀ e ∈ chosen, Apart points i e := by
  intro e he
  have hlt : 0 < distance points i e := lt_of_lt_of_le32 hpos (h.le _ hmem e he)
  exact ⟨hlt, distance_comm hp i e ▸ hlt⟩

end Shortest

section Stages

variable {σ : Type} [RandomSource σ]

/-! ## Draws -/

/-- What a draw finds among the points at a positive distance. -/
def found? {n : Nat} (ds : Distances n) (s : σ) : Option (Fin n) :=
  reach? ((Random.unit s).1 * total ds) 0.0 ds <|> lastApart? ds

/-- How a point is drawn: it is found among the points at a positive distance, or there are none, and
it is drawn uniformly. -/
inductive Draw {n : Nat} (hn : 0 < n) (ds : Distances n) (s : σ) : Fin n → Prop where
  | found {seed : Fin n} {d : Float32} (h : found? ds s = some seed) (hmem : (seed, d) ∈ ds)
      (hpos : 0 < d) : Draw hn ds s seed
  | uniform (h : ∀ p ∈ ds, ¬ 0 < p.2) : Draw hn ds s (Random.below n hn s).1

/-- **A draw** finds something as long as there is a positive distance. -/
theorem draw_drawSeed {n : Nat} (hn : 0 < n) {ds : Distances n} (s : σ)
    (h : ∀ p ∈ ds, Unpacked.NonNegative p.2.toModel.unpack) :
    Draw hn ds s (drawSeed hn ds s).1 := by
  have hdraw : drawSeed hn ds s = if total ds == 0.0 then Random.below n hn s
      else ((found? ds s).getD ⟨n - 1, Nat.sub_lt hn Nat.one_pos⟩, (Random.unit s).2) := rfl
  by_cases hopen : ∃ p ∈ ds, 0 < p.2
  · obtain ⟨i, d, hfound, hmem, hpos⟩ := exists_found hopen ((Random.unit s).1 * total ds)
    have hsome : found? ds s = some i := hfound
    have hnonzero : ¬ (total ds == 0.0) = true := fun hzero =>
      (total_beq_zero_iff h).1 hzero _ hmem hpos
    rw [hdraw, if_neg hnonzero, hsome]
    exact .found hsome hmem hpos
  · have hnone : ∀ p ∈ ds, ¬ 0 < p.2 := fun p hp hpos => hopen ⟨p, hp, hpos⟩
    rw [hdraw, if_pos ((total_beq_zero_iff h).2 hnone)]
    exact .uniform hnone

/-! ## Draw after draw -/

/-- What a draw starts from: the points chosen so far, last first, their distances, and the
source. -/
structure Stage (points : Matrix) (σ : Type) where
  chosen : List (Fin points.rows)
  distances : Distances points.rows
  source : σ

/-- The point that is drawn. -/
def Stage.drawn {points : Matrix} (hn : 0 < points.rows) (st : Stage points σ) :
    Fin points.rows := (drawSeed hn st.distances st.source).1

/-- After the first point and `m` more draws. -/
def stage (points : Matrix) (hn : 0 < points.rows) (s : σ) : Nat → Stage points σ
  | 0 => ⟨[(Random.below points.rows hn s).1], distancesFrom points (Random.below points.rows hn s).1,
    (Random.below points.rows hn s).2⟩
  | m + 1 =>
    let st := stage points hn s m
    ⟨st.drawn hn :: st.chosen, shrink points st.distances (st.drawn hn),
      (drawSeed hn st.distances st.source).2⟩

/-- Some point is at a positive distance from all chosen ones. -/
def Stage.Open {points : Matrix} (st : Stage points σ) : Prop := ∃ p ∈ st.distances, 0 < p.2

variable {points : Matrix} (hn : 0 < points.rows) (s : σ)

theorem chosen_succ (m : Nat) : (stage points hn s (m + 1)).chosen
    = (stage points hn s m).drawn hn :: (stage points hn s m).chosen := rfl

theorem distances_succ (m : Nat) : (stage points hn s (m + 1)).distances
    = shrink points (stage points hn s m).distances ((stage points hn s m).drawn hn) := rfl

theorem drawSeeds_stage (count m : Nat) :
    drawSeeds points hn count (stage points hn s m).chosen (stage points hn s m).distances
        (stage points hn s m).source
      = ((stage points hn s (m + count)).chosen.reverse,
        (stage points hn s (m + count)).source) := by
  induction count generalizing m with
  | zero => rfl
  | succ count ih =>
    rw [← Nat.add_assoc, Nat.add_right_comm, ← ih (m + 1), drawSeeds]
    rfl

/-- The seeds are the points that have been chosen in the end. -/
theorem seeds_eq_chosen (k : Nat) :
    (seeds points hn k s).1 = (stage points hn s (k - 1)).chosen.reverse := by
  have hstages := drawSeeds_stage hn s (k - 1) 0
  rw [Nat.zero_add] at hstages
  rw [← show _ = (stage points hn s (k - 1)).chosen.reverse from congrArg Prod.fst hstages, seeds]
  rfl

theorem length_chosen (m : Nat) : (stage points hn s m).chosen.length = m + 1 := by
  induction m with
  | zero => rfl
  | succ m ih => rw [chosen_succ, List.length_cons, ih]

/-- What has been chosen stays chosen. -/
theorem exists_chosen (m j : Nat) : ∃ newer, newer.length = j ∧
    (stage points hn s (m + j)).chosen = newer ++ (stage points hn s m).chosen := by
  induction j with
  | zero => exact ⟨[], rfl, rfl⟩
  | succ j ih =>
    obtain ⟨newer, hlen, hchosen⟩ := ih
    exact ⟨(stage points hn s (m + j)).drawn hn :: newer, congrArg (· + 1) hlen, by
      rw [← Nat.add_assoc, chosen_succ, hchosen, List.cons_append]⟩

/-- The distances of every stage are the least ones. -/
theorem shortest_stage (hp : points.AllFinite) (hw : points.cols ≠ 0) (m : Nat) :
    Shortest points (stage points hn s m).chosen (stage points hn s m).distances := by
  induction m with
  | zero => exact shortest_distancesFrom hp hw (Random.below points.rows hn s).1
  | succ m ih =>
    rw [chosen_succ, distances_succ]
    exact ih.shrink hp _

theorem draw_drawn (hp : points.AllFinite) (hw : points.cols ≠ 0) (m : Nat) :
    Draw hn (stage points hn s m).distances (stage points hn s m).source
      ((stage points hn s m).drawn hn) :=
  draw_drawSeed hn _ ((shortest_stage hn s hp hw m).nonNegative hp)

theorem Stage.Open.apart_drawn (hp : points.AllFinite) (hw : points.cols ≠ 0) {m : Nat}
    (h : (stage points hn s m).Open) : ∀ e ∈ (stage points hn s m).chosen,
      Apart points ((stage points hn s m).drawn hn) e := by
  have hdraw := draw_drawn hn s hp hw m
  generalize (stage points hn s m).drawn hn = seed at hdraw ⊢
  cases hdraw with
  | found _ hmem hpos => exact (shortest_stage hn s hp hw m).apart hp hmem hpos
  | uniform hnone =>
    obtain ⟨p, hmem, hpos⟩ := h
    exact absurd hpos (hnone p hmem)

/-- **The points that are chosen while others are left are apart.** -/
theorem pairwise_chosen (hp : points.AllFinite) (hw : points.cols ≠ 0) (m : Nat)
    (h : (stage points hn s m).Open) :
    (stage points hn s (m + 1)).chosen.Pairwise (Apart points) := by
  induction m with
  | zero =>
    rw [chosen_succ, List.pairwise_cons]
    exact ⟨h.apart_drawn hn s hp hw, List.pairwise_singleton _ _⟩
  | succ m ih =>
    rw [chosen_succ, List.pairwise_cons]
    exact ⟨h.apart_drawn hn s hp hw, ih (exists_pos_of_shrink h)⟩

/-! ## All draws -/

/-- After `m` more draws the first seeds have been chosen. -/
theorem take_seeds {k m : Nat} (hm : m < k) :
    (seeds points hn k s).1.take (m + 1) = (stage points hn s m).chosen.reverse := by
  obtain ⟨newer, -, hchosen⟩ := exists_chosen hn s m (k - 1 - m)
  have hlast : m + (k - 1 - m) = k - 1 := by omega
  have hlen : (stage points hn s m).chosen.reverse.length = m + 1 := by
    rw [List.length_reverse, length_chosen]
  rw [seeds_eq_chosen, ← hlast, hchosen, List.reverse_append, ← hlen, List.take_left']
  rfl

theorem getElem?_seeds {k m : Nat} (hm : m + 1 < k) :
    (seeds points hn k s).1[m + 1]? = some ((stage points hn s m).drawn hn) := by
  have htake := take_seeds hn s hm
  have hlen : (stage points hn s m).chosen.reverse.length = m + 1 := by
    rw [List.length_reverse, length_chosen]
  rw [← List.getElem?_take_of_lt (Nat.lt_succ_self (m + 1)), htake, chosen_succ, List.reverse_cons,
    List.getElem?_append_right (Nat.le_of_eq hlen), hlen, Nat.sub_self]
  rfl

/-- How the seeds `xs` come about. -/
structure Seeded (points : Matrix) (hn : 0 < points.rows) (k : Nat) (s : σ)
    (xs : List (Fin points.rows)) : Prop where
  length_eq : xs.length = k
  /-- What has been chosen before a draw are the seeds before it. -/
  chosen_eq : ∀ m, m < k → (stage points hn s m).chosen = (xs.take (m + 1)).reverse
  /-- Before a draw every point has the least of its distances to the seeds before it. -/
  shortest : ∀ m, m < k → Shortest points (stage points hn s m).chosen (stage points hn s m).distances
  /-- The next seed is drawn as it should be, and while other points are left it is apart from all
  seeds before it. -/
  draw : ∀ m, m + 1 < k → ∃ seed, xs[m + 1]? = some seed ∧
    Draw hn (stage points hn s m).distances (stage points hn s m).source seed ∧
    ((stage points hn s m).Open → ∀ e ∈ xs.take (m + 1), Apart points seed e)
  /-- The seeds that are chosen while other points are left are apart from one another. -/
  pairwise : ∀ m, m + 1 < k → (stage points hn s m).Open →
    (xs.take (m + 2)).Pairwise (Apart points)

/-- **No point is chosen twice while there is another one.**

This includes draws from a source that has `Random.patience` words refused in a row.  It would go on
being asked for as long as it keeps that up; here the last of these words is taken. -/
theorem seeds_apart (hp : points.AllFinite) (hw : points.cols ≠ 0) (hn : 0 < points.rows) {k : Nat}
    (hk : 0 < k) (s : σ) : Seeded points hn k s (seeds points hn k s).1 where
  length_eq := by
    rw [seeds_eq_chosen, List.length_reverse, length_chosen]
    omega
  chosen_eq m hm := by rw [take_seeds hn s hm, List.reverse_reverse]
  shortest m _ := shortest_stage hn s hp hw m
  draw m hm := by
    refine ⟨_, getElem?_seeds hn s hm, draw_drawn hn s hp hw m, fun hopen e he => ?_⟩
    rw [take_seeds hn s (Nat.lt_of_succ_lt hm), List.mem_reverse] at he
    exact hopen.apart_drawn hn s hp hw e he
  pairwise m hm hopen := by
    rw [take_seeds hn s hm, List.pairwise_reverse]
    exact (pairwise_chosen hn s hp hw m hopen).imp And.symm

end Stages

/-- Of the points 0, 0 and 1 the first and the last are drawn first, although the random fraction is
zero; then there is no distance left, and the repeated point is drawn uniformly. -/
theorem seeds_apart_repeated :
    (Matrix.stack 1 [[.zero], [.zero], [.one]]).AllFinite ∧
      (seeds (.stack 1 [[.zero], [.zero], [.one]]) (by decide) 3
        (ListedSource.ofList [0, 0, 0x6000000000000000])).1.map Fin.val = [0, 2, 1] ∧
      Seeded (.stack 1 [[.zero], [.zero], [.one]]) (by decide) 3
        (ListedSource.ofList [0, 0, 0x6000000000000000])
        (seeds (.stack 1 [[.zero], [.zero], [.one]]) (by decide) 3
          (ListedSource.ofList [0, 0, 0x6000000000000000])).1 := by
  have hfinite : (Matrix.stack 1 [[.zero], [.zero], [.one]]).AllFinite := by
    show ∀ x ∈ [Single.zero, .zero, .one], x.value.isFinite = true
    decide +kernel
  exact ⟨hfinite, by decide +kernel, seeds_apart hfinite (by decide) (by decide) (by decide) _⟩

end Seeding
end ProductQuantization
