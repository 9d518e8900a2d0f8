import ProductQuantization.Proofs.Number.SquareRoot
import ProductQuantization.Proofs.SideBySide
import ProductQuantization.Rotation.Svd

/-!
# Columns with one entry

A column that is zero but for one entry is a multiple of a standard unit vector, and what the
decomposition does with such columns it does without rounding: two of them at different places have
no component along each other (`Like.reject_other`), one of them that is a unit vector leaves nothing
of another at its place (`Like.reject_same`), and the length is that of the entry (`Like.norm`).

Columns are compared to functions of the place, entry by entry and up to the signs of zeros (`Like`);
`peak i v` is the function that is `v` at `i` and zero elsewhere.
-/

set_option autoImplicit false

namespace ProductQuantization

open Float.Model.UnpackedFloat (Sign)

namespace Svd

variable {n i j : Nat} {f g h : Nat → Float} {v w : Float} {a b c : Column}

/-! ## Columns entry by entry -/

/-- The column has the entries of `g`, up to the signs of zeros. -/
def Like (n : Nat) (g : Nat → Float) (c : Column) : Prop :=
  List.Forall₂ Agree64 c ((List.range n).map g)

/-- `v` at place `i` and zero elsewhere. -/
def peak (i : Nat) (v : Float) (k : Nat) : Float := if k = i then v else 0.0

@[simp] theorem peak_self (i : Nat) (v : Float) : peak i v i = v := if_pos rfl

theorem peak_of_ne {k : Nat} (hk : k ≠ i) (v : Float) : peak i v k = 0.0 := if_neg hk

theorem peak_zero (i k : Nat) : peak i 0.0 k = 0.0 := ite_self _

theorem like_map (n : Nat) (g : Nat → Float) : Like n g ((List.range n).map g) :=
  List.forall₂_same.2 fun x _ => .refl x

theorem like_unitColumn (n i : Nat) : Like n (peak i 1.0) (unitColumn n i) := like_map n _

theorem Like.length_eq (hc : Like n g c) : c.length = n := by
  rw [List.Forall₂.length_eq hc, List.length_map, List.length_range]

/-- Entries that agree may be put for each other. -/
theorem Like.congr (hc : Like n g c) (hg : ∀ k < n, Agree64 (g k) (h k)) : Like n h c := by
  rw [Like, List.forall₂_iff_get] at hc ⊢
  refine ⟨by rw [hc.1, List.length_map, List.length_map], fun k hk hk' => ?_⟩
  have hn : k < n := by simpa using hk'
  have hentry := hc.2 k hk (by simpa using hn)
  simp only [List.get_eq_getElem, List.getElem_map, List.getElem_range] at hentry ⊢
  exact hentry.trans (hg k hn)

theorem Like.map {op : Float → Float} (hop : ∀ x y, Agree64 x y → Agree64 (op x) (op y))
    (hc : Like n g c) : Like n (fun k => op (g k)) (c.map op) := by
  have hmap : (List.range n).map (fun k => op (g k)) = ((List.range n).map g).map op := by
    rw [List.map_map]
    rfl
  rw [Like, hmap, List.forall₂_map_left_iff, List.forall₂_map_right_iff]
  exact List.Forall₂.imp hop hc

theorem Like.zipWith {op : Float → Float → Float}
    (hop : ∀ x x' y y', Agree64 x x' → Agree64 y y' → Agree64 (op x y) (op x' y'))
    (ha : Like n g a) (hb : Like n h b) :
    Like n (fun k => op (g k) (h k)) (a.zipWith op b) := by
  have hzip : (List.range n).map (fun k => op (g k) (h k))
      = List.zipWith op ((List.range n).map g) ((List.range n).map h) := by
    rw [List.zipWith_map, List.zipWith_self]
  rw [Like, hzip]
  exact forall₂_zipWith hop ha hb

theorem Like.exists_entry {column : Column} {k : Nat} (hc : Like n g column) (hk : k < n) :
    ∃ x, column[k]? = some x ∧ Agree64 x (g k) := by
  refine exists_rel_of_forall₂ hc ?_
  rw [List.getElem?_map, List.getElem?_range hk, Option.map_some]

theorem Like.agree_getD {k : Nat} (hc : Like n g c) (hk : k < n) : Agree64 (c.getD k 0.0) (g k) := by
  obtain ⟨x, hx, hagree⟩ := hc.exists_entry hk
  rwa [List.getD_eq_getElem?_getD, hx]

/-! ## Sums -/

/-- A sum with one term. -/
theorem agree_sum_peak {z : Float} (hz : Agree64 z 0.0) (n i : Nat) (v : Float) :
    Agree64 (((List.range n).map (peak i v)).foldl (· + ·) z) (if i < n then v else 0.0) := by
  induction n with
  | zero => exact hz
  | succ n ih =>
    rw [List.range_succ, List.map_append, List.foldl_append]
    show Agree64 (_ + peak i v n) _
    rcases Nat.lt_trichotomy i n with hlt | rfl | hgt
    · rw [if_pos hlt] at ih
      rw [if_pos (Nat.lt_succ_of_lt hlt), peak_of_ne (Nat.ne_of_gt hlt)]
      exact (agree64_add_zero (.refl _)).trans ih
    · rw [if_neg (Nat.lt_irrefl i)] at ih
      rw [if_pos (Nat.lt_succ_self i), peak_self]
      exact agree64_zero_add ih
    · rw [if_neg (by omega)] at ih
      rw [if_neg (by omega), peak_of_ne (Nat.ne_of_lt hgt)]
      exact (agree64_add_zero (.refl _)).trans ih

theorem Like.agree_foldl {z z' : Float} (hc : Like n g c) (hz : Agree64 z z') :
    Agree64 (c.foldl (· + ·) z) (((List.range n).map g).foldl (· + ·) z') := by
  rw [Like] at hc
  generalize (List.range n).map g = c' at hc ⊢
  induction hc generalizing z z' with
  | nil => exact hz
  | cons hx _ ih => exact ih (hz.add hx)

/-- A sum that starts from a zero and has one term. -/
theorem Like.agree_sum {z : Float} (hc : Like n (peak i v) c) (hz : Agree64 z 0.0) :
    Agree64 (c.foldl (· + ·) z) (if i < n then v else 0.0) :=
  (hc.agree_foldl hz).trans (agree_sum_peak (.refl _) n i v)

theorem agree_negative_zero : Agree64 (-0.0) 0.0 := agree64_zero_of_unpack (s := .negative) rfl

/-! ## Inner products and lengths -/

theorem isFinite_peak (hv : v.isFinite = true) (k : Nat) : (peak i v k).isFinite = true := by
  rw [peak]
  split
  · exact hv
  · rfl

/-- The products of the entries of two columns. -/
theorem agree_peak_mul_peak (hv : v.isFinite = true) (hw : w.isFinite = true) (k : Nat) :
    Agree64 (peak i v k * peak j w k) (peak i (if i = j then v * w else 0.0) k) := by
  by_cases hi : k = i
  · subst hi
    rw [peak_self, peak_self]
    by_cases hj : k = j
    · subst hj
      rw [peak_self, if_pos rfl]
      exact .refl _
    · rw [peak_of_ne hj, if_neg hj]
      exact agree64_mul_zero hv (.refl _)
  · rw [peak_of_ne hi, peak_of_ne hi]
    exact agree64_zero_mul (.refl _) (isFinite_peak hw k)

theorem Like.products (ha : Like n (peak i v) a) (hb : Like n (peak j w) b)
    (hv : v.isFinite = true) (hw : w.isFinite = true) :
    Like n (peak i (if i = j then v * w else 0.0)) (a.zipWith (· * ·) b) :=
  (ha.zipWith (fun _ _ _ _ hx hy => hx.mul hy) hb).congr fun k _ => agree_peak_mul_peak hv hw k

theorem Like.dot (ha : Like n (peak i v) a) (hb : Like n (peak j w) b)
    (hv : v.isFinite = true) (hw : w.isFinite = true) (hi : i < n) :
    Agree64 (dot a b) (if i = j then v * w else 0.0) := by
  have hsum := (ha.products hb hv hw).agree_sum agree_negative_zero
  rwa [if_pos hi] at hsum

/-- The length of a column with one entry. -/
theorem Like.norm (ha : Like n (peak i v) a) (hi : i < n) :
    Agree64 (norm a) (Float.sqrt (v * v)) := by
  have hsquares : Like n (peak i (v * v)) (a.map fun x => x * x) := by
    refine (ha.map fun x y h => h.mul h).congr fun k _ => ?_
    by_cases hk : k = i
    · subst hk
      rw [peak_self, peak_self]
      exact .refl _
    · rw [peak_of_ne hk, peak_of_ne hk]
      exact .refl _
  have hsum := hsquares.agree_sum agree_negative_zero
  rw [if_pos hi] at hsum
  exact hsum.sqrt

/-! ## Rejection -/

theorem Like.reject {d : Float} (ha : Like n g a) (hb : Like n h b) (hd : Agree64 (Svd.dot a b) d) :
    Like n (fun k => g k - d * h k) (Svd.reject a b) := by
  have hterm : ∀ x x' y y', Agree64 x x' → Agree64 y y' →
      Agree64 (x - Svd.dot a b * y) (x' - d * y') := fun _ _ _ _ hx hy => hx.sub (hd.mul hy)
  have hzip : (List.range n).map (fun k => g k - d * h k)
      = List.zipWith (fun x y => x - d * y) ((List.range n).map g) ((List.range n).map h) := by
    rw [List.zipWith_map, List.zipWith_self]
  rw [Like, hzip]
  exact forall₂_zipWith hterm ha hb

/-- A column has no component along another at a different place. -/
theorem Like.reject_other (ha : Like n (peak i v) a) (hb : Like n (peak j w) b)
    (hv : v.isFinite = true) (hw : w.isFinite = true) (hi : i < n) (hne : i ≠ j) :
    Like n (peak i v) (Svd.reject a b) := by
  have hdot := ha.dot hb hv hw hi
  rw [if_neg hne] at hdot
  exact (ha.reject hb hdot).congr fun k _ =>
    agree64_sub_zero (agree64_zero_mul (.refl _) (isFinite_peak hw k))

/-- Nothing is left of a standard unit vector, or of a zero, along a unit vector at its place. -/
theorem Like.reject_same {s : Sign} (ha : Like n (peak i v) a) (hb : Like n (peak i (unit s)) b)
    (hv : v = 1.0 ∨ v = 0.0) (hi : i < n) : Like n (peak i 0.0) (Svd.reject a b) := by
  have hfinite : v.isFinite = true := by
    obtain rfl | rfl := hv <;> rfl
  have hdot := ha.dot hb hfinite (isFinite_unit s) hi
  rw [if_pos rfl] at hdot
  refine (ha.reject hb hdot).congr fun k _ => ?_
  rw [peak_zero]
  by_cases hk : k = i
  · subst hk
    rw [peak_self, peak_self]
    obtain rfl | rfl := hv <;> cases s <;> exact agree64_zero_of_unpack (s := .positive) rfl
  · rw [peak_of_ne hk, peak_of_ne hk]
    obtain rfl | rfl := hv <;> cases s <;> exact agree64_zero_of_unpack (s := .positive) rfl

/-! ## Unit columns -/

/-- A standard unit vector with a sign. -/
structure Axis where
  place : Nat
  sign : Sign

/-- The column is the unit vector, up to the signs of zeros. -/
def OnAxis (n : Nat) (c : Column) (x : Axis) : Prop :=
  x.place < n ∧ Like n (peak x.place (unit x.sign)) c

variable {basis : List Column} {axes : List Axis}

/-- What is left of a column at a place that the basis does not have. -/
theorem Like.foldl_reject_other (hb : List.Forall₂ (OnAxis n) basis axes)
    (ha : Like n (peak i v) a) (hv : v.isFinite = true) (hi : i < n)
    (hfree : ∀ x ∈ axes, x.place ≠ i) : Like n (peak i v) (basis.foldl Svd.reject a) := by
  induction hb generalizing a with
  | nil => exact ha
  | cons hx _ ih =>
    rw [List.forall_mem_cons] at hfree
    exact ih (ha.reject_other hx.2 hv (isFinite_unit _) hi hfree.1.symm) hfree.2

theorem Like.rejectAll_other (hb : List.Forall₂ (OnAxis n) basis axes)
    (ha : Like n (peak i v) a) (hv : v.isFinite = true) (hi : i < n)
    (hfree : ∀ x ∈ axes, x.place ≠ i) : Like n (peak i v) (rejectAll a basis) :=
  (ha.foldl_reject_other hb hv hi hfree).foldl_reject_other hb hv hi hfree

/-- Nothing is left of a standard unit vector at a place that the basis has. -/
theorem Like.foldl_reject_same (hb : List.Forall₂ (OnAxis n) basis axes)
    (ha : Like n (peak i v) a) (hv : v = 1.0 ∨ v = 0.0) (hi : i < n)
    (htaken : v = 0.0 ∨ ∃ x ∈ axes, x.place = i) :
    Like n (peak i 0.0) (basis.foldl Svd.reject a) := by
  induction hb generalizing a v with
  | nil =>
    obtain rfl | ⟨x, hx, -⟩ := htaken
    · exact ha
    · cases hx
  | @cons b x basis axes hx _ ih =>
    by_cases hplace : x.place = i
    · subst hplace
      exact ih (ha.reject_same hx.2 hv hi) (.inr rfl) (.inl rfl)
    · have hfinite : v.isFinite = true := by
        obtain rfl | rfl := hv <;> rfl
      refine ih (ha.reject_other hx.2 hfinite (isFinite_unit _) hi (Ne.symm hplace)) hv ?_
      obtain hzero | ⟨y, hy, hplace'⟩ := htaken
      · exact .inl hzero
      · rcases List.mem_cons.1 hy with rfl | hy
        · exact absurd hplace' hplace
        · exact .inr ⟨y, hy, hplace'⟩

theorem Like.rejectAll_same (hb : List.Forall₂ (OnAxis n) basis axes)
    (ha : Like n (peak i 1.0) a) (hi : i < n) (htaken : ∃ x ∈ axes, x.place = i) :
    Like n (peak i 0.0) (rejectAll a basis) :=
  (ha.foldl_reject_same hb (.inl rfl) hi (.inr htaken)).foldl_reject_same hb (.inr rfl) hi
    (.inl rfl)

theorem norm_of_onAxis {s : Sign} (hc : Like n (peak i (unit s)) c) (hi : i < n) :
    norm c = 1.0 := by
  have hnorm := hc.norm hi
  rw [sqrt_mul_self_unit] at hnorm
  exact eq_of_agree64 hnorm (not_agree64_zero (unpack_unit .positive))

theorem agree_norm_zero (hc : Like n (peak i 0.0) c) (hi : i < n) : Agree64 (norm c) 0.0 :=
  (hc.norm hi).trans (.refl 0.0)

/-- Division of a column by a number that is not zero. -/
theorem Like.divideBy {l : Float} (hc : Like n (peak i v) c) (hl : l.isNaN = false)
    (hne : ¬ Agree64 l 0.0) : Like n (peak i (v / l)) (divideBy c l) := by
  refine (hc.map fun _ _ h => h.div l).congr fun k _ => ?_
  by_cases hk : k = i
  · subst hk
    rw [peak_self, peak_self]
    exact .refl _
  · rw [peak_of_ne hk, peak_of_ne hk]
    exact agree64_zero_div (.refl _) hl hne

/-! ## Making rough unit vectors unit vectors -/

/-- A column on an axis, about as long as a unit vector, or zero.  Where `exact` is true it is a unit
vector. -/
def Rough (n : Nat) (exact : Prop) (c : Column) (x : Axis) : Prop :=
  x.place < n ∧ ∃ v, NearUnit x.sign v ∧ (exact → v = unit x.sign) ∧ Like n (peak x.place v) c

/-- What becomes of a rough column: a unit vector on its axis, or nothing unless it was one before. -/
def Trimmed (n : Nat) (exact : Prop) (o : Option Column) (x : Axis) : Prop :=
  (∃ c, o = some c ∧ OnAxis n c x) ∨ o = none ∧ ¬ exact

theorem trimmed_of_rough {exact : Prop} {x : Axis} (hc : Rough n exact c x)
    (hb : List.Forall₂ (OnAxis n) basis axes) (hfree : ∀ y ∈ axes, y.place ≠ x.place) :
    Trimmed n exact (if norm (rejectAll c basis) < 0.5 then none
      else some (Svd.divideBy (rejectAll c basis) (norm (rejectAll c basis)))) x := by
  obtain ⟨hi, v, hv, hexact, hlike⟩ := hc
  have hrest := hlike.rejectAll_other hb hv.isFinite_eq hi hfree
  have hnorm := hrest.norm hi
  rcases hv.div_sqrt with ⟨t, hzero⟩ | ⟨⟨m, e, hm, hroot⟩, hunit⟩
  · have hvzero := agree64_zero_of_unpack hzero
    have hshort : norm (rejectAll c basis) < 0.5 := by
      rw [Agree64.lt_iff (hnorm.trans (hvzero.mul hvzero).sqrt) (.refl _)]
      decide
    rw [if_pos hshort]
    refine .inr ⟨rfl, fun h => ?_⟩
    exact not_agree64_zero (unpack_unit x.sign) (hexact h ▸ hvzero)
  · rw [eq_of_agree64 hnorm (not_agree64_zero hroot)]
    split
    · rename_i hshort
      refine .inr ⟨rfl, fun h => ?_⟩
      rw [hexact h, sqrt_mul_self_unit] at hshort
      exact absurd hshort (by decide)
    · refine .inl ⟨_, rfl, hi, ?_⟩
      have hnan : (Float.sqrt (v * v)).isNaN = false :=
        congrArg Float.Model.UnpackedFloat.isNaN hroot
      have hdivided := hrest.divideBy hnan (not_agree64_zero hroot)
      rwa [hunit] at hdivided

/-- Axes at different places. -/
def Distinct (axes : List Axis) : Prop := axes.Pairwise fun x y => x.place ≠ y.place

/-- Axes, with gaps between them, at different places. -/
def Apart (xs : List (Option Axis)) : Prop := Distinct (xs.filterMap id)

theorem Apart.drop {xs ys : List (Option Axis)} {x : Axis} (h : Apart (ys ++ some x :: xs)) :
    Apart ((ys ++ [none]) ++ xs) := by
  rw [Apart, Distinct, List.append_assoc, List.filterMap_append] at *
  exact List.Pairwise.sublist ((List.sublist_cons_self _ _).append_left _) h

theorem Apart.free {xs ys : List (Option Axis)} {x : Axis} (h : Apart (ys ++ some x :: xs)) :
    ∀ y ∈ ys.filterMap id, y.place ≠ x.place := by
  rw [Apart, Distinct, List.filterMap_append, List.pairwise_append] at h
  exact fun y hy => h.2.2 y hy x List.mem_cons_self

theorem forall₂_filterMap_id {α β : Type} {R : α → β → Prop} {xs : List (Option α)}
    {ys : List (Option β)} (h : List.Forall₂ (Option.Rel R) xs ys) :
    List.Forall₂ R (xs.filterMap id) (ys.filterMap id) := by
  induction h with
  | nil => exact .nil
  | cons hx _ ih =>
    cases hx with
    | some hx => exact .cons hx ih
    | none => exact ih

/-- **Rough unit vectors at different places are made unit vectors**, or dropped. -/
theorem exists_orthonormalize {exact : Prop} {done rest : List (Option Column)}
    {ys xs : List (Option Axis)} (hdone : List.Forall₂ (Option.Rel (OnAxis n)) done ys)
    (hrest : List.Forall₂ (Option.Rel (Rough n exact)) rest xs) (hplaces : Apart (ys ++ xs)) :
    ∃ zs, List.Forall₂ (Option.Rel (OnAxis n)) (orthonormalize done rest) (ys ++ zs) ∧
      List.Forall₂ (fun z x => z = x ∨ z = none ∧ ¬ exact) zs xs ∧ Apart (ys ++ zs) := by
  induction hrest generalizing done ys with
  | nil => exact ⟨[], by simpa [orthonormalize] using hdone, .nil, hplaces⟩
  | @cons o x rest xs hx _ ih =>
    cases hx with
    | none =>
      obtain ⟨zs, hout, hzs, hapart⟩ := @ih (done ++ [none]) (ys ++ [none])
        (List.rel_append hdone (.cons .none .nil)) (by rwa [List.append_assoc])
      rw [List.append_assoc] at hout hapart
      exact ⟨none :: zs, hout, .cons (.inl rfl) hzs, hapart⟩
    | @some c x hx =>
      rw [orthonormalize]
      rcases trimmed_of_rough hx (forall₂_filterMap_id hdone) hplaces.free with
        ⟨c', hc', haxis⟩ | ⟨hnone, hexact⟩
      · rw [hc']
        obtain ⟨zs, hout, hzs, hapart⟩ := @ih _ (ys ++ [some x])
          (List.rel_append hdone (.cons (.some haxis) .nil)) (by rwa [List.append_assoc])
        rw [List.append_assoc] at hout hapart
        exact ⟨some x :: zs, hout, .cons (.inl rfl) hzs, hapart⟩
      · rw [hnone]
        obtain ⟨zs, hout, hzs, hapart⟩ := @ih (done ++ [none]) (ys ++ [none])
          (List.rel_append hdone (.cons .none .nil)) hplaces.drop
        rw [List.append_assoc] at hout hapart
        exact ⟨none :: zs, hout, .cons (.inr ⟨rfl, hexact⟩) hzs, hapart⟩

/-! ## Filling up a basis of unit vectors -/

/-- A place that the basis does not have. -/
def Free (axes : List Axis) (i : Nat) : Prop := ∀ x ∈ axes, x.place ≠ i

/-- Fewer than `n` unit vectors leave a place free. -/
theorem exists_free (h : axes.length < n) : ∃ i < n, Free axes i := by
  by_contra hnone
  have hsubset : List.range n ⊆ axes.map Axis.place := by
    intro i hi
    by_contra hmem
    refine hnone ⟨i, List.mem_range.1 hi, fun x hx hplace => hmem ?_⟩
    exact hplace ▸ List.mem_map_of_mem hx
  have hle := (List.nodup_range.subperm hsubset).length_le
  rw [List.length_range, List.length_map] at hle
  omega

/-- The longest candidate so far: only zeros, or a unit vector at a free place. -/
inductive Longest (n : Nat) (axes : List Axis) : Bool → Option (Float × Column) → Prop where
  | none : Longest n axes false none
  | zero {l : Float} {c : Column} (hl : Agree64 l 0.0) : Longest n axes false (some (l, c))
  | free {c : Column} {i : Nat} (hi : i < n) (hfree : Free axes i) (hc : Like n (peak i 1.0) c) :
      Longest n axes true (some (1.0, c))

theorem Longest.taken {found : Bool} {best : Option (Float × Column)}
    (h : Longest n axes found best) (hc : Agree64 (norm c) 0.0) :
    Longest n axes found (longer best c) := by
  cases h with
  | none => exact .zero hc
  | @zero l c' hl =>
    have hnot : ¬ l < norm c := by
      rw [Agree64.lt_iff hl hc]
      decide
    simp only [longer, if_neg hnot]
    exact .zero hl
  | @free c' i hi hfree hc' =>
    have hnot : ¬ 1.0 < norm c := by
      rw [Agree64.lt_iff (.refl _) hc]
      decide
    simp only [longer, if_neg hnot]
    exact .free hi hfree hc'

theorem Longest.step_free {found : Bool} {best : Option (Float × Column)}
    (h : Longest n axes found best) (hi : i < n) (hfree : Free axes i)
    (hc : Like n (peak i 1.0) c) : Longest n axes true (longer best c) := by
  have hnorm : norm c = 1.0 := norm_of_onAxis (s := .positive) hc hi
  cases h with
  | none =>
    simp only [longer, hnorm]
    exact .free hi hfree hc
  | @zero l c' hl =>
    have hlt : l < 1.0 := by
      rw [Agree64.lt_iff hl (.refl _)]
      decide
    simp only [longer, hnorm, if_pos hlt]
    exact .free hi hfree hc
  | @free c' j hj hfree' hc' =>
    have hnot : ¬ (1.0 : Float) < 1.0 := by decide
    simp only [longer, hnorm, if_neg hnot]
    exact .free hj hfree' hc'

theorem longest_foldl (hb : List.Forall₂ (OnAxis n) basis axes) {places : List Nat}
    (hplaces : ∀ i ∈ places, i < n) {found : Bool} {best : Option (Float × Column)}
    (h : Longest n axes found best) (hsome : found = true ∨ ∃ i ∈ places, Free axes i) :
    Longest n axes true
      ((places.map fun e => rejectAll (unitColumn n e) basis).foldl longer best) := by
  induction places generalizing found best with
  | nil =>
    obtain rfl | ⟨i, hi, -⟩ := hsome
    · exact h
    · cases hi
  | cons e places ih =>
    rw [List.forall_mem_cons] at hplaces
    by_cases hfree : Free axes e
    · have hlike := (like_unitColumn n e).rejectAll_other hb rfl hplaces.1 hfree
      exact ih hplaces.2 (h.step_free hplaces.1 hfree hlike) (.inl rfl)
    · have htaken : ∃ x ∈ axes, x.place = e := by
        simpa only [Free, not_forall, Decidable.not_not, exists_prop] using hfree
      have hlike := (like_unitColumn n e).rejectAll_same hb hplaces.1 htaken
      refine ih hplaces.2 (h.taken (agree_norm_zero hlike hplaces.1)) (hsome.imp_right ?_)
      rintro ⟨i, hi, hfree'⟩
      rcases List.mem_cons.1 hi with rfl | hi
      · exact absurd hfree' hfree
      · exact ⟨i, hi, hfree'⟩

/-- **What is put in a gap is a standard unit vector** at a free place. -/
theorem exists_complement (hb : List.Forall₂ (OnAxis n) basis axes) (h : axes.length < n) :
    ∃ i, Free axes i ∧ OnAxis n (complement n basis) ⟨i, .positive⟩ := by
  obtain ⟨e, he, hfree⟩ := exists_free h
  have hlongest := longest_foldl hb (fun i hi => List.mem_range.1 hi) .none
    (.inr ⟨e, List.mem_range.2 he, hfree⟩)
  rw [complement]
  generalize ((List.range n).map fun e => rejectAll (unitColumn n e) basis).foldl longer none = best
    at hlongest ⊢
  cases hlongest with
  | @free c i hi hfree hc =>
    have hdivided := hc.divideBy (l := 1.0) rfl (not_agree64_zero (unpack_unit .positive))
    rw [show (1.0 : Float) / 1.0 = unit .positive from
      div_size (unpack_unit .positive) (unpack_unit .positive)] at hdivided
    exact ⟨i, hfree, hi, hdivided⟩

theorem Distinct.insert_free {xs ys : List Axis} {s : Sign} (h : Distinct (xs ++ ys))
    (hfree : Free (xs ++ ys) i) : Distinct ((xs ++ [⟨i, s⟩]) ++ ys) := by
  rw [Distinct, List.append_assoc, List.singleton_append, List.pairwise_middle Ne.symm,
    List.pairwise_cons]
  exact ⟨fun x hx => (hfree x hx).symm, h⟩

/-- **Filling the gaps gives unit vectors at different places**, and keeps those that are there. -/
theorem exists_complete {done : List Column} {rest : List (Option Column)} {zs : List (Option Axis)}
    (hdone : List.Forall₂ (OnAxis n) done axes)
    (hrest : List.Forall₂ (Option.Rel (OnAxis n)) rest zs)
    (hplaces : Distinct (axes ++ zs.filterMap id)) (hlen : done.length + rest.length = n) :
    ∃ xs, List.Forall₂ (OnAxis n) (complete n done rest) (axes ++ xs) ∧
      List.Forall₂ (fun x z => ∀ y, z = some y → x = y) xs zs ∧ Distinct (axes ++ xs) := by
  induction hrest generalizing done axes with
  | nil => exact ⟨[], by simpa [complete] using hdone, .nil, hplaces⟩
  | @cons o z rest zs hz hrest ih =>
    rw [List.length_cons] at hlen
    have hlen' : ∀ c : Column, (done ++ [c]).length + rest.length = n := by
      intro c
      rw [List.length_append, List.length_singleton]
      omega
    cases hz with
    | @some c x hx =>
      rw [complete]
      obtain ⟨xs, hout, hxs, hdistinct⟩ := @ih (axes ++ [x]) _
        (List.rel_append hdone (.cons hx .nil)) (by rwa [List.append_assoc]) (hlen' c)
      rw [List.append_assoc] at hout hdistinct
      exact ⟨x :: xs, hout, .cons (fun y hy => Option.some.inj hy) hxs, hdistinct⟩
    | none =>
      rw [complete]
      have hbasis := List.rel_append hdone (forall₂_filterMap_id hrest)
      have hcount : (axes ++ zs.filterMap id).length < n := by
        have hle := List.length_filterMap_le id rest
        rw [← hbasis.length_eq, List.length_append]
        omega
      obtain ⟨i, hfree, haxis⟩ := exists_complement hbasis hcount
      obtain ⟨xs, hout, hxs, hdistinct⟩ := @ih (axes ++ [⟨i, .positive⟩]) _
        (List.rel_append hdone (.cons haxis .nil)) (Distinct.insert_free hplaces hfree) (hlen' _)
      rw [List.append_assoc] at hout hdistinct
      exact ⟨⟨i, .positive⟩ :: xs, hout, .cons (fun y hy => (by cases hy)) hxs, hdistinct⟩

end Svd
end ProductQuantization
