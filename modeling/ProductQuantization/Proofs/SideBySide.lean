import Mathlib.Data.List.Forall2
import ProductQuantization.Proofs.Outcome

/-!
# Two computations side by side

To compare what two inputs lead to, a relation between the inputs is carried through every step of
the computation.  Here are the steps that have nothing to do with vectors: on lists that are related
member by member, and on computations that fail with the same error or succeed with related results
(`Alike`).
-/

set_option autoImplicit false

namespace ProductQuantization

/-! ## Lists -/

section Lists

variable {α α' β β' γ γ' : Type} {R : α → α' → Prop} {S : β → β' → Prop} {T : γ → γ' → Prop}
  {xs : List α} {xs' : List α'} {ys : List β} {ys' : List β'}

/-- Steps that give the same for related members give the same list. -/
theorem map_eq_map_of_forall₂ {f : α → γ} {g : α' → γ} (hf : ∀ a a', R a a' → f a = g a')
    (h : List.Forall₂ R xs xs') : xs.map f = xs'.map g := by
  induction h with
  | nil => rfl
  | cons hx _ ih => rw [List.map_cons, List.map_cons, hf _ _ hx, ih]

/-- Two functions on the members of one list. -/
theorem forall₂_map_same {δ : Type} {f : δ → α} {g : δ → α'} {ds : List δ} (h : ∀ d, R (f d) (g d)) :
    List.Forall₂ R (ds.map f) (ds.map g) := by
  rw [List.forall₂_map_left_iff, List.forall₂_map_right_iff, List.forall₂_same]
  exact fun d _ => h d

theorem forall₂_zipWith {f : α → β → γ} {g : α' → β' → γ'}
    (hf : ∀ a a' b b', R a a' → S b b' → T (f a b) (g a' b')) (hx : List.Forall₂ R xs xs')
    (hy : List.Forall₂ S ys ys') :
    List.Forall₂ T (List.zipWith f xs ys) (List.zipWith g xs' ys') := by
  induction hx generalizing ys ys' with
  | nil => exact .nil
  | cons hx _ ih =>
    cases hy with
    | nil => exact .nil
    | cons hy hys => exact .cons (hf _ _ _ _ hx hy) (ih hys)

theorem forall₂_zip (hx : List.Forall₂ R xs xs') (hy : List.Forall₂ S ys ys') :
    List.Forall₂ (fun p p' => R p.1 p'.1 ∧ S p.2 p'.2) (xs.zip ys) (xs'.zip ys') :=
  forall₂_zipWith (fun _ _ _ _ ha hb => ⟨ha, hb⟩) hx hy

/-- What holds of all members of two lists holds of members that are related. -/
theorem forall₂_of_mem {P : α → Prop} {Q : α' → Prop} (h : List.Forall₂ R xs xs')
    (hP : ∀ a ∈ xs, P a) (hQ : ∀ a' ∈ xs', Q a') :
    List.Forall₂ (fun a a' => R a a' ∧ P a ∧ Q a') xs xs' := by
  induction h with
  | nil => exact .nil
  | cons hx _ ih =>
    rw [List.forall_mem_cons] at hP hQ
    exact .cons ⟨hx, hP.1, hQ.1⟩ (ih hP.2 hQ.2)

theorem forall₂_zipIdx (h : List.Forall₂ R xs xs') :
    List.Forall₂ (fun p p' => R p.1 p'.1 ∧ p.2 = p'.2) xs.zipIdx xs'.zipIdx := by
  rw [List.zipIdx_eq_zip_range', List.zipIdx_eq_zip_range', h.length_eq]
  exact forall₂_zip h (List.forall₂_same.2 fun _ _ => rfl)

theorem forall₂_ofFn {n : Nat} {f : Fin n → α} {g : Fin n → α'} (h : ∀ i, R (f i) (g i)) :
    List.Forall₂ R (List.ofFn f) (List.ofFn g) := by
  rw [List.forall₂_iff_get]
  refine ⟨by simp, fun i hi _ => ?_⟩
  simpa using h ⟨i, by simpa using hi⟩

/-- What is found at one place of two lists. -/
theorem getElem?_of_forall₂ (h : List.Forall₂ R xs xs') (i : Nat) :
    xs[i]? = none ∧ xs'[i]? = none ∨ ∃ a a', xs[i]? = some a ∧ xs'[i]? = some a' ∧ R a a' := by
  induction h generalizing i with
  | nil => exact .inl ⟨rfl, rfl⟩
  | cons hx _ ih =>
    cases i with
    | zero => exact .inr ⟨_, _, rfl, rfl, hx⟩
    | succ i => exact ih i

theorem exists_rel_of_forall₂ (h : List.Forall₂ R xs xs') {i : Nat} {a' : α'}
    (ha' : xs'[i]? = some a') : ∃ a, xs[i]? = some a ∧ R a a' := by
  obtain ⟨-, hnone⟩ | ⟨a, b, ha, hb, hrel⟩ := getElem?_of_forall₂ h i
  · cases ha'.symm.trans hnone
  · cases ha'.symm.trans hb
    exact ⟨a, ha, hrel⟩

theorem bind_of_rel {x : Option α} {x' : Option α'} {f : α → Option β} {g : α' → Option β'}
    (hx : Option.Rel R x x') (hf : ∀ a a', R a a' → Option.Rel S (f a) (g a')) :
    Option.Rel S (x >>= f) (x' >>= g) := by
  cases hx with
  | none => exact .none
  | some h => exact hf _ _ h

/-- Two ways to look things up for every member of one list. -/
theorem mapM_of_rel {δ : Type} {f : δ → Option α} {g : δ → Option α'}
    (h : ∀ d, Option.Rel R (f d) (g d)) (ds : List δ) :
    Option.Rel (List.Forall₂ R) (ds.mapM f) (ds.mapM g) := by
  induction ds with
  | nil => exact .some .nil
  | cons d ds ih =>
    rw [List.mapM_cons, List.mapM_cons]
    exact bind_of_rel (h d) fun _ _ hd => bind_of_rel ih fun _ _ hds => .some (.cons hd hds)

end Lists

/-! ## Outcomes -/

/-- The same error, or related results. -/
inductive Alike {ε α β : Type} (R : α → β → Prop) : Except ε α → Except ε β → Prop where
  | error (e : ε) : Alike R (.error e) (.error e)
  | ok {a : α} {b : β} (h : R a b) : Alike R (.ok a) (.ok b)

namespace Alike

variable {ε α α' β β' : Type} {R : α → α' → Prop} {S : β → β' → Prop}

theorem bind {x : Except ε α} {x' : Except ε α'} {f : α → Except ε β} {g : α' → Except ε β'}
    (hx : Alike R x x') (hf : ∀ a a', R a a' → Alike S (f a) (g a')) :
    Alike S (x >>= f) (x' >>= g) := by
  cases hx with
  | error e => exact .error e
  | ok h => exact hf _ _ h

theorem mapM {f : α → Except ε β} {g : α' → Except ε β'}
    (hf : ∀ a a', R a a' → Alike S (f a) (g a')) {xs : List α} {xs' : List α'}
    (h : List.Forall₂ R xs xs') : Alike (List.Forall₂ S) (xs.mapM f) (xs'.mapM g) := by
  induction h with
  | nil => exact .ok .nil
  | cons hx _ ih =>
    rw [List.mapM_cons, List.mapM_cons]
    exact (hf _ _ hx).bind fun b b' hb => ih.bind fun bs bs' hbs => .ok (.cons hb hbs)

theorem ofMatrix {x : Except MatrixError α} {x' : Except MatrixError α'} (h : Alike R x x') :
    Alike R (Result.ofMatrix x) (Result.ofMatrix x') := by
  cases h with
  | error e => exact .error _
  | ok h => exact .ok h

theorem ofIndex {x : Option α} {x' : Option α'} (h : Option.Rel R x x') :
    Alike R (Result.ofIndex x) (Result.ofIndex x') := by
  cases h with
  | none => exact .error _
  | some h => exact .ok h

/-- One computation in front of two. -/
theorem bind_same (x : Except ε α) {f : α → Except ε β} {g : α → Except ε β'}
    (h : ∀ a, Alike S (f a) (g a)) : Alike S (x >>= f) (x >>= g) := by
  cases x with
  | error e => exact .error e
  | ok a => exact h a

theorem eq {x x' : Except ε α} (h : Alike Eq x x') : x = x' := by
  cases h with
  | error e => rfl
  | ok h => rw [h]

end Alike
end ProductQuantization
