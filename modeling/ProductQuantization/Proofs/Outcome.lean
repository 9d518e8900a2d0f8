import Mathlib.Data.List.Forall2
import ProductQuantization.Error

/-!
# Outcomes of sequences of steps

Most functions of the library are sequences of steps that can fail, and most statements about them
begin by taking such a sequence apart.  The lemmas here say when a sequence succeeds and when it
fails, for two steps one after the other, for a check, and for one step on every member of a list.
-/

set_option autoImplicit false

namespace ProductQuantization

variable {ε α β : Type}

/-! ## Two steps -/

theorem bind_eq_ok {x : Except ε α} {f : α → Except ε β} {b : β} :
    (x >>= f) = .ok b ↔ ∃ a, x = .ok a ∧ f a = .ok b := by
  cases x with
  | error e => simp [bind, Except.bind]
  | ok a => simp [bind, Except.bind]

theorem bind_eq_error {x : Except ε α} {f : α → Except ε β} {e : ε} :
    (x >>= f) = .error e ↔ x = .error e ∨ ∃ a, x = .ok a ∧ f a = .error e := by
  cases x with
  | error e' => simp [bind, Except.bind]
  | ok a => simp [bind, Except.bind]

theorem map_eq_ok {x : Except ε α} {f : α → β} {b : β} :
    x.map f = .ok b ↔ ∃ a, x = .ok a ∧ f a = b := by
  cases x with
  | error e => simp [Except.map]
  | ok a => simp [Except.map]

theorem map_eq_error {x : Except ε α} {f : α → β} {e : ε} :
    x.map f = .error e ↔ x = .error e := by
  cases x with
  | error e' => simp [Except.map]
  | ok a => simp [Except.map]

@[simp] theorem ok_bind (a : α) (f : α → Except ε β) : (Except.ok a >>= f) = f a := rfl

@[simp] theorem error_bind (e : ε) (f : α → Except ε β) :
    (Except.error e >>= f) = .error e := rfl

theorem exists_of_isOk {x : Except ε α} (h : x.isOk) : ∃ a, x = .ok a := by
  cases x with
  | error e => cases h
  | ok a => exact ⟨a, rfl⟩

/-! ## Checks -/

namespace Result

@[simp] theorem guard_true (e : QuantError) : guard true e = .ok () := rfl

@[simp] theorem guard_false (e : QuantError) : guard false e = .error e := rfl

@[simp] theorem guard_eq_ok {condition : Bool} {e : QuantError} {u : Unit} :
    guard condition e = .ok u ↔ condition = true := by
  cases condition <;> simp [guard]

@[simp] theorem guard_eq_error {condition : Bool} {e e' : QuantError} :
    guard condition e = .error e' ↔ condition = false ∧ e = e' := by
  cases condition <;> simp [guard]

@[simp] theorem ofIndex_some (a : α) : ofIndex (some a) = .ok a := rfl

@[simp] theorem ofIndex_eq_ok {x : Option α} {a : α} : ofIndex x = .ok a ↔ x = some a := by
  cases x <;> simp [ofIndex]

@[simp] theorem ofMatrix_ok (a : α) : ofMatrix (.ok a) = .ok a := rfl

@[simp] theorem ofMatrix_eq_ok {x : Except MatrixError α} {a : α} :
    ofMatrix x = .ok a ↔ x = .ok a := by
  cases x <;> simp [ofMatrix]

end Result

/-! ## What the errors have in common -/

/-- Every error of the computation has the property. -/
def FailsWith (P : ε → Prop) (x : Except ε α) : Prop := ∀ e, x = .error e → P e

section FailsWith

variable {P : ε → Prop}

theorem failsWith_ok (a : α) : FailsWith P (.ok a : Except ε α) := fun _ h => (by cases h)

theorem failsWith_error {e : ε} (h : P e) : FailsWith P (.error e : Except ε α) := by
  rintro e' h'
  cases h'
  exact h

theorem failsWith_bind {x : Except ε α} {f : α → Except ε β} (hx : FailsWith P x)
    (hf : ∀ a, FailsWith P (f a)) : FailsWith P (x >>= f) := by
  intro e h
  rcases bind_eq_error.1 h with h | ⟨a, -, h⟩
  · exact hx e h
  · exact hf a e h

end FailsWith

theorem Result.failsWith_guard {P : QuantError → Prop} {condition : Bool} {e : QuantError}
    (h : P e) : FailsWith P (guard condition e) := fun _ he => (guard_eq_error.1 he).2 ▸ h

/-- An error of a matrix operation is none of an index. -/
theorem Result.ofMatrix_ne_outOfBounds (x : Except MatrixError α) :
    FailsWith (· ≠ .outOfBounds) (ofMatrix x) := by
  cases x with
  | ok a => exact failsWith_ok a
  | error e => cases e <;> exact failsWith_error (by simp [QuantError.ofMatrix])

/-! ## A step on every member of a list -/

/-- A list of steps succeeds exactly when each of them does. -/
theorem mapM_eq_ok {f : α → Except ε β} {xs : List α} {ys : List β} :
    xs.mapM f = .ok ys ↔ List.Forall₂ (fun x y => f x = .ok y) xs ys := by
  induction xs generalizing ys with
  | nil => cases ys <;> simp [pure, Except.pure]
  | cons x xs ih =>
    rw [List.mapM_cons, bind_eq_ok]
    constructor
    · rintro ⟨y, hy, h⟩
      obtain ⟨ys', hys, h⟩ := bind_eq_ok.1 h
      cases h
      exact .cons hy (ih.1 hys)
    · intro h
      cases h with
      | @cons _ y _ ys' hy hys => exact ⟨y, hy, bind_eq_ok.2 ⟨ys', ih.2 hys, rfl⟩⟩

/-- A list of steps that all succeed. -/
theorem mapM_eq_ok_map {f : α → Except ε β} {g : α → β} {xs : List α}
    (h : ∀ x ∈ xs, f x = .ok (g x)) : xs.mapM f = .ok (xs.map g) := by
  rw [mapM_eq_ok, List.forall₂_map_right_iff, List.forall₂_same]
  exact h

/-- A list of steps succeeds if each of them does. -/
theorem exists_mapM_eq_ok {f : α → Except ε β} {xs : List α} (h : ∀ x ∈ xs, ∃ y, f x = .ok y) :
    ∃ ys, xs.mapM f = .ok ys := by
  induction xs with
  | nil => exact ⟨[], rfl⟩
  | cons x xs ih =>
    obtain ⟨y, hy⟩ := h x List.mem_cons_self
    obtain ⟨ys, hys⟩ := ih fun x hx => h x (List.mem_cons_of_mem _ hx)
    rw [mapM_eq_ok] at hys
    exact ⟨y :: ys, mapM_eq_ok.2 (.cons hy hys)⟩

/-- A list of steps fails with the error of the first step that does. -/
theorem mapM_eq_error {f : α → Except ε β} {xs : List α} {e : ε} :
    xs.mapM f = .error e ↔ ∃ (i : Nat) (x : α), xs[i]? = some x ∧ f x = .error e ∧
      ∀ (j : Nat) (y : α), j < i → xs[j]? = some y → ∃ z, f y = .ok z := by
  induction xs with
  | nil => simp [pure, Except.pure]
  | cons x xs ih =>
    rw [List.mapM_cons, bind_eq_error]
    constructor
    · rintro (h | ⟨z, hz, h⟩)
      · exact ⟨0, x, rfl, h, fun j y hj => absurd hj (Nat.not_lt_zero j)⟩
      · rcases bind_eq_error.1 h with h | ⟨zs, -, h⟩
        · obtain ⟨i, y, hy, hfail, hbefore⟩ := ih.1 h
          refine ⟨i + 1, y, hy, hfail, fun j w hj hw => ?_⟩
          cases j with
          | zero => exact ⟨z, Option.some_inj.1 hw ▸ hz⟩
          | succ j => exact hbefore j w (Nat.lt_of_succ_lt_succ hj) hw
        · cases h
    · rintro ⟨i, y, hy, hfail, hbefore⟩
      cases i with
      | zero => exact .inl (Option.some_inj.1 hy ▸ hfail)
      | succ i =>
        obtain ⟨z, hz⟩ := hbefore 0 x (Nat.succ_pos i) rfl
        refine .inr ⟨z, hz, bind_eq_error.2 (.inl (ih.2 ⟨i, y, hy, hfail, fun j w hj hw => ?_⟩))⟩
        exact hbefore (j + 1) w (Nat.succ_lt_succ hj) hw

/-- Numbered steps that all succeed. -/
theorem mapM_range_eq_ok {f : Nat → Except ε β} {n : Nat} {ys : List β} :
    (List.range n).mapM f = .ok ys ↔
      ys.length = n ∧ ∀ (i : Nat) (hi : i < ys.length), f i = .ok ys[i] := by
  rw [mapM_eq_ok, List.forall₂_iff_get]
  constructor
  · rintro ⟨hlen, hsteps⟩
    refine ⟨hlen.symm.trans List.length_range, fun i hi => ?_⟩
    have hstep := hsteps i (hlen.symm ▸ hi) hi
    rwa [List.get_eq_getElem, List.getElem_range] at hstep
  · rintro ⟨hlen, hsteps⟩
    refine ⟨List.length_range.trans hlen.symm, fun i hi hi' => ?_⟩
    rw [List.get_eq_getElem, List.getElem_range]
    exact hsteps i hi'

/-- Numbered steps fail with the error of the first that does. -/
theorem mapM_range_eq_error {f : Nat → Except ε β} {n : Nat} {e : ε} :
    (List.range n).mapM f = .error e ↔
      ∃ i, i < n ∧ f i = .error e ∧ ∀ j, j < i → ∃ z, f j = .ok z := by
  rw [mapM_eq_error]
  constructor
  · rintro ⟨i, x, hx, hfail, hbefore⟩
    obtain ⟨hi, rfl⟩ := List.getElem?_eq_some_iff.1 hx
    rw [List.getElem_range] at hfail
    rw [List.length_range] at hi
    exact ⟨i, hi, hfail, fun j hj => hbefore j j hj (List.getElem?_range (Nat.lt_trans hj hi))⟩
  · rintro ⟨i, hi, hfail, hbefore⟩
    refine ⟨i, i, List.getElem?_range hi, hfail, fun j y hj hy => ?_⟩
    rw [List.getElem?_range (Nat.lt_trans hj hi), Option.some_inj] at hy
    exact hy ▸ hbefore j hj

/-- Steps whose results are changed afterwards. -/
theorem mapM_map_right {γ : Type} {f : α → Except ε β} {g : β → γ} {xs : List α} :
    (xs.mapM fun x => (f x).map g) = (xs.mapM f).map (List.map g) := by
  induction xs with
  | nil => rfl
  | cons x xs ih =>
    rw [List.mapM_cons, List.mapM_cons, ih]
    cases f x with
    | error e => rfl
    | ok y => cases xs.mapM f <;> rfl

/-- Checks of every member of a list are passed exactly when each of them is. -/
theorem forM_eq_ok {f : α → Except ε Unit} {xs : List α} :
    xs.forM f = .ok () ↔ ∀ x ∈ xs, f x = .ok () := by
  induction xs with
  | nil => simp [pure, Except.pure]
  | cons x xs ih =>
    have hcons : (x :: xs).forM f = (f x >>= fun _ => xs.forM f) := rfl
    rw [hcons, bind_eq_ok, List.forall_mem_cons, ← ih]
    constructor
    · rintro ⟨u, hu, h⟩
      exact ⟨hu, h⟩
    · rintro ⟨hu, h⟩
      exact ⟨(), hu, h⟩

theorem failsWith_forM {P : ε → Prop} {f : α → Except ε Unit} {xs : List α}
    (h : ∀ x, FailsWith P (f x)) : FailsWith P (xs.forM f) := by
  induction xs with
  | nil => exact failsWith_ok ()
  | cons x xs ih => exact failsWith_bind (h x) fun _ => ih

/-- A list of steps fails as its steps do. -/
theorem failsWith_mapM {P : ε → Prop} {f : α → Except ε β} {xs : List α}
    (h : ∀ x ∈ xs, FailsWith P (f x)) : FailsWith P (xs.mapM f) := by
  induction xs with
  | nil => exact failsWith_ok []
  | cons x xs ih =>
    obtain ⟨hx, hxs⟩ := List.forall_mem_cons.1 h
    rw [List.mapM_cons]
    exact failsWith_bind hx fun y => failsWith_bind (ih hxs) fun ys => failsWith_ok (y :: ys)

/-- Looking things up for every member of a list succeeds exactly when each look-up does. -/
theorem mapM_eq_some {f : α → Option β} {xs : List α} {ys : List β} :
    xs.mapM f = some ys ↔ List.Forall₂ (fun x y => f x = some y) xs ys := by
  induction xs generalizing ys with
  | nil => cases ys <;> simp
  | cons x xs ih =>
    rw [List.mapM_cons, Option.bind_eq_bind, Option.bind_eq_some_iff]
    constructor
    · rintro ⟨y, hy, h⟩
      obtain ⟨ys', hys, h⟩ := Option.bind_eq_some_iff.1 h
      cases h
      exact .cons hy (ih.1 hys)
    · intro h
      cases h with
      | @cons _ y _ ys' hy hys =>
        exact ⟨y, hy, Option.bind_eq_some_iff.2 ⟨ys', ih.2 hys, rfl⟩⟩

/-- Looking things up succeeds if each look-up does. -/
theorem exists_mapM_eq_some {f : α → Option β} {xs : List α} (h : ∀ x ∈ xs, ∃ y, f x = some y) :
    ∃ ys, xs.mapM f = some ys := by
  induction xs with
  | nil => exact ⟨[], rfl⟩
  | cons x xs ih =>
    obtain ⟨y, hy⟩ := h x List.mem_cons_self
    obtain ⟨ys, hys⟩ := ih fun x hx => h x (List.mem_cons_of_mem _ hx)
    rw [mapM_eq_some] at hys
    exact ⟨y :: ys, mapM_eq_some.2 (.cons hy hys)⟩

/-- Nothing is found among numbered members exactly if none has the property. -/
theorem find?_zipIdx_eq_none {p : α → Bool} {xs : List α} :
    (xs.zipIdx.find? fun x => p x.1) = none ↔ ∀ x ∈ xs, p x = false := by
  rw [List.find?_eq_none]
  constructor
  · intro h x hx
    obtain ⟨i, hi, rfl⟩ := List.mem_iff_getElem.1 hx
    simpa using h (xs[i], i) (by simp [List.mem_zipIdx_iff_getElem?])
  · rintro h ⟨x, i⟩ hmem
    simpa using h x (List.fst_mem_of_mem_zipIdx hmem)

/-- What is found among numbered members is the first one with the property. -/
theorem find?_zipIdx_eq_some {p : α → Bool} {xs : List α} {x : α} {i : Nat} :
    (xs.zipIdx.find? fun x => p x.1) = some (x, i) ↔
      xs[i]? = some x ∧ p x = true ∧ ∀ j y, j < i → xs[j]? = some y → p y = false := by
  rw [List.find?_eq_some_iff_getElem]
  constructor
  · rintro ⟨hx, k, hk, heq, hfirst⟩
    rw [List.getElem_zipIdx, Nat.zero_add, Prod.mk.injEq] at heq
    obtain ⟨rfl, rfl⟩ := heq
    refine ⟨List.getElem?_eq_getElem _, hx, fun j y hj hy => ?_⟩
    obtain ⟨hlen, rfl⟩ := List.getElem?_eq_some_iff.1 hy
    simpa using hfirst j hj
  · rintro ⟨hi, hx, hfirst⟩
    obtain ⟨hlen, rfl⟩ := List.getElem?_eq_some_iff.1 hi
    refine ⟨hx, i, by rwa [List.length_zipIdx], by simp, fun j hj => ?_⟩
    have hlt : j < xs.length := Nat.lt_trans hj hlen
    simpa using hfirst j xs[j] hj (List.getElem?_eq_getElem hlt)

/-- Looking things up at the places of two lists of one length. -/
theorem mapM_eq_some_of_getElem {f : α → Option β} {xs : List α} {ys : List β}
    (hlen : xs.length = ys.length)
    (h : ∀ (i : Nat) (hx : i < xs.length) (hy : i < ys.length), f xs[i] = some ys[i]) :
    xs.mapM f = some ys := by
  rw [mapM_eq_some, List.forall₂_iff_get]
  exact ⟨hlen, h⟩

end ProductQuantization
