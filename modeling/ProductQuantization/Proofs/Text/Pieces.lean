import ProductQuantization.Text.Split

/-!
# Pieces of a text

What putting two texts together does to the pieces between their separators.
-/

set_option autoImplicit false

namespace ProductQuantization
namespace Text

variable {α : Type} [DecidableEq α] {sep : α}

theorem splitAt_of_not_mem {xs : List α} (h : sep ∉ xs) : splitAt sep xs = [xs] := by
  induction xs with
  | nil => rfl
  | cons x xs ih =>
    rw [List.mem_cons, not_or] at h
    rw [splitAt, if_neg (Ne.symm h.1), ih h.2, consFirst]

theorem splitAt_ne_nil (xs : List α) : splitAt sep xs ≠ [] := by
  cases xs with
  | nil => simp [splitAt]
  | cons x xs =>
    rw [splitAt]
    split
    · simp
    · cases splitAt sep xs <;> simp [consFirst]

/-- A separator in the middle cuts a list into two, which are cut on their own. -/
theorem splitAt_append (xs ys : List α) :
    splitAt sep (xs ++ sep :: ys) = splitAt sep xs ++ splitAt sep ys := by
  induction xs with
  | nil => simp [splitAt]
  | cons x xs ih =>
    rw [List.cons_append, splitAt, splitAt, ih]
    split
    · rfl
    · cases hxs : splitAt sep xs with
      | nil => exact absurd hxs (splitAt_ne_nil xs)
      | cons piece rest => rfl

/-- What is put behind a list gets into its last piece. -/
theorem exists_splitAt_append {ys : List α} (h : sep ∉ ys) (xs : List α) :
    ∃ front last, splitAt sep xs = front ++ [last] ∧
      splitAt sep (xs ++ ys) = front ++ [last ++ ys] := by
  induction xs with
  | nil => exact ⟨[], [], rfl, splitAt_of_not_mem h⟩
  | cons x xs ih =>
    obtain ⟨front, last, hxs, hys⟩ := ih
    rw [List.cons_append, splitAt, splitAt, hxs, hys]
    split
    · exact ⟨[] :: front, last, rfl, rfl⟩
    · cases front with
      | nil => exact ⟨[], x :: last, rfl, rfl⟩
      | cons piece front => exact ⟨(x :: piece) :: front, last, rfl, rfl⟩

end Text
end ProductQuantization
