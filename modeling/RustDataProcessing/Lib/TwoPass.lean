/-
The mean of a list of numbers, and the squared deviations from it, by their definitions: one pass for the mean, and a
second one for the deviations.

- `mean_concat`, `squaredDeviations_concat`: what one more number does to both, without a second pass;
- `mean_perm`, `squaredDeviations_perm`: neither depends on the order.
-/
import Mathlib.Tactic

namespace TwoPass

variable {K : Type*} [Field K]

def mean (xs : List K) : K := xs.sum / (xs.length : K)

def squaredDeviations (xs : List K) : K := (xs.map fun x => (x - mean xs) ^ 2).sum

theorem mean_perm {xs ys : List K} (h : ys.Perm xs) : mean ys = mean xs := by
  rw [mean, mean, h.sum_eq, h.length_eq]

theorem squaredDeviations_perm {xs ys : List K} (h : ys.Perm xs) : squaredDeviations ys = squaredDeviations xs := by
  rw [squaredDeviations, mean_perm h]
  exact (h.map _).sum_eq

/-- the squares around any number, by the sum and the sum of squares -/
theorem sum_sq_sub (xs : List K) (c : K) :
    (xs.map fun x => (x - c) ^ 2).sum = (xs.map (· ^ 2)).sum - 2 * c * xs.sum + xs.length * c ^ 2 := by
  induction xs with
  | nil => simp
  | cons x xs ih =>
    simp only [List.map_cons, List.sum_cons, List.length_cons, Nat.cast_add, Nat.cast_one, ih]
    ring

section

variable [CharZero K]

theorem length_mul_mean (xs : List K) : xs.length * mean xs = xs.sum := by
  rcases xs.eq_nil_or_concat with rfl | ⟨xs, x, rfl⟩
  · simp
  · have hlength : ((xs.concat x).length : K) ≠ 0 := by simpa using Nat.cast_add_one_ne_zero xs.length
    rw [mean, mul_div_cancel₀ _ hlength]

/-- **The mean** with one more number -/
theorem mean_concat (xs : List K) (x : K) :
    mean (xs ++ [x]) = mean xs + (x - mean xs) / ((xs.length + 1 : ℕ) : K) := by
  have hlength : ((xs.length + 1 : ℕ) : K) ≠ 0 := Nat.cast_ne_zero.2 (Nat.succ_ne_zero _)
  have hsum := length_mul_mean xs
  rw [mean, List.sum_append, List.sum_singleton, List.length_append, List.length_singleton, ← hsum]
  field_simp
  push_cast
  ring

/-- **The squared deviations** with one more number, by the means before and after it -/
theorem squaredDeviations_concat (xs : List K) (x : K) : squaredDeviations (xs ++ [x]) =
    squaredDeviations xs + (x - mean xs) * (x - mean (xs ++ [x])) := by
  have hbefore := length_mul_mean xs
  have hafter := length_mul_mean (xs ++ [x])
  have hlength : ((xs ++ [x]).length : K) = xs.length + 1 := by simp
  rw [hlength, List.sum_append, List.sum_singleton] at hafter
  simp only [squaredDeviations, sum_sq_sub, List.map_append, List.map_singleton, List.sum_append, List.sum_singleton]
  linear_combination (mean (xs ++ [x]) - mean xs) * (hbefore + hafter)

end

theorem squaredDeviations_nonneg {K : Type*} [Field K] [LinearOrder K] [IsStrictOrderedRing K] (xs : List K) :
    0 ≤ squaredDeviations xs :=
  List.sum_nonneg (by simpa using fun x _ => sq_nonneg (x - mean xs))

end TwoPass
