/-
The partial sums of a list of numbers, and of its other orders.

- `within_every_order_iff`: the partial sums stay between two bounds in every order of the list exactly when the sum of
  the positive numbers and the sum of the negative ones do.
-/
import Mathlib.Tactic

namespace PartialSums

variable {α K : Type*} [AddCommGroup K] [LinearOrder K] (f : α → K)

/-- the sum of the positive numbers -/
def positive (xs : List α) : K := (xs.map fun x => max (f x) 0).sum

/-- the sum of the negative numbers -/
def negative (xs : List α) : K := (xs.map fun x => min (f x) 0).sum

def Within (lo hi : K) (xs : List α) : Prop := ∀ p, p <+: xs → lo ≤ (p.map f).sum ∧ (p.map f).sum ≤ hi

theorem positive_perm {xs ys : List α} (h : ys.Perm xs) : positive f ys = positive f xs := (h.map _).sum_eq

/-- the positive numbers first -/
theorem sum_filter_pos (xs : List α) : ((xs.filter fun x => 0 < f x).map f).sum = positive f xs := by
  induction xs with
  | nil => rfl
  | cons x xs ih =>
    rw [positive] at ih
    by_cases hx : 0 < f x
    · simp [positive, hx, max_eq_left hx.le, ih]
    · simp [positive, hx, max_eq_right (not_lt.1 hx), ih]

theorem exists_prefix_sum (xs : List α) : ∃ ys p, ys.Perm xs ∧ p <+: ys ∧ (p.map f).sum = positive f xs :=
  ⟨_, _, List.filter_append_perm (fun x => 0 < f x) xs, List.prefix_append _ _, sum_filter_pos f xs⟩

variable [IsOrderedAddMonoid K]

theorem negative_eq (xs : List α) : negative f xs = -positive (fun x => -f x) xs := by
  have hx : ∀ x, min (f x) 0 = -max (-f x) 0 := by
    intro x
    have hneg := max_neg_neg (f x) 0
    rw [neg_zero] at hneg
    rw [hneg, neg_neg]
  simp only [negative, positive, hx, List.sum_neg, List.map_map]
  rfl

theorem sum_prefix_le {p xs : List α} (h : p <+: xs) : (p.map f).sum ≤ positive f xs := by
  obtain ⟨rest, rfl⟩ := h
  have hrest : 0 ≤ (rest.map fun x => max (f x) 0).sum := List.sum_nonneg (by simp)
  calc (p.map f).sum ≤ (p.map fun x => max (f x) 0).sum := List.sum_le_sum fun x _ => le_max_left _ _
    _ ≤ (p.map fun x => max (f x) 0).sum + (rest.map fun x => max (f x) 0).sum := le_add_of_nonneg_right hrest
    _ = positive f (p ++ rest) := by simp [positive]

/-- **Every order** stays within the bounds exactly when the positive and the negative numbers do -/
theorem within_every_order_iff {lo hi : K} {xs : List α} :
    (∀ ys : List α, ys.Perm xs → Within f lo hi ys) ↔ lo ≤ negative f xs ∧ positive f xs ≤ hi := by
  have hnegate : ∀ p : List α, (p.map fun x => -f x).sum = -(p.map f).sum := by
    intro p
    rw [List.sum_neg, List.map_map]
    rfl
  rw [negative_eq]
  constructor
  · intro h
    obtain ⟨ys, p, hys, hp, hpos⟩ := exists_prefix_sum f xs
    obtain ⟨zs, q, hzs, hq, hneg⟩ := exists_prefix_sum (fun x => -f x) xs
    rw [hnegate] at hneg
    rw [← hneg, ← hpos, neg_neg]
    exact ⟨(h zs hzs q hq).1, (h ys hys p hp).2⟩
  · rintro ⟨hlo, hhi⟩ ys hys p hp
    have hupper := sum_prefix_le f hp
    have hlower := sum_prefix_le (fun x => -f x) hp
    rw [positive_perm _ hys, hnegate] at hlower
    rw [positive_perm _ hys] at hupper
    exact ⟨hlo.trans (neg_le.1 hlower), hupper.trans hhi⟩

end PartialSums
