/-
Totals over the members of a list: `total w l` is the sum of the weights `w` of the members.

An interleaving machine keeps one member for each task, and a step replaces one of them (`List.set`). `total_set` says
what that does to a total; a count is the total of a weight that is 0 or 1 (`total_ite`), or the number of its positions
(`countP_eq_card`).
-/
import Mathlib.Tactic

namespace Tally

variable {α : Type} (w : α → ℕ)

def total (l : List α) : ℕ := (l.map w).sum

@[simp] theorem total_nil : total w [] = 0 := rfl

@[simp] theorem total_cons (a : α) (l : List α) : total w (a :: l) = w a + total w l := by
  simp [total]

/-- replacing a member trades its weight for the new one's -/
theorem total_set {l : List α} {i : ℕ} {a : α} (h : l[i]? = some a) (b : α) :
    total w (l.set i b) + w a = total w l + w b := by
  induction l generalizing i with
  | nil => simp at h
  | cons c l ih =>
    cases i with
    | zero =>
      simp only [List.getElem?_cons_zero, Option.some.injEq] at h
      subst h
      simp only [List.set_cons_zero, total_cons]
      omega
    | succ i =>
      simp only [List.getElem?_cons_succ] at h
      have := ih h
      simp only [List.set_cons_succ, total_cons]
      omega

theorem total_eq_zero_iff {l : List α} : total w l = 0 ↔ ∀ a ∈ l, w a = 0 := by
  rw [total, List.sum_eq_zero_iff, List.forall_mem_map]

theorem le_total {l : List α} {a : α} (h : a ∈ l) : w a ≤ total w l :=
  List.single_le_sum (by simp) _ (List.mem_map_of_mem h)

variable {w}

theorem total_le_add {v : α → ℕ} {c : ℕ} {l : List α} (h : ∀ a ∈ l, w a ≤ v a + c) :
    total w l ≤ total v l + c * l.length := by
  induction l with
  | nil => simp
  | cons a l ih =>
    obtain ⟨ha, hl⟩ := List.forall_mem_cons.1 h
    have := ih hl
    simp only [total_cons, List.length_cons, Nat.mul_succ]
    omega

theorem total_mono {v : α → ℕ} {l : List α} (h : ∀ a ∈ l, w a ≤ v a) : total w l ≤ total v l := by
  simpa using total_le_add (c := 0) h

/-- a total of weights of at most 1 leaves room for each member of weight 0 -/
theorem total_lt_length {l : List α} (h : ∀ a ∈ l, w a ≤ 1) {a : α} (ha : a ∈ l) (h0 : w a = 0) :
    total w l < l.length := by
  induction l with
  | nil => cases ha
  | cons b l ih =>
    obtain ⟨hb, hl⟩ := List.forall_mem_cons.1 h
    rw [total_cons, List.length_cons]
    rcases List.mem_cons.1 ha with rfl | ha
    · have hle := total_le_add (v := fun _ => 0) (c := 1) (l := l) (fun a ha => by simpa using hl a ha)
      simp only [total, List.map_const', List.sum_replicate, smul_eq_mul, mul_zero] at hle ⊢
      omega
    · have := ih hl ha
      omega

theorem total_ite (p : α → Bool) (l : List α) : total (fun a => if p a then 1 else 0) l = l.countP p := by
  induction l with
  | nil => rfl
  | cons a l ih => rw [total_cons, ih, List.countP_cons, Nat.add_comm]

/-- a count is the number of the positions counted -/
theorem countP_eq_card (p : α → Bool) (l : List α) :
    l.countP p = ((Finset.range l.length).filter fun i => (l[i]?).any p = true).card := by
  induction l using List.reverseRecOn with
  | nil => rfl
  | append_singleton l a ih =>
    have hbefore : (Finset.range l.length).filter (fun i => ((l ++ [a])[i]?).any p = true) =
        (Finset.range l.length).filter fun i => (l[i]?).any p = true := by
      refine Finset.filter_congr fun i hi => ?_
      rw [List.getElem?_append_left (Finset.mem_range.1 hi)]
    have hlast : ((l ++ [a])[l.length]?).any p = p a := by simp
    rw [List.countP_append, ih, List.length_append, List.length_singleton, Finset.range_add_one, Finset.filter_insert,
      hbefore, hlast]
    split_ifs with ha
    · rw [Finset.card_insert_of_notMem (by simp), List.countP_singleton, if_pos ha]
    · rw [List.countP_singleton, if_neg ha, Nat.add_zero]

/-- a total over the positions is the total over the members -/
theorem total_range {v : ℕ → ℕ} {l : List α} (h : ∀ i a, l[i]? = some a → v i = w a) :
    total v (List.range l.length) = total w l := by
  refine congrArg List.sum (List.ext_getElem (by simp) fun i hi _ => ?_)
  rw [List.length_map, List.length_range] at hi
  rw [List.getElem_map, List.getElem_map, List.getElem_range]
  exact h i l[i] (List.getElem?_eq_getElem hi)

theorem total_add (v : α → ℕ) (l : List α) : total (fun a => v a + w a) l = total v l + total w l :=
  List.sum_map_add

theorem countP_flatMap {β : Type} (p : β → Bool) (f : α → List β) (l : List α) :
    (l.flatMap f).countP p = total (fun a => (f a).countP p) l := List.countP_flatMap

theorem total_map {β : Type} (f : β → α) (l : List β) : total w (l.map f) = total (w ∘ f) l := by
  rw [total, total, List.map_map]

end Tally
