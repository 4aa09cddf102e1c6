/-
Reductions of a collection to one value, whatever the order.

- `AddedUp add isZero s a`: `a` is a result of adding up the members of `s`, in some order and with some bracketing, and
  with zeros put in anywhere. The loop from the left is one way to do it (`AddedUp.foldl`). `AddedUp.keeps` is the
  induction rule: a relation between parts of the collection and their sums that one addition keeps holds of every sum.
- `Best key xs o`: `o` is a member of `xs` with the least key, none if there is no member. A loop that keeps the better
  of two values ends with one (`best_foldl`), and where the keys tell the members apart there is only one (`Best.unique`).
-/
import Mathlib.Tactic

namespace Reduction

variable {α : Type}

/-! ## Loops -/

/-- one step of a loop that starts at the first member -/
def reduceStep (f : α → α → α) (acc : Option α) (x : α) : Option α :=
  match acc with
  | some a => some (f a x)
  | none => some x

theorem foldl_reduceStep (f : α → α → α) (a : α) (xs : List α) :
    xs.foldl (reduceStep f) (some a) = some (xs.foldl f a) := by
  induction xs generalizing a with
  | nil => rfl
  | cons x xs ih => exact ih (f a x)

/-! ## Sums -/

inductive AddedUp (add : α → α → α) (isZero : α → Prop) : Multiset α → α → Prop where
  | zero {z : α} : isZero z → AddedUp add isZero 0 z
  | one (a : α) : AddedUp add isZero {a} a
  | add {s t : Multiset α} {a b : α} : AddedUp add isZero s a → AddedUp add isZero t b →
      AddedUp add isZero (s + t) (add a b)

namespace AddedUp

variable {add : α → α → α} {isZero : α → Prop}

/-- the loop from the left -/
theorem foldl {s : Multiset α} {a : α} (h : AddedUp add isZero s a) (xs : List α) :
    AddedUp add isZero (s + xs) (xs.foldl add a) := by
  induction xs generalizing s a with
  | nil => simpa using h
  | cons x xs ih =>
    have hrest := ih (h.add (.one x))
    rwa [add_assoc, Multiset.singleton_add, Multiset.cons_coe] at hrest

/-- **Induction on the additions**, within one collection -/
theorem keeps {R : Multiset α → α → Prop} {m : Multiset α} (hzero : ∀ z, isZero z → R 0 z) (hone : ∀ a ∈ m, R {a} a)
    (hadd : ∀ s t a b, s + t ≤ m → R s a → R t b → R (s + t) (add a b)) {s : Multiset α} {a : α}
    (h : AddedUp add isZero s a) (hs : s ≤ m) : R s a := by
  induction h with
  | zero hz => exact hzero _ hz
  | one a => exact hone a (Multiset.singleton_le.1 hs)
  | add _ _ iha ihb =>
    have hleft := (Multiset.le_add_right _ _).trans hs
    have hright := (Multiset.le_add_left _ _).trans hs
    exact hadd _ _ _ _ hs (iha hleft) (ihb hright)

end AddedUp

/-! ## Least and greatest -/

section Best

variable (key : α → ℤ)

def Best (xs : List α) : Option α → Prop
  | none => xs = []
  | some m => m ∈ xs ∧ ∀ x ∈ xs, key m ≤ key x

variable {key}

theorem Best.unique {xs : List α} (hinj : ∀ x ∈ xs, ∀ y ∈ xs, key x = key y → x = y) {o p : Option α}
    (ho : Best key xs o) (hp : Best key xs p) : o = p := by
  rcases o with - | m <;> rcases p with - | n
  · rfl
  · rw [Best] at ho
    exact absurd hp.1 (by simp [ho])
  · rw [Best] at hp
    exact absurd ho.1 (by simp [hp])
  · have hmn := ho.2 n hp.1
    have hnm := hp.2 m ho.1
    rw [hinj m ho.1 n hp.1 (by omega)]

theorem best_step {pick : α → α → α} {S : α → Prop} (hmem : ∀ a b, pick a b = a ∨ pick a b = b)
    (hle : ∀ a b, S a → S b → key (pick a b) ≤ key a ∧ key (pick a b) ≤ key b) {xs : List α} (hxs : ∀ x ∈ xs, S x)
    {acc : Option α} (h : Best key xs acc) {x : α} (hx : S x) : Best key (xs ++ [x]) (reduceStep pick acc x) := by
  rcases acc with - | a
  · rw [Best] at h
    simp [h, reduceStep, Best]
  · obtain ⟨ha, hleast⟩ := h
    obtain ⟨hleft, hright⟩ := hle a x (hxs a ha) hx
    constructor
    · rcases hmem a x with hp | hp <;> rw [hp]
      · exact List.mem_append_left _ ha
      · simp
    · intro y hy
      rcases List.mem_append.1 hy with hy | hy
      · exact hleft.trans (hleast y hy)
      · rw [List.mem_singleton.1 hy]
        exact hright

/-- **The loop ends with the best value**, if the members can be compared -/
theorem best_foldl {pick : α → α → α} {S : α → Prop} (hmem : ∀ a b, pick a b = a ∨ pick a b = b)
    (hle : ∀ a b, S a → S b → key (pick a b) ≤ key a ∧ key (pick a b) ≤ key b) {xs : List α} (hxs : ∀ x ∈ xs, S x) :
    Best key xs (xs.foldl (reduceStep pick) none) := by
  have hloop : ∀ rest done acc, (∀ x ∈ done ++ rest, S x) → Best key done acc →
      Best key (done ++ rest) (rest.foldl (reduceStep pick) acc) := by
    intro rest
    induction rest with
    | nil => intro done acc _ h; simpa using h
    | cons x rest ih =>
      intro done acc hS h
      have hdone : ∀ y ∈ done, S y := fun y hy => hS y (List.mem_append_left _ hy)
      have hstep := best_step hmem hle hdone h (hS x (by simp))
      have hrest := ih (done ++ [x]) _ (by simpa using hS) hstep
      rwa [List.append_assoc] at hrest
  exact hloop xs [] none hxs rfl

end Best

end Reduction
