/-
The middle of a list: its middle member, or what stands between its middle two.

- `halves`: every list is empty, or has one member in the middle, or two; `middle_odd` and `middle_even` say what its
  middle then is.
- `middle_rel`: lists that are related place by place have related middles.
- `exists_middle_odd`, `exists_middle_even`: some arrangement of a list has given members in its middle.
-/
import Mathlib.Tactic

namespace OrderStatistics

variable {α β : Type}

/-- the middle one, or what is between the middle two -/
def middle (between : α → α → α) (xs : List α) : Option α :=
  let n := xs.length
  if n % 2 = 1 then xs[n / 2]?
  else do
    let a ← xs[n / 2 - 1]?
    let b ← xs[n / 2]?
    pure (between a b)

theorem middle_odd (between : α → α → α) {before behind : List α} (x : α) (h : before.length = behind.length) :
    middle between (before ++ x :: behind) = some x := by
  have hlength : (before ++ x :: behind).length = 2 * before.length + 1 := by
    rw [List.length_append, List.length_cons]
    omega
  have hhalf : (2 * before.length + 1) / 2 = before.length := by omega
  unfold middle
  dsimp only
  rw [hlength, hhalf, if_pos (by omega), List.getElem?_append_right le_rfl, Nat.sub_self]
  rfl

theorem middle_even (between : α → α → α) {before behind : List α} (x y : α) (h : before.length = behind.length) :
    middle between (before ++ x :: y :: behind) = some (between x y) := by
  have hlength : (before ++ x :: y :: behind).length = 2 * before.length + 2 := by
    rw [List.length_append, List.length_cons, List.length_cons]
    omega
  have hhalf : (2 * before.length + 2) / 2 = before.length + 1 := by omega
  unfold middle
  dsimp only
  rw [hlength, hhalf, if_neg (by omega), Nat.add_sub_cancel, List.getElem?_append_right le_rfl,
    List.getElem?_append_right (Nat.le_succ _), Nat.succ_sub le_rfl, Nat.sub_self]
  rfl

/-- **Halves**: a list is empty, or has one member in the middle, or two -/
theorem halves (xs : List α) : xs = [] ∨
    (∃ before x behind, xs = before ++ x :: behind ∧ before.length = behind.length) ∨
    (∃ before x y behind, xs = before ++ x :: y :: behind ∧ before.length = behind.length) := by
  rcases Nat.even_or_odd' xs.length with ⟨n, hn | hn⟩
  · rcases n with - | n
    · exact Or.inl (List.eq_nil_of_length_eq_zero hn)
    · refine Or.inr (Or.inr ⟨xs.take n, xs[n], xs[n + 1], xs.drop (n + 2), ?_, ?_⟩)
      · rw [← List.drop_eq_getElem_cons, ← List.drop_eq_getElem_cons, List.take_append_drop]
      · rw [List.length_take, List.length_drop]
        omega
  · refine Or.inr (Or.inl ⟨xs.take n, xs[n], xs.drop (n + 1), ?_, ?_⟩)
    · rw [← List.drop_eq_getElem_cons, List.take_append_drop]
    · rw [List.length_take, List.length_drop]
      omega

theorem middle_eq_none {between : α → α → α} {xs : List α} : middle between xs = none ↔ xs = [] := by
  rcases halves xs with rfl | ⟨before, x, behind, rfl, h⟩ | ⟨before, x, y, behind, rfl, h⟩
  · simp [middle]
  · simp [middle_odd between x h]
  · simp [middle_even between x y h]

theorem getElem?_rel {r : α → β → Prop} {xs : List α} {ys : List β} (h : List.Forall₂ r xs ys) (i : ℕ) :
    Option.Rel r xs[i]? ys[i]? := by
  induction h generalizing i with
  | nil => exact .none
  | cons hxy _ ih =>
    rcases i with - | i
    · exact .some hxy
    · exact ih i

/-- **Related lists** have related middles -/
theorem middle_rel {r : α → β → Prop} {between : α → α → α} {between' : β → β → β}
    (hbetween : ∀ a a' b b', r a a' → r b b' → r (between a b) (between' a' b')) {xs : List α} {ys : List β}
    (h : List.Forall₂ r xs ys) : Option.Rel r (middle between xs) (middle between' ys) := by
  unfold middle
  rw [h.length_eq]
  dsimp only
  split_ifs
  · exact getElem?_rel h _
  · have hleft := getElem?_rel h (ys.length / 2 - 1)
    have hright := getElem?_rel h (ys.length / 2)
    generalize xs[ys.length / 2 - 1]? = a, ys[ys.length / 2 - 1]? = a' at hleft
    generalize xs[ys.length / 2]? = b, ys[ys.length / 2]? = b' at hright
    rcases hleft with ⟨ha⟩ | - <;> rcases hright with ⟨hb⟩ | -
    · exact .some (hbetween _ _ _ _ ha hb)
    · exact .none
    · exact .none
    · exact .none

/-! ## Arrangements -/

/-- a part `mid` of a list can stand at any place -/
theorem exists_arrangement {xs mid rest : List α} (hperm : xs.Perm (mid ++ rest)) {m : ℕ} (hm : m ≤ rest.length) :
    ∃ before behind : List α, (before ++ (mid ++ behind)).Perm xs ∧ before.length = m ∧
      behind.length = rest.length - m := by
  refine ⟨rest.take m, rest.drop m, ?_, List.length_take_of_le hm, List.length_drop⟩
  have hswap : (rest.take m ++ (mid ++ rest.drop m)).Perm (mid ++ (rest.take m ++ rest.drop m)) := by
    rw [← List.append_assoc, ← List.append_assoc]
    exact List.perm_append_comm.append_right _
  rw [List.take_append_drop] at hswap
  exact hswap.trans hperm.symm

/-- any member can stand in the middle of an odd number of them -/
theorem exists_middle_odd (between : α → α → α) {xs rest : List α} {x : α} (hperm : xs.Perm (x :: rest))
    (hlength : xs.length % 2 = 1) : ∃ ys : List α, ys.Perm xs ∧ middle between ys = some x := by
  have hrest := hperm.length_eq
  rw [List.length_cons] at hrest
  obtain ⟨before, behind, hys, hbefore, hbehind⟩ :=
    @exists_arrangement _ xs [x] rest hperm (rest.length / 2) (Nat.div_le_self _ _)
  have hhalf : before.length = behind.length := by omega
  exact ⟨_, hys, middle_odd between x hhalf⟩

/-- any two members can stand in the middle of an even number of them -/
theorem exists_middle_even (between : α → α → α) {xs rest : List α} {x y : α} (hperm : xs.Perm (x :: y :: rest))
    (hlength : xs.length % 2 = 0) : ∃ ys : List α, ys.Perm xs ∧ middle between ys = some (between x y) := by
  have hrest := hperm.length_eq
  rw [List.length_cons, List.length_cons] at hrest
  obtain ⟨before, behind, hys, hbefore, hbehind⟩ :=
    @exists_arrangement _ xs [x, y] rest hperm (rest.length / 2) (Nat.div_le_self _ _)
  have hhalf : before.length = behind.length := by omega
  exact ⟨_, hys, middle_even between x y hhalf⟩

end OrderStatistics
