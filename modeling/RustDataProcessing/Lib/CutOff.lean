/-
Limiting a filtered concatenation. Parts of elements are concatenated, filtered and limited to the first `n`
(`limited`); the variant that first cuts each part off at `n` (`cutFirst`) is compared with it.

`marked` lists the kept elements in order, each with whether its part's cut-off lets it through. The two agree exactly
when no element that is cut off stands among the first `n` (`NothingReached`), or, exceptionally, the elements that move
up into the places of the lost ones are equal to what stood there (`Refilled`): `cutFirst_eq_limited_iff`.

The same holds of marks from anywhere: what is let through is the first `n` of all exactly when there are at most `n` of
it and none of the first `n` is lost, or each is replaced by an equal one (`through_eq_take_iff`). `capped` limits how
many marks are true.
-/
import Mathlib.Tactic

namespace CutOff

variable {α : Type*} (keep : α → Bool) (n : ℕ)

def limited (parts : List (List α)) : List α := (parts.flatten.filter keep).take n

def cutFirst (parts : List (List α)) : List α := ((parts.map (List.take n)).flatten.filter keep).take n

/-- the kept elements in order: true for one within the first `n` of its part -/
def marked (parts : List (List α)) : List (α × Bool) :=
  parts.flatMap fun p => ((p.take n).filter keep).map (·, true) ++ ((p.drop n).filter keep).map (·, false)

/-- how many kept elements stand before the first one that is cut off -/
def untouched (parts : List (List α)) : ℕ := ((marked keep n parts).takeWhile Prod.snd).length

def NothingReached (parts : List (List α)) : Prop := ∀ x ∈ (marked keep n parts).take n, x.2 = true

/-- from the first lost place on, every place holds an element equal to the one that moves up into it -/
def Refilled (parts : List (List α)) : Prop :=
  (((marked keep n parts).map Prod.fst).drop (untouched keep n parts)).take (n - untouched keep n parts) =
    ((((marked keep n parts).filter Prod.snd).map Prod.fst).drop (untouched keep n parts)).take
      (n - untouched keep n parts)

instance (parts : List (List α)) : Decidable (NothingReached keep n parts) := by
  unfold NothingReached; infer_instance

instance [DecidableEq α] (parts : List (List α)) : Decidable (Refilled keep n parts) := by
  unfold Refilled; infer_instance

theorem marked_fst (parts : List (List α)) : (marked keep n parts).map Prod.fst = parts.flatten.filter keep := by
  induction parts with
  | nil => rfl
  | cons p ps ih =>
    simp only [marked, List.flatMap_cons, List.map_append, List.map_map] at ih ⊢
    rw [ih, List.flatten_cons, List.filter_append]
    conv_rhs => rw [← List.take_append_drop n p, List.filter_append]
    simp [Function.comp_def]

theorem marked_through (parts : List (List α)) : ((marked keep n parts).filter Prod.snd).map Prod.fst =
    (parts.map (List.take n)).flatten.filter keep := by
  induction parts with
  | nil => rfl
  | cons p ps ih =>
    simp only [marked, List.flatMap_cons, List.filter_append, List.map_append] at ih ⊢
    rw [ih]
    simp [List.filter_map, Function.comp_def, List.filter_filter]

/-- two lists with a common prefix of `j` elements have the same first `n` iff they have the same `n - j` after it -/
theorem take_eq_iff_drop {l m : List α} {j : ℕ} (h : l.take j = m.take j) :
    l.take n = m.take n ↔ (l.drop j).take (n - j) = (m.drop j).take (n - j) := by
  constructor
  · intro he
    rw [← List.drop_take, ← List.drop_take, he]
  · intro he
    rcases le_total n j with hj | hj
    · have := congrArg (List.take n) h
      simpa [List.take_take, hj] using this
    · rw [← List.take_append_drop j (l.take n), ← List.take_append_drop j (m.take n), List.take_take, List.take_take,
        min_eq_left hj, h, List.drop_take, List.drop_take, he]

/-- the elements before the first cut-off one are the same in both lists -/
theorem prefix_untouched (l : List (α × Bool)) :
    (l.map Prod.fst).take (l.takeWhile Prod.snd).length =
      ((l.filter Prod.snd).map Prod.fst).take (l.takeWhile Prod.snd).length := by
  induction l with
  | nil => rfl
  | cons x l ih =>
    by_cases hx : x.2 = true
    · simp [hx, ih]
    · simp [hx]

/-- when the first `n` are all let through, dropping the others changes nothing among them -/
theorem take_filter_of_forall {l : List (α × Bool)} {n : ℕ} (h : ∀ x ∈ l.take n, x.2 = true) :
    (l.filter Prod.snd).take n = l.take n := by
  induction l generalizing n with
  | nil => rfl
  | cons x l ih =>
    cases n with
    | zero => rfl
    | succ n =>
      have hx : x.2 = true := h x (by simp)
      rw [List.filter_cons_of_pos hx, List.take_succ_cons, List.take_succ_cons,
        ih fun y hy => h y (by rw [List.take_succ_cons]; exact List.mem_cons_of_mem _ hy)]

/-! ## Marks -/

/-- what is let through -/
def through (marks : List (α × Bool)) : List α := (marks.filter Prod.snd).map Prod.fst

/-- none of the first `n` is lost -/
def AllThrough (marks : List (α × Bool)) : Prop := ∀ x ∈ marks.take n, x.2 = true

/-- from the first lost place on, every one of the first `n` places holds an element equal to the one that moves up -/
def FilledUp (marks : List (α × Bool)) : Prop :=
  ((marks.map Prod.fst).drop (marks.takeWhile Prod.snd).length).take (n - (marks.takeWhile Prod.snd).length) =
    ((through marks).drop (marks.takeWhile Prod.snd).length).take (n - (marks.takeWhile Prod.snd).length)

instance (marks : List (α × Bool)) : Decidable (AllThrough n marks) := by
  unfold AllThrough; infer_instance

instance [DecidableEq α] (marks : List (α × Bool)) : Decidable (FilledUp n marks) := by
  unfold FilledUp; infer_instance

theorem take_through_eq_iff (marks : List (α × Bool)) :
    (through marks).take n = (marks.map Prod.fst).take n ↔ AllThrough n marks ∨ FilledUp n marks := by
  rw [eq_comm]
  constructor
  · intro h
    exact Or.inr ((take_eq_iff_drop n (prefix_untouched _)).1 h)
  · rintro (h | h)
    · rw [through, ← List.map_take, ← List.map_take, take_filter_of_forall h]
    · exact (take_eq_iff_drop n (prefix_untouched _)).2 h

/-- **What is let through is the first `n`** exactly when there is no more of it, and nothing it lacks is wanted -/
theorem through_eq_take_iff (marks : List (α × Bool)) :
    through marks = (marks.map Prod.fst).take n ↔
      (through marks).length ≤ n ∧ (AllThrough n marks ∨ FilledUp n marks) := by
  rw [← take_through_eq_iff]
  constructor
  · intro h
    have hlen : (through marks).length ≤ n := by rw [h]; exact List.length_take_le _ _
    exact ⟨hlen, by rw [List.take_of_length_le hlen, h]⟩
  · rintro ⟨hlen, h⟩
    rwa [List.take_of_length_le hlen] at h

/-- marks of which only the first `k` true ones stay true -/
def capped : ℕ → List (α × Bool) → List (α × Bool)
  | _, [] => []
  | k, (x, false) :: marks => (x, false) :: capped k marks
  | 0, (x, true) :: marks => (x, false) :: capped 0 marks
  | k + 1, (x, true) :: marks => (x, true) :: capped k marks

theorem capped_fst (k : ℕ) (marks : List (α × Bool)) : (capped k marks).map Prod.fst = marks.map Prod.fst := by
  fun_induction capped k marks with
  | case1 => rfl
  | case2 k x marks ih => simp [ih]
  | case3 x marks ih => simp [ih]
  | case4 k x marks ih => simp [ih]

theorem through_capped (k : ℕ) (marks : List (α × Bool)) : through (capped k marks) = (through marks).take k := by
  unfold through
  fun_induction capped k marks with
  | case1 => simp
  | case2 k x marks ih => simp [ih]
  | case3 x marks ih => simp [ih]
  | case4 k x marks ih => simp [ih]

theorem through_append (marks marks' : List (α × Bool)) : through (marks ++ marks') = through marks ++ through marks' := by
  simp [through]

theorem through_flatMap {β : Type*} (f : β → List (α × Bool)) (l : List β) :
    through (l.flatMap f) = (l.map fun b => through (f b)).flatten := by
  induction l with
  | nil => rfl
  | cons b l ih => rw [List.flatMap_cons, through_append, ih, List.map_cons, List.flatten_cons]

theorem through_all (l : List α) : through (l.map (·, true)) = l := by
  simp [through, List.filter_map, Function.comp_def]

/-! ## Parts cut off first -/

/-- when everything is kept, a part long enough to be cut off fills all `n` places with what stays of it -/
theorem nothingReached_of_forall {keep : α → Bool} {n : ℕ} (h : ∀ x, keep x = true) (parts : List (List α)) :
    NothingReached keep n parts := by
  have key : ∀ m, m ≤ n → ∀ x ∈ (marked keep n parts).take m, x.2 = true := by
    induction parts with
    | nil => intro m _ x hx; simp [marked] at hx
    | cons p ps ih =>
      intro m hm x hx
      have hf : ∀ l : List α, l.filter keep = l := fun l => List.filter_eq_self.2 fun x _ => h x
      simp only [marked, List.flatMap_cons, hf] at ih hx
      rcases le_total n p.length with hl | hl
      · rw [List.append_assoc, List.take_append_of_le_length (by simp; omega)] at hx
        obtain ⟨y, -, rfl⟩ := List.mem_map.1 (List.mem_of_mem_take hx)
        rfl
      · rw [List.drop_eq_nil_of_le hl, List.map_nil, List.append_nil, List.take_append] at hx
        rcases List.mem_append.1 hx with hx | hx
        · obtain ⟨y, -, rfl⟩ := List.mem_map.1 (List.mem_of_mem_take hx)
          rfl
        · exact ih _ (by omega) x hx
  exact key n le_rfl

/-- **The cut-off is harmless** exactly when it takes nothing from the first `n` kept elements, or what it takes is
replaced by equal elements -/
theorem cutFirst_eq_limited_iff (parts : List (List α)) :
    cutFirst keep n parts = limited keep n parts ↔ NothingReached keep n parts ∨ Refilled keep n parts := by
  unfold cutFirst limited
  rw [← marked_through keep n parts, ← marked_fst keep n parts]
  exact take_through_eq_iff n (marked keep n parts)

/-! ## What is left behind -/

/-- the kept elements that `cutFirst` does not return: those past the limit, then those cut off with their part -/
def leftBehind (parts : List (List α)) : List α :=
  (((marked keep n parts).filter Prod.snd).map Prod.fst).drop n ++
    ((marked keep n parts).filter fun x => !x.2).map Prod.fst

theorem cutFirst_append_leftBehind (parts : List (List α)) :
    (cutFirst keep n parts ++ leftBehind keep n parts).Perm (parts.flatten.filter keep) := by
  unfold cutFirst leftBehind
  rw [← marked_through keep n parts, ← marked_fst keep n parts, ← List.append_assoc, List.take_append_drop,
    ← List.map_append]
  exact (List.filter_append_perm _ _).map _

end CutOff
