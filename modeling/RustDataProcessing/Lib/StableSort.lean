/-
Stable sorts by a comparison function, which need not be a total order.

- `TotalOrderOn`: on the members of a list the comparison is a total order, ties aside.
- `StableSorted`: a list in order, where ties keep their places. A total order on the members is enough for one
  (`mergeSort_stableSorted`), and where all members tie it is the list itself (`StableSorted.eq_of_ties`).
- `keys_of_ordered`: two arrangements of one list, both ordered by a key, have the same key at each place.
-/
import Mathlib.Tactic

namespace StableSort

variable {α β : Type}

/-! ## Orders on a list -/

/-- exactly one of less, equal and greater; and each of the three is transitive -/
structure TotalOrderOn (cmp : α → α → Ordering) (xs : List α) : Prop where
  swap : ∀ a ∈ xs, ∀ b ∈ xs, cmp b a = (cmp a b).swap
  trans : ∀ a ∈ xs, ∀ b ∈ xs, ∀ c ∈ xs, cmp a b = cmp b c → cmp a c = cmp a b

instance (cmp : α → α → Ordering) (xs : List α) : Decidable (TotalOrderOn cmp xs) :=
  decidable_of_iff
    ((∀ a ∈ xs, ∀ b ∈ xs, cmp b a = (cmp a b).swap) ∧
      ∀ a ∈ xs, ∀ b ∈ xs, ∀ c ∈ xs, cmp a b = cmp b c → cmp a c = cmp a b)
    ⟨fun h => ⟨h.1, h.2⟩, fun h => ⟨h.swap, h.trans⟩⟩

/-- `ys` is `xs` in order, and what ties keeps its places -/
structure StableSorted (cmp : α → α → Ordering) (xs ys : List α) : Prop where
  perm : ys.Perm xs
  ordered : ys.Pairwise fun a b => cmp a b ≠ .gt
  stable : ∀ zs : List α, (zs.Pairwise fun a b => cmp a b = .eq) → zs.Sublist xs → zs.Sublist ys

namespace TotalOrderOn

variable {cmp : α → α → Ordering} {xs : List α}

theorem subset (h : TotalOrderOn cmp xs) {ys : List α} (hsub : ∀ a ∈ ys, a ∈ xs) : TotalOrderOn cmp ys :=
  ⟨fun a ha b hb => h.swap a (hsub a ha) b (hsub b hb),
    fun a ha b hb c hc => h.trans a (hsub a ha) b (hsub b hb) c (hsub c hc)⟩

/-- a key makes an order -/
theorem of_key {key : α → ℤ} (h : ∀ a ∈ xs, ∀ b ∈ xs, cmp a b = compare (key a) (key b)) : TotalOrderOn cmp xs := by
  refine ⟨fun a ha b hb => ?_, fun a ha b hb c hc => ?_⟩
  · rw [h a ha b hb, h b hb a ha]
    exact Std.OrientedCmp.eq_swap
  · rw [h a ha b hb, h b hb c hc, h a ha c hc]
    rcases lt_trichotomy (key a) (key b) with hab | hab | hab
    · rw [compare_lt_iff_lt.2 hab]
      intro hbc
      exact compare_lt_iff_lt.2 (hab.trans (compare_lt_iff_lt.1 hbc.symm))
    · rw [hab]
      exact fun hbc => hbc.symm
    · rw [compare_gt_iff_gt.2 hab]
      intro hbc
      exact compare_gt_iff_gt.2 (lt_trans (compare_gt_iff_gt.1 hbc.symm) hab)

/-- not greater, and again not greater -/
theorem le_trans (h : TotalOrderOn cmp xs) {a b c : α} (ha : a ∈ xs) (hb : b ∈ xs) (hc : c ∈ xs) (hab : cmp a b ≠ .gt)
    (hbc : cmp b c ≠ .gt) : cmp a c ≠ .gt := by
  intro hac
  have hca : cmp c a = .lt := by rw [h.swap a ha c hc, hac]; rfl
  rcases hab' : cmp a b with - | - | -
  · -- from c < a < b
    have hcb : cmp c b = .lt := (h.trans c hc a ha b hb (hca.trans hab'.symm)).trans hca
    apply hbc
    rw [h.swap c hc b hb, hcb]
    rfl
  · rcases hbc' : cmp b c with - | - | -
    · -- from b < c < a
      have hba : cmp b a = .lt := (h.trans b hb c hc a ha (hbc'.trans hca.symm)).trans hbc'
      rw [h.swap a ha b hb, hab'] at hba
      cases hba
    · have heq := (h.trans a ha b hb c hc (hab'.trans hbc'.symm)).trans hab'
      rw [hac] at heq
      cases heq
    · exact hbc hbc'
  · exact hab hab'

theorem le_total (h : TotalOrderOn cmp xs) {a b : α} (ha : a ∈ xs) (hb : b ∈ xs) : cmp a b ≠ .gt ∨ cmp b a ≠ .gt := by
  rw [h.swap a ha b hb]
  rcases cmp a b <;> simp

end TotalOrderOn

/-! ## Sorts -/

/-- **A total order on the members** is enough to sort them -/
theorem mergeSort_stableSorted {cmp : α → α → Ordering} {xs : List α} (h : TotalOrderOn cmp xs) :
    StableSorted cmp xs (xs.mergeSort fun a b => cmp a b ≠ .gt) := by
  -- the members of the list are a type of their own, on which the comparison is a total order
  let le : {a // a ∈ xs} → {a // a ∈ xs} → Bool := fun a b => cmp a.1 b.1 ≠ .gt
  have hsort : (xs.attach.mergeSort le).map Subtype.val = xs.mergeSort fun a b => cmp a b ≠ .gt := by
    rw [@List.map_mergeSort _ _ le (fun a b => cmp a b ≠ .gt) Subtype.val _ fun _ _ _ _ => rfl,
      List.attach_map_subtype_val]
  have htrans : ∀ a b c : {a // a ∈ xs}, le a b → le b c → le a c := by
    intro a b c hab hbc
    exact decide_eq_true (h.le_trans a.2 b.2 c.2 (of_decide_eq_true hab) (of_decide_eq_true hbc))
  have htotal : ∀ a b : {a // a ∈ xs}, le a b || le b a := by
    intro a b
    simpa [le] using h.le_total a.2 b.2
  refine ⟨List.mergeSort_perm _ _, ?_, fun zs hties hsub => ?_⟩
  · rw [← hsort, List.pairwise_map]
    exact (List.pairwise_mergeSort htrans htotal _).imp fun hab => of_decide_eq_true hab
  · rw [← hsort]
    rw [← List.attach_map_subtype_val xs, List.sublist_map_iff] at hsub
    obtain ⟨zs, hsub, rfl⟩ := hsub
    rw [List.pairwise_map] at hties
    refine (List.sublist_mergeSort htrans htotal (hties.imp fun hab => ?_) hsub).map _
    simp [le, hab]

/-- a stable sort leaves ties alone -/
theorem StableSorted.eq_of_ties {cmp : α → α → Ordering} {xs ys : List α} (h : StableSorted cmp xs ys)
    (hties : ∀ a ∈ xs, ∀ b ∈ xs, cmp a b = .eq) : ys = xs := by
  have hpairs : xs.Pairwise fun a b => cmp a b = .eq :=
    List.Pairwise.imp_of_mem (fun ha hb _ => hties _ ha _ hb) (List.pairwise_of_forall fun _ _ => trivial)
  exact ((h.stable xs hpairs (List.Sublist.refl xs)).eq_of_length h.perm.length_eq.symm).symm

/-- **One ordered list of keys** -/
theorem keys_of_ordered {key : α → ℤ} {ys zs : List α} (hperm : ys.Perm zs)
    (hys : ys.Pairwise fun a b => key a ≤ key b) (hzs : zs.Pairwise fun a b => key a ≤ key b) :
    List.Forall₂ (fun a b => key a = key b) ys zs := by
  have hkeys : ys.map key = zs.map key :=
    (hperm.map key).eq_of_pairwise (fun _ _ _ _ => le_antisymm) (List.pairwise_map.2 hys) (List.pairwise_map.2 hzs)
  rw [← List.forall₂_eq_eq_eq, List.forall₂_map_left_iff, List.forall₂_map_right_iff] at hkeys
  exact hkeys

end StableSort
