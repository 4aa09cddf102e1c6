/-
Counting the members of a list in buckets under a key.

- `foldl_add`: with a key that tells the members apart, there is one bucket for each of them, with its number of
  occurrences;
- `sum_counts`: these numbers add up to the length of the list.
-/
import Mathlib.Tactic

namespace Buckets

variable {α κ : Type} [DecidableEq α] [DecidableEq κ]

/-- one more member: the bucket of its key counts it, or a new one does -/
def add (buckets : List (κ × α × ℕ)) (key : κ) (a : α) : List (κ × α × ℕ) :=
  match buckets.lookup key with
  | some _ => buckets.map fun m => if m.1 = key then (key, m.2.1, m.2.2 + 1) else m
  | none => buckets ++ [(key, a, 1)]

/-- the buckets of some values, with their numbers of occurrences in a list -/
def counts (key : α → κ) (values as : List α) : List (κ × α × ℕ) := values.map fun a => (key a, a, as.count a)

theorem lookup_counts {key : α → κ} {values as : List α} {a : α} (hkey : ∀ b ∈ values, key b = key a → b = a) :
    (counts key values as).lookup (key a) = if a ∈ values then some (a, as.count a) else none := by
  induction values with
  | nil => rfl
  | cons b values ih =>
    obtain ⟨hb, hvalues⟩ := List.forall_mem_cons.1 hkey
    have hrest := ih hvalues
    rw [counts] at hrest
    rw [counts, List.map_cons, List.lookup_cons]
    by_cases hab : a = b
    · simp [hab]
    · have hne : key a ≠ key b := fun h => hab (hb h.symm).symm
      simp [beq_false_of_ne hne, hrest, hab]

/-- one more member of a list whose members are counted -/
theorem add_counts {key : α → κ} {values as : List α} {a : α} (hkey : ∀ b ∈ values, key b = key a → b = a)
    (hmem : ∀ b, b ∈ values ↔ b ∈ as) :
    add (counts key values as) (key a) a =
      counts key (if a ∈ values then values else values ++ [a]) (as ++ [a]) := by
  have hothers : ∀ b ∈ values, b ≠ a → (key b, b, as.count b) = (key b, b, (as ++ [a]).count b) := by
    intro b _ hba
    rw [List.count_append, List.count_singleton, if_neg (by simpa using hba.symm), Nat.add_zero]
  rw [add, lookup_counts hkey]
  split_ifs with ha
  · simp only [counts, List.map_map]
    refine List.map_congr_left fun b hb => ?_
    by_cases hba : b = a
    · simp [hba]
    · have hne : key b ≠ key a := fun h => hba (hkey b hb h)
      simp only [Function.comp, if_neg hne]
      exact hothers b hb hba
  · have hnone : as.count a = 0 := List.count_eq_zero.2 fun h => ha ((hmem a).2 h)
    simp only [counts, List.map_append, List.map_singleton, List.count_append, hnone, List.count_singleton_self,
      Nat.zero_add]
    congr 1
    refine List.map_congr_left fun b hb => ?_
    have hba : b ≠ a := fun h => ha (h ▸ hb)
    rw [hothers b hb hba, List.count_append]

/-- **The buckets of a list**: one for each of its members -/
theorem foldl_add {key : α → κ} {as : List α} (hkey : ∀ a ∈ as, ∀ b ∈ as, key a = key b → a = b) :
    ∃ values : List α, values.Nodup ∧ (∀ a, a ∈ values ↔ a ∈ as) ∧
      as.foldl (fun buckets a => add buckets (key a) a) [] = counts key values as := by
  induction as using List.reverseRecOn with
  | nil => exact ⟨[], List.nodup_nil, by simp, rfl⟩
  | append_singleton as a ih =>
    obtain ⟨values, hnodup, hmem, hfold⟩ := ih fun b hb c hc => hkey b (by simp [hb]) c (by simp [hc])
    have hapart : ∀ b ∈ values, key b = key a → b = a :=
      fun b hb => hkey b (by simp [(hmem b).1 hb]) a (by simp)
    refine ⟨if a ∈ values then values else values ++ [a], ?_, ?_, ?_⟩
    · split_ifs with ha
      · exact hnodup
      · exact hnodup.append (List.nodup_singleton a) (by simpa using ha)
    · intro b
      split_ifs with ha
      · rw [hmem, List.mem_append, List.mem_singleton]
        exact ⟨Or.inl, fun h => h.elim id fun h => h ▸ (hmem a).1 ha⟩
      · rw [List.mem_append, List.mem_append, hmem]
    · rw [List.foldl_concat, hfold, add_counts hapart hmem]

/-- **The counts** of the values of a list add up to its length -/
theorem sum_counts {values as : List α} (hnodup : values.Nodup) (hmem : ∀ a, a ∈ values ↔ a ∈ as) :
    (values.map fun a => as.count a).sum = as.length := by
  have hperm : values.Perm as.dedup :=
    (List.perm_ext_iff_of_nodup hnodup as.nodup_dedup).2 fun a => (hmem a).trans List.mem_dedup.symm
  rw [(hperm.map _).sum_eq]
  exact List.sum_map_count_dedup_eq_length as

end Buckets
