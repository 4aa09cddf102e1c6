/-
Splitting the rows of a dataset into chunks (`chunk_ranges` in `src/execution/mod.rs`).

`chunkRanges` is the source's loop on `usize`: none is an overflow of `start + chunk_size` (or a division by zero for a
chunk size of zero, which the engine refuses to be built with). The capacity hint of the result is left out.

- `chunkRanges_covers`: for every row count a `Vec` can have and every `usize` chunk size above zero there are ranges,
  not empty, each starting where the last one stopped, that cover the rows; there are `⌈row_count / chunk_size⌉` of them.
- `flatten_slices`: the slices of such ranges, one after the other, are the rows.
-/
import Mathlib.Tactic

namespace RustDataProcessing.Execution

def usizeBound : ℕ := 2 ^ 64

/-- the most elements a `Vec` can have -/
def isizeMax : ℕ := 2 ^ 63 - 1

structure Range where
  start : ℕ
  stop : ℕ
deriving DecidableEq, Repr

/-- the `while` loop, with fuel; none when it overflows or runs out -/
def chunkLoop (rowCount chunkSize : ℕ) : ℕ → ℕ → Option (List Range)
  | 0, _ => none
  | fuel + 1, start =>
    if start < rowCount then
      if start + chunkSize < usizeBound then
        let stop := min (start + chunkSize) rowCount
        (chunkLoop rowCount chunkSize fuel stop).map (⟨start, stop⟩ :: ·)
      else none
    else some []

/-- every pass but the last advances by at least one row, so one pass more than there are rows is enough -/
def chunkRanges (rowCount chunkSize : ℕ) : Option (List Range) :=
  if rowCount = 0 then some []
  else if chunkSize = 0 then none
  else chunkLoop rowCount chunkSize (rowCount + 1) 0

/-- ranges that are not empty, each starting where the last one stopped, from `lo` to `hi` -/
inductive Covers : ℕ → ℕ → List Range → Prop where
  | nil (n : ℕ) : Covers n n []
  | cons {lo mid hi : ℕ} {rs : List Range} (hlt : lo < mid) (hrest : Covers mid hi rs) : Covers lo hi (⟨lo, mid⟩ :: rs)

def divCeil (n d : ℕ) : ℕ := (n + d - 1) / d

theorem divCeil_step {n d : ℕ} (hd : 0 < d) (hn : 0 < n) : divCeil n d = divCeil (n - min d n) d + 1 := by
  unfold divCeil
  rcases le_total d n with h | h
  · rw [min_eq_left h, ← Nat.add_div_right _ hd]
    congr 1
    omega
  · rw [min_eq_right h, Nat.sub_self, Nat.zero_add, Nat.div_eq_of_lt (Nat.sub_lt hd one_pos)]
    exact Nat.div_eq_of_lt_le (by omega) (by omega)

theorem divCeil_le {n d : ℕ} (hd : 0 < d) : divCeil n d ≤ n := by
  unfold divCeil
  rcases n with _ | n
  · rw [Nat.zero_add, Nat.div_eq_of_lt (Nat.sub_lt hd one_pos)]
  · apply Nat.div_le_of_le_mul
    have hle : n ≤ d * n := Nat.le_mul_of_pos_left n hd
    rw [Nat.mul_succ]
    omega

/-- the loop from `start`: once it has advanced, the chunk size is at most `start`, so the sum cannot overflow -/
theorem chunkLoop_covers {rowCount chunkSize : ℕ} (hrows : rowCount ≤ isizeMax) (hpos : 0 < chunkSize)
    (hsize : chunkSize < usizeBound) {fuel start : ℕ} (hfuel : rowCount - start < fuel) (hle : start ≤ rowCount)
    (hstart : start = 0 ∨ chunkSize ≤ start ∨ start = rowCount) :
    ∃ rs, chunkLoop rowCount chunkSize fuel start = some rs ∧ Covers start rowCount rs ∧
      rs.length = divCeil (rowCount - start) chunkSize := by
  induction fuel generalizing start with
  | zero => omega
  | succ fuel ih =>
    rw [chunkLoop]
    by_cases hlt : start < rowCount
    · have hfits : start + chunkSize < usizeBound := by
        unfold usizeBound isizeMax at *
        omega
      obtain ⟨rs, hrs, hcov, hlen⟩ := @ih (min (start + chunkSize) rowCount) (by omega) (by omega) (by omega)
      refine ⟨⟨start, min (start + chunkSize) rowCount⟩ :: rs, by simp [hlt, hfits, hrs], .cons (by omega) hcov, ?_⟩
      rw [List.length_cons, hlen, divCeil_step hpos (Nat.sub_pos_of_lt hlt)]
      congr 2
      omega
    · have heq : start = rowCount := by omega
      subst heq
      refine ⟨[], by simp, .nil start, ?_⟩
      rw [Nat.sub_self, divCeil, Nat.zero_add, Nat.div_eq_of_lt (Nat.sub_lt hpos one_pos), List.length_nil]

/-- **The ranges of a dataset**: they exist, cover the rows, and are as many as the chunk size asks for -/
theorem chunkRanges_covers {rowCount chunkSize : ℕ} (hrows : rowCount ≤ isizeMax) (hpos : 0 < chunkSize)
    (hsize : chunkSize < usizeBound) :
    ∃ rs, chunkRanges rowCount chunkSize = some rs ∧ Covers 0 rowCount rs ∧ rs.length = divCeil rowCount chunkSize := by
  unfold chunkRanges
  rcases Nat.eq_zero_or_pos rowCount with rfl | h
  · refine ⟨[], rfl, .nil 0, ?_⟩
    rw [divCeil, Nat.zero_add, Nat.div_eq_of_lt (Nat.sub_lt hpos one_pos), List.length_nil]
  · rw [if_neg h.ne', if_neg hpos.ne']
    exact chunkLoop_covers hrows hpos hsize (by omega) (Nat.zero_le _) (Or.inl rfl)

/-! ## Ranges that cover -/

theorem Covers.le {lo hi : ℕ} {rs : List Range} (h : Covers lo hi rs) : lo ≤ hi := by
  induction h with
  | nil n => exact le_rfl
  | cons hlt _ ih => omega

theorem Covers.nonempty {lo hi : ℕ} {rs : List Range} (h : Covers lo hi rs) : ∀ r ∈ rs, r.start < r.stop := by
  induction h with
  | nil n => simp
  | cons hlt _ ih => exact List.forall_mem_cons.2 ⟨hlt, ih⟩

theorem Covers.within {lo hi : ℕ} {rs : List Range} (h : Covers lo hi rs) : ∀ r ∈ rs, lo ≤ r.start ∧ r.stop ≤ hi := by
  induction h with
  | nil n => simp
  | cons hlt hrest ih =>
    refine List.forall_mem_cons.2 ⟨⟨le_rfl, hrest.le⟩, fun r hr => ?_⟩
    obtain ⟨h1, h2⟩ := ih r hr
    exact ⟨by omega, h2⟩

theorem Covers.disjoint {lo hi : ℕ} {rs : List Range} (h : Covers lo hi rs) :
    rs.Pairwise fun r s => r.stop ≤ s.start := by
  induction h with
  | nil n => exact .nil
  | cons _ hrest ih => exact .cons (fun r hr => (hrest.within r hr).1) ih

/-- the ranges have the numbers from `lo` to `hi` and no other -/
theorem Covers.mem_iff {lo hi : ℕ} {rs : List Range} (h : Covers lo hi rs) (i : ℕ) :
    (∃ r ∈ rs, r.start ≤ i ∧ i < r.stop) ↔ lo ≤ i ∧ i < hi := by
  induction h with
  | nil n => simp
  | @cons lo mid hi rs hlt hrest ih =>
    have hmid := hrest.le
    rw [List.exists_mem_cons_iff, ih]
    constructor
    · rintro (⟨h1, h2⟩ | ⟨h1, h2⟩)
      · exact ⟨h1, lt_of_lt_of_le h2 hmid⟩
      · exact ⟨hlt.le.trans h1, h2⟩
    · rintro ⟨h1, h2⟩
      rcases lt_or_ge i mid with h | h
      · exact Or.inl ⟨h1, h⟩
      · exact Or.inr ⟨h, h2⟩

/-- `rows[range]` -/
def slice {α : Type} (rows : List α) (r : Range) : List α := (rows.take r.stop).drop r.start

theorem flatten_slices {α : Type} {rows : List α} {lo hi : ℕ} {rs : List Range} (h : Covers lo hi rs)
    (hle : hi ≤ rows.length) : (rs.map (slice rows)).flatten = (rows.take hi).drop lo := by
  induction h with
  | nil n => simp
  | @cons lo mid hi rs hlt hrest ih =>
    have hmid := hrest.le
    rw [List.map_cons, List.flatten_cons, ih hle, slice]
    have hsplit : rows.take hi = rows.take mid ++ (rows.take hi).drop mid := by
      have happ := (List.take_append_drop mid (rows.take hi)).symm
      rwa [List.take_take, min_eq_left hmid] at happ
    conv_rhs => rw [hsplit, List.drop_append_of_le_length (by rw [List.length_take]; omega)]

example : chunkRanges 10 4 = some [⟨0, 4⟩, ⟨4, 8⟩, ⟨8, 10⟩] := by decide

end RustDataProcessing.Execution
