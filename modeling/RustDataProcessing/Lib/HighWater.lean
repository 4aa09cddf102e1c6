/-
Draining a source by a high-water mark. Every row may have a key in a linear order. A run with floor `w` takes some of
the rows above `w` (`batch w`) and leaves the others (`left w`); the next floor is the greatest key taken; the drain
stops at the first run that takes nothing.

- `drain_total`: it stops, after at most one run more than there are rows above the first floor;
- `drain_subset`: it only ever takes rows above the first floor;
- `drain_perm_iff`: it takes every row above the first floor exactly once if and only if every run is safe: what a run
  leaves lies strictly above everything it takes (`Safe`). A row left behind at or below the next floor is lost.
-/
import Mathlib.Tactic

namespace HighWater

variable {ρ K : Type*} [LinearOrder K] (key : ρ → Option K)

def isAbove (w : K) : Option K → Bool
  | none => false
  | some k => w < k

def above (w : K) (rows : List ρ) : List ρ := rows.filter fun r => isAbove w (key r)

theorem isAbove_iff {w : K} {o : Option K} : isAbove w o = true ↔ ∃ k, o = some k ∧ w < k := by
  cases o <;> simp [isAbove]

theorem mem_above {w : K} {rows : List ρ} {r : ρ} : r ∈ above key w rows ↔ r ∈ rows ∧ ∃ k, key r = some k ∧ w < k := by
  simp [above, isAbove_iff]

/-- the rows above a higher floor are above the lower one -/
theorem above_above {w w' : K} (h : w ≤ w') (rows : List ρ) : above key w' (above key w rows) = above key w' rows := by
  unfold above
  rw [List.filter_filter]
  refine List.filter_congr fun r _ => ?_
  cases hk : key r with
  | none => simp [isAbove]
  | some k =>
    by_cases hlt : w' < k
    · simp [isAbove, hlt, h.trans_lt hlt]
    · simp [isAbove, hlt]

/-- how one run splits the rows above its floor -/
structure Split (rows : List ρ) where
  batch : K → List ρ
  left : K → List ρ
  perm : ∀ w, (batch w ++ left w).Perm (above key w rows)

variable {key} {rows : List ρ} (S : Split key rows)

/-- what the run leaves lies strictly above everything it takes, and it takes something if there is anything to take -/
structure Split.Safe (w : K) : Prop where
  later : ∀ r ∈ S.batch w, ∀ l ∈ S.left w, ∀ a b, key r = some a → key l = some b → a < b
  empty : S.batch w = [] → S.left w = []

/-- the greatest key taken -/
def Split.top (w : K) : Option K := ((S.batch w).filterMap key).max?

/-- the runs, each with its floor; none when the fuel is too small -/
def Split.drain : ℕ → K → Option (List (K × List ρ))
  | 0, _ => none
  | n + 1, w =>
    match S.top w with
    | none => some [(w, S.batch w)]
    | some w' => (Split.drain n w').map ((w, S.batch w) :: ·)

theorem Split.batch_above (w : K) {r : ρ} (h : r ∈ S.batch w) : r ∈ rows ∧ ∃ k, key r = some k ∧ w < k :=
  (mem_above key).1 ((S.perm w).subset (List.mem_append_left _ h))

theorem Split.top_eq_none {w : K} (h : S.top w = none) : S.batch w = [] := by
  rw [Split.top, List.max?_eq_none_iff, List.filterMap_eq_nil_iff] at h
  refine List.eq_nil_iff_forall_not_mem.2 fun r hr => ?_
  obtain ⟨-, k, hk, -⟩ := S.batch_above w hr
  rw [h r hr] at hk
  cases hk

/-- the next floor is the key of a row taken, above the old floor, and no row taken is above it -/
theorem Split.top_eq_some {w w' : K} (h : S.top w = some w') :
    w < w' ∧ (∃ r ∈ S.batch w, key r = some w') ∧ ∀ r ∈ S.batch w, ∀ a, key r = some a → a ≤ w' := by
  obtain ⟨hmem, hmax⟩ := List.max?_eq_some_iff.1 h
  obtain ⟨r, hr, hk⟩ := List.mem_filterMap.1 hmem
  obtain ⟨-, k, hk', hlt⟩ := S.batch_above w hr
  rw [hk] at hk'
  cases hk'
  exact ⟨hlt, ⟨r, hr, hk⟩, fun r hr a ha => hmax a (List.mem_filterMap.2 ⟨r, hr, ha⟩)⟩

/-! ## The drain stops -/

theorem above_length_lt {w w' : K} (h : w < w') (hr : ∃ r ∈ rows, key r = some w') :
    (above key w' rows).length < (above key w rows).length := by
  obtain ⟨r, hr, hk⟩ := hr
  have hin : r ∈ above key w rows := (mem_above key).2 ⟨hr, w', hk, h⟩
  have hout : r ∉ above key w' rows := by
    rw [mem_above key]
    rintro ⟨-, k, hk', hlt⟩
    rw [hk] at hk'
    cases hk'
    exact lt_irrefl _ hlt
  rw [← above_above key h.le]
  refine List.length_filter_lt_length_iff_exists.2 ⟨r, hin, fun hf => hout ?_⟩
  rw [← above_above key h.le]
  exact List.mem_filter.2 ⟨hin, hf⟩

/-- **The drain stops**: the floor rises in every run that takes a row -/
theorem Split.drain_total {n : ℕ} {w : K} (hn : (above key w rows).length < n) : ∃ runs, S.drain n w = some runs := by
  induction n generalizing w with
  | zero => omega
  | succ n ih =>
    cases ht : S.top w with
    | none => exact ⟨[(w, S.batch w)], by simp [Split.drain, ht]⟩
    | some w' =>
      obtain ⟨hlt, ⟨r, hr, hk⟩, -⟩ := S.top_eq_some ht
      have := above_length_lt hlt ⟨r, (S.batch_above w hr).1, hk⟩
      obtain ⟨runs, hruns⟩ := ih (w := w') (by omega)
      exact ⟨(w, S.batch w) :: runs, by simp only [Split.drain, ht, hruns, Option.map_some]⟩

/-! ## What the drain takes -/

/-- **Nothing else**: the drain only takes rows above the first floor -/
theorem Split.drain_subset {n : ℕ} {w : K} {runs : List (K × List ρ)} (h : S.drain n w = some runs) :
    ∀ r ∈ runs.flatMap Prod.snd, r ∈ above key w rows := by
  induction n generalizing w runs with
  | zero => cases h
  | succ n ih =>
    intro r hr
    rw [Split.drain] at h
    cases ht : S.top w with
    | none =>
      rw [ht] at h
      cases h
      rw [List.flatMap_cons, List.flatMap_nil, List.append_nil] at hr
      exact (mem_above key).2 (S.batch_above w hr)
    | some w' =>
      rw [ht] at h
      obtain ⟨rest, hrest, rfl⟩ := Option.map_eq_some_iff.1 h
      rw [List.flatMap_cons] at hr
      rcases List.mem_append.1 hr with hr | hr
      · exact (mem_above key).2 (S.batch_above w hr)
      · obtain ⟨hm, k, hk, hlt⟩ := (mem_above key).1 (ih hrest r hr)
        exact (mem_above key).2 ⟨hm, k, hk, (S.top_eq_some ht).1.trans hlt⟩

/-- after a safe run, the rows above the next floor are the rows left -/
theorem Split.Safe.perm_left {S : Split key rows} {w w' : K} (hs : S.Safe w) (ht : S.top w = some w') :
    (S.left w).Perm (above key w' rows) := by
  obtain ⟨hlt, ⟨m, hm, hmk⟩, hmax⟩ := S.top_eq_some ht
  have hbatch : above key w' (S.batch w) = [] := by
    refine List.eq_nil_iff_forall_not_mem.2 fun r hr => ?_
    obtain ⟨hr, k, hk, hgt⟩ := (mem_above key).1 hr
    exact absurd (hmax r hr k hk) (not_le.2 hgt)
  have hleft : above key w' (S.left w) = S.left w := by
    refine List.filter_eq_self.2 fun l hl => isAbove_iff.2 ?_
    obtain ⟨-, b, hb, -⟩ := (mem_above key).1 ((S.perm w).subset (List.mem_append_right _ hl))
    exact ⟨b, hb, hs.later m hm l hl w' b hmk hb⟩
  have := (S.perm w).filter fun r => isAbove w' (key r)
  rw [List.filter_append] at this
  change (above key w' (S.batch w) ++ above key w' (S.left w)).Perm (above key w' (above key w rows)) at this
  rwa [hbatch, hleft, List.nil_append, above_above key hlt.le] at this

/-- **Exactly once**: the drain takes every row above the first floor once, iff every run is safe -/
theorem Split.drain_perm_iff {n : ℕ} {w : K} {runs : List (K × List ρ)} (h : S.drain n w = some runs) :
    (runs.flatMap Prod.snd).Perm (above key w rows) ↔ ∀ run ∈ runs, S.Safe run.1 := by
  induction n generalizing w runs with
  | zero => cases h
  | succ n ih =>
    rw [Split.drain] at h
    cases ht : S.top w with
    | none =>
      rw [ht] at h
      cases h
      have hnil := S.top_eq_none ht
      have hperm := S.perm w
      simp only [hnil, List.nil_append, List.flatMap_cons, List.flatMap_nil, List.forall_mem_singleton] at hperm ⊢
      constructor
      · intro hp
        have : S.left w = [] := List.Perm.eq_nil (hperm.trans hp.symm)
        exact ⟨by simp [hnil], fun _ => this⟩
      · intro hs
        rw [hs.empty hnil] at hperm
        exact hperm
    | some w' =>
      rw [ht] at h
      obtain ⟨rest, hrest, rfl⟩ := Option.map_eq_some_iff.1 h
      rw [List.flatMap_cons, List.forall_mem_cons]
      constructor
      · intro hp
        -- the later runs take exactly what this one leaves, all of it above the next floor
        have hl : (rest.flatMap Prod.snd).Perm (S.left w) :=
          (List.perm_append_left_iff _).1 (hp.trans (S.perm w).symm)
        have hs : S.Safe w := by
          refine ⟨fun r hr l hl' a b ha hb => ?_, fun he => ?_⟩
          · obtain ⟨-, k, hk, hlt⟩ := (mem_above key).1 (S.drain_subset hrest l (hl.symm.subset hl'))
            rw [hb] at hk
            cases hk
            exact ((S.top_eq_some ht).2.2 r hr a ha).trans_lt hlt
          · obtain ⟨-, ⟨r, hr, -⟩, -⟩ := S.top_eq_some ht
            rw [he] at hr
            cases hr
        exact ⟨hs, (ih hrest).1 (hl.trans (hs.perm_left ht))⟩
      · rintro ⟨hs, hall⟩
        have hrestp := (ih hrest).2 hall
        exact ((hrestp.trans (hs.perm_left ht).symm).append_left _).trans (S.perm w)

end HighWater
