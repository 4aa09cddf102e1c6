/-
Machines that take guarded steps: `step s a` is the state after the action `a`, none when `a` is not enabled in `s`.

- `exec_inv`: what every step preserves holds in every state a run reaches.
- `exec_length_le`: when every step decreases a measure, up to a cost of its action, the measure and the costs bound the
  length of every run.
- `exists_quiescent`: when every step decreases a measure, some run ends in a state in which no action is enabled.
- `within`: the machine restricted to some actions; what it reaches the machine reaches.
- `withPeak`: the machine with a record of the largest value a function of the state has had.
-/
import Mathlib.Tactic

namespace Machine

variable {σ α : Type}

def exec (step : σ → α → Option σ) (s : σ) : List α → Option σ
  | [] => some s
  | a :: as => (step s a).bind fun s' => exec step s' as

def Reachable (step : σ → α → Option σ) (s s' : σ) : Prop := ∃ as, exec step s as = some s'

def Quiescent (step : σ → α → Option σ) (s : σ) : Prop := ∀ a, step s a = none

section Runs

variable {step : σ → α → Option σ}

theorem exec_cons {s s' : σ} {a : α} {as : List α} :
    exec step s (a :: as) = some s' ↔ ∃ t, step s a = some t ∧ exec step t as = some s' :=
  Option.bind_eq_some_iff

theorem exec_append {s s' : σ} {as bs : List α} :
    exec step s (as ++ bs) = some s' ↔ ∃ t, exec step s as = some t ∧ exec step t bs = some s' := by
  induction as generalizing s with
  | nil => simp [exec]
  | cons a as ih =>
    simp only [List.cons_append, exec_cons, ih]
    constructor
    · rintro ⟨t, ht, u, hu, hbs⟩
      exact ⟨u, ⟨t, ht, hu⟩, hbs⟩
    · rintro ⟨u, ⟨t, ht, hu⟩, hbs⟩
      exact ⟨t, ht, u, hu, hbs⟩

theorem Reachable.refl (s : σ) : Reachable step s s := ⟨[], rfl⟩

theorem Reachable.trans {s t u : σ} (h₁ : Reachable step s t) (h₂ : Reachable step t u) : Reachable step s u := by
  obtain ⟨as, has⟩ := h₁
  obtain ⟨bs, hbs⟩ := h₂
  exact ⟨as ++ bs, exec_append.2 ⟨t, has, hbs⟩⟩

theorem Reachable.next {s t u : σ} {a : α} (h : Reachable step s t) (ha : step t a = some u) : Reachable step s u :=
  h.trans ⟨[a], exec_cons.2 ⟨u, ha, rfl⟩⟩

variable {I : σ → Prop} (hstep : ∀ s a s', I s → step s a = some s' → I s')
include hstep

theorem exec_inv {s s' : σ} (hs : I s) {as : List α} (h : exec step s as = some s') : I s' := by
  induction as generalizing s with
  | nil => cases h; exact hs
  | cons a as ih =>
    obtain ⟨t, ht, hrest⟩ := exec_cons.1 h
    exact ih (hstep s a t hs ht) hrest

theorem Reachable.inv {s s' : σ} (hs : I s) (h : Reachable step s s') : I s' := by
  obtain ⟨as, has⟩ := h
  exact exec_inv hstep hs has

variable {μ : σ → ℕ}

theorem exec_length_le {cost : α → ℕ} (hμ : ∀ s a s', I s → step s a = some s' → μ s' < μ s + cost a) {s s' : σ}
    (hs : I s) {as : List α} (h : exec step s as = some s') : as.length + μ s' ≤ μ s + (as.map cost).sum := by
  induction as generalizing s with
  | nil => cases h; simp
  | cons a as ih =>
    obtain ⟨t, ht, hrest⟩ := exec_cons.1 h
    have h1 := hμ s a t hs ht
    have h2 := ih (hstep s a t hs ht) hrest
    simp only [List.length_cons, List.map_cons, List.sum_cons]
    omega

theorem exists_quiescent (hμ : ∀ s a s', I s → step s a = some s' → μ s' < μ s) {s : σ} (hs : I s) :
    ∃ s', Reachable step s s' ∧ Quiescent step s' := by
  induction hn : μ s using Nat.strong_induction_on generalizing s with
  | _ n ih =>
    by_cases hq : Quiescent step s
    · exact ⟨s, Reachable.refl s, hq⟩
    · obtain ⟨a, ha⟩ := not_forall.1 hq
      obtain ⟨t, ht⟩ := Option.ne_none_iff_exists'.1 ha
      have hlt : μ t < n := hn ▸ hμ s a t hs ht
      obtain ⟨s', hreach, hquiet⟩ := ih (μ t) hlt (hstep s a t hs ht) rfl
      exact ⟨s', ((Reachable.refl s).next ht).trans hreach, hquiet⟩

end Runs

/-! ## Restriction -/

/-- the machine that takes only the allowed actions -/
def within (step : σ → α → Option σ) (allowed : σ → α → Prop) [∀ s, DecidablePred (allowed s)] (s : σ) (a : α) :
    Option σ :=
  if allowed s a then step s a else none

section Within

variable {step : σ → α → Option σ} {allowed : σ → α → Prop} [∀ s, DecidablePred (allowed s)]

theorem within_some {s s' : σ} {a : α} :
    within step allowed s a = some s' ↔ allowed s a ∧ step s a = some s' := by
  unfold within
  split_ifs with h <;> simp [h]

theorem Quiescent.of_within {s : σ} (h : Quiescent (within step allowed) s) {a : α} (ha : allowed s a) :
    step s a = none := by
  rw [← h a, within, if_pos ha]

theorem Reachable.of_within {s s' : σ} (h : Reachable (within step allowed) s s') : Reachable step s s' := by
  obtain ⟨as, has⟩ := h
  induction as generalizing s with
  | nil => cases has; exact Reachable.refl _
  | cons a as ih =>
    obtain ⟨t, ht, hrest⟩ := exec_cons.1 has
    exact ((Reachable.refl s).next (within_some.1 ht).2).trans (ih hrest)

/-- a run of the restricted machine is a run whose every action was allowed where it was taken -/
theorem exec_within {s s' : σ} {as : List α} :
    exec (within step allowed) s as = some s' ↔
      exec step s as = some s' ∧ ∀ pre a t, pre ++ [a] <+: as → exec step s pre = some t → allowed t a := by
  induction as generalizing s with
  | nil =>
    refine ⟨fun h => ⟨h, fun pre a t hpre _ => ?_⟩, And.left⟩
    have := hpre.length_le
    simp at this
  | cons a as ih =>
    constructor
    · intro h
      obtain ⟨t, ht, hrest⟩ := exec_cons.1 h
      obtain ⟨ha, ht⟩ := within_some.1 ht
      obtain ⟨hexec, hall⟩ := ih.1 hrest
      refine ⟨exec_cons.2 ⟨t, ht, hexec⟩, fun pre b u hpre hu => ?_⟩
      rcases pre with _ | ⟨c, pre⟩
      · cases hu
        obtain ⟨rfl, -⟩ := List.cons_prefix_cons.1 hpre
        exact ha
      · obtain ⟨rfl, htail⟩ := List.cons_prefix_cons.1 hpre
        obtain ⟨t', ht', hu⟩ := exec_cons.1 hu
        cases ht.symm.trans ht'
        exact hall pre b u htail hu
    · rintro ⟨h, hall⟩
      obtain ⟨t, ht, hrest⟩ := exec_cons.1 h
      have ha : allowed s a := hall [] a s (List.prefix_append [a] as) rfl
      refine exec_cons.2 ⟨t, within_some.2 ⟨ha, ht⟩, ih.2 ⟨hrest, fun pre b u hpre hu => ?_⟩⟩
      exact hall (a :: pre) b u (List.cons_prefix_cons.2 ⟨rfl, hpre⟩) (exec_cons.2 ⟨t, ht, hu⟩)

end Within

/-! ## The largest value of a run -/

def withPeak (step : σ → α → Option σ) (f : σ → ℕ) (s : σ × ℕ) (a : α) : Option (σ × ℕ) :=
  (step s.1 a).map fun s' => (s', max s.2 (f s'))

/-- the values of `f` along a run, its first state included -/
def values (step : σ → α → Option σ) (f : σ → ℕ) (s : σ) (as : List α) : Set ℕ :=
  {v | ∃ pre t, pre <+: as ∧ exec step s pre = some t ∧ f t = v}

section Peak

variable {step : σ → α → Option σ} {f : σ → ℕ}

theorem withPeak_some {s s' : σ × ℕ} {a : α} :
    withPeak step f s a = some s' ↔ step s.1 a = some s'.1 ∧ s'.2 = max s.2 (f s'.1) := by
  unfold withPeak
  rw [Option.map_eq_some_iff]
  constructor
  · rintro ⟨t, ht, rfl⟩
    exact ⟨ht, rfl⟩
  · rintro ⟨ht, hp⟩
    exact ⟨s'.1, ht, Prod.ext rfl hp.symm⟩

theorem values_cons {s t : σ} {a : α} {as : List α} (h : step s a = some t) :
    values step f s (a :: as) = insert (f s) (values step f t as) := by
  apply Set.ext
  intro v
  constructor
  · rintro ⟨pre, u, hpre, hexec, rfl⟩
    rcases pre with _ | ⟨b, pre⟩
    · cases hexec
      exact Set.mem_insert _ _
    · obtain ⟨rfl, htail⟩ := List.cons_prefix_cons.1 hpre
      obtain ⟨t', ht', hrest⟩ := exec_cons.1 hexec
      cases h.symm.trans ht'
      exact Set.mem_insert_of_mem _ ⟨pre, u, htail, hrest, rfl⟩
  · rintro (rfl | ⟨pre, u, hpre, hexec, rfl⟩)
    · exact ⟨[], s, List.nil_prefix, rfl, rfl⟩
    · exact ⟨a :: pre, u, List.cons_prefix_cons.2 ⟨rfl, hpre⟩, exec_cons.2 ⟨t, h, hexec⟩, rfl⟩

/-- the record is the largest value of the run and the value it started with -/
theorem exec_withPeak {s s' : σ} {as : List α} (h : exec step s as = some s') (p : ℕ) (hp : f s ≤ p) :
    ∃ q, exec (withPeak step f) (s, p) as = some (s', q) ∧ IsGreatest (insert p (values step f s as)) q := by
  induction as generalizing s p with
  | nil =>
    cases h
    refine ⟨p, rfl, Set.mem_insert _ _, ?_⟩
    rintro v (rfl | ⟨pre, t, hpre, hexec, rfl⟩)
    · exact le_rfl
    · rw [List.prefix_nil.1 hpre] at hexec
      cases hexec
      exact hp
  | cons a as ih =>
    obtain ⟨t, ht, hrest⟩ := exec_cons.1 h
    obtain ⟨q, hq, hmem, hmax⟩ := ih hrest (max p (f t)) (le_max_right _ _)
    have htail : f t ∈ values step f t as := ⟨[], t, List.nil_prefix, rfl, rfl⟩
    refine ⟨q, exec_cons.2 ⟨(t, max p (f t)), withPeak_some.2 ⟨ht, rfl⟩, hq⟩, ?_, ?_⟩
    · rw [values_cons ht]
      rcases hmem with rfl | hmem
      · rcases le_total p (f t) with hle | hle
        · rw [max_eq_right hle]
          exact Set.mem_insert_of_mem _ (Set.mem_insert_of_mem _ htail)
        · rw [max_eq_left hle]
          exact Set.mem_insert _ _
      · exact Set.mem_insert_of_mem _ (Set.mem_insert_of_mem _ hmem)
    · rw [values_cons ht]
      have hle : max p (f t) ≤ q := hmax (Set.mem_insert _ _)
      rintro v (rfl | rfl | hv)
      · exact (le_max_left _ _).trans hle
      · exact hp.trans ((le_max_left _ _).trans hle)
      · exact hmax (Set.mem_insert_of_mem _ hv)

theorem exec_peak {s s' : σ} {as : List α} (h : exec step s as = some s') :
    ∃ q, exec (withPeak step f) (s, f s) as = some (s', q) ∧ IsGreatest (values step f s as) q := by
  obtain ⟨q, hq, hgreatest⟩ := exec_withPeak h (f s) le_rfl
  have hfirst : f s ∈ values step f s as := ⟨[], s, List.nil_prefix, rfl, rfl⟩
  rw [Set.insert_eq_of_mem hfirst] at hgreatest
  exact ⟨q, hq, hgreatest⟩

theorem values_of_within {allowed : σ → α → Prop} [∀ s, DecidablePred (allowed s)] {s : σ} {as : List α} {v : ℕ}
    (h : v ∈ values (within step allowed) f s as) : v ∈ values step f s as := by
  obtain ⟨pre, t, hpre, hexec, hv⟩ := h
  exact ⟨pre, t, hpre, (exec_within.1 hexec).1, hv⟩

end Peak

end Machine
