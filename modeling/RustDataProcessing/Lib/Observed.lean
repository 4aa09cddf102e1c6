/-
Machines that are watched: between the steps of a machine its parts make announcements, and a step may have to wait for one.

A watched machine keeps notes beside its state. A step is taken when the notes are `ready` for it, and may leave a note
(`after`); an announcement (`say`) changes the notes only.

- `Reachable.unwatched`: what is reached under watch the machine reaches.
- `exec_watched`: when announcements can make every step ready, every run of the machine is a run under watch.
- `reachable_prefix`: when the notes hold a log that grows by one entry at a time, every prefix of a log is the log of a
  state that was reached.

A log whose entries name their authors is a shuffle of what each author has said (`said_perm`).
-/
import Mathlib.Tactic
import RustDataProcessing.Lib.Machine

namespace Machine

variable {σ α ν ε : Type}

structure Watch (σ α ν ε : Type) where
  ready : σ → ν → α → Bool
  after : α → σ → ν → ν
  say : σ → ν → ε → Option ν

def watched (step : σ → α → Option σ) (W : Watch σ α ν ε) (w : σ × ν) : α ⊕ ε → Option (σ × ν)
  | .inl a => if W.ready w.1 w.2 a then (step w.1 a).map fun s => (s, W.after a s w.2) else none
  | .inr e => (W.say w.1 w.2 e).map fun n => (w.1, n)

section Watched

variable {step : σ → α → Option σ} {W : Watch σ α ν ε}

theorem watched_act {w w' : σ × ν} {a : α} :
    watched step W w (.inl a) = some w' ↔
      W.ready w.1 w.2 a = true ∧ step w.1 a = some w'.1 ∧ w'.2 = W.after a w'.1 w.2 := by
  simp only [watched]
  split_ifs with hready
  · rw [Option.map_eq_some_iff]
    constructor
    · rintro ⟨s, hs, rfl⟩
      exact ⟨hready, hs, rfl⟩
    · rintro ⟨-, hs, hn⟩
      exact ⟨w'.1, hs, Prod.ext rfl hn.symm⟩
  · exact ⟨fun h => (nomatch h), fun h => absurd h.1 hready⟩

theorem watched_say {w w' : σ × ν} {e : ε} :
    watched step W w (.inr e) = some w' ↔ W.say w.1 w.2 e = some w'.2 ∧ w'.1 = w.1 := by
  rw [watched, Option.map_eq_some_iff]
  constructor
  · rintro ⟨n, hn, rfl⟩
    exact ⟨hn, rfl⟩
  · rintro ⟨hn, hs⟩
    exact ⟨w'.2, hn, Prod.ext hs.symm rfl⟩

/-- the machine does not notice that it is watched -/
theorem exec_unwatched {w w' : σ × ν} {as : List (α ⊕ ε)} (h : exec (watched step W) w as = some w') :
    exec step w.1 (as.filterMap Sum.getLeft?) = some w'.1 := by
  induction as generalizing w with
  | nil =>
    cases h
    rfl
  | cons a as ih =>
    obtain ⟨t, ht, hrest⟩ := exec_cons.1 h
    cases a with
    | inl a =>
      obtain ⟨-, hstep, -⟩ := watched_act.1 ht
      exact exec_cons.2 ⟨t.1, hstep, ih hrest⟩
    | inr e =>
      obtain ⟨-, hsame⟩ := watched_say.1 ht
      have hexec := ih hrest
      rw [hsame] at hexec
      exact hexec

theorem Reachable.unwatched {w w' : σ × ν} (h : Reachable (watched step W) w w') : Reachable step w.1 w'.1 := by
  obtain ⟨as, has⟩ := h
  exact ⟨_, exec_unwatched has⟩

/-- announcements that make a step ready: a run without steps after which it can be taken -/
def Opens (step : σ → α → Option σ) (W : Watch σ α ν ε) (s : σ) (n : ν) (a : α) : Prop :=
  ∃ (es : List ε) (n' : ν), exec (watched step W) (s, n) (es.map .inr) = some (s, n') ∧ W.ready s n' a = true

variable {I : σ × ν → Prop} (hI : ∀ w a w', I w → watched step W w a = some w' → I w')
include hI

/-- every run of the machine can be watched, when no step waits for an announcement that never comes -/
theorem exec_watched (hopen : ∀ s n a s', I (s, n) → step s a = some s' → Opens step W s n a) {s s' : σ} {n : ν}
    (hs : I (s, n)) {as : List α} (h : exec step s as = some s') :
    ∃ bs n', exec (watched step W) (s, n) bs = some (s', n') ∧ bs.filterMap Sum.getLeft? = as := by
  induction as generalizing s n with
  | nil =>
    cases h
    exact ⟨[], n, rfl, rfl⟩
  | cons a as ih =>
    obtain ⟨t, ht, hrest⟩ := exec_cons.1 h
    obtain ⟨es, n₁, hes, hready⟩ := hopen s n a t hs ht
    have hact : watched step W (s, n₁) (.inl a) = some (t, W.after a t n₁) := watched_act.2 ⟨hready, ht, rfl⟩
    have hnext : I (t, W.after a t n₁) := hI _ _ _ (exec_inv hI hs hes) hact
    obtain ⟨bs, n', hbs, hacts⟩ := ih hnext hrest
    refine ⟨es.map .inr ++ .inl a :: bs, n', ?_, ?_⟩
    · exact exec_append.2 ⟨(s, n₁), hes, exec_cons.2 ⟨_, hact, hbs⟩⟩
    · simp [List.filterMap_append, hacts, List.filterMap_map, Function.comp_def]

omit hI

/-- a log that grows by at most one entry a step -/
theorem reachable_prefix {β : Type} {log : ν → List β}
    (hlog : ∀ w a w', watched step W w a = some w' → log w'.2 = log w.2 ∨ ∃ b, log w'.2 = log w.2 ++ [b])
    {w w' : σ × ν} (h : Reachable (watched step W) w w') {l : List β} (hlong : log w.2 <+: l) (hl : l <+: log w'.2) :
    ∃ u, Reachable (watched step W) w u ∧ log u.2 = l := by
  obtain ⟨as, has⟩ := h
  induction as generalizing w with
  | nil =>
    cases has
    exact ⟨_, Reachable.refl _, hlong.eq_of_length_le hl.length_le⟩
  | cons a as ih =>
    obtain ⟨t, ht, hrest⟩ := exec_cons.1 has
    by_cases hnext : log t.2 <+: l
    · obtain ⟨u, hu, hlu⟩ := ih hnext hrest
      exact ⟨u, ((Reachable.refl w).next ht).trans hu, hlu⟩
    · refine ⟨w, Reachable.refl w, ?_⟩
      rcases hlog w a t ht with heq | ⟨b, heq⟩
      · exact absurd (heq ▸ hlong) hnext
      · -- the entry is not in the prefix, so the prefix is what was there before
        obtain ⟨rest, rfl⟩ := hlong
        cases rest with
        | nil => exact (List.append_nil _).symm
        | cons c rest =>
          refine absurd ?_ hnext
          have hgrows : log t.2 <+: log w'.2 := by
            refine exec_inv (I := fun u => log t.2 <+: log u.2) (fun u b u' hu hstep => ?_) (List.prefix_refl _) hrest
            rcases hlog u b u' hstep with h | ⟨c, h⟩
            · rwa [h]
            · rw [h]
              exact hu.trans (List.prefix_append _ _)
          refine List.prefix_of_prefix_length_le hgrows hl ?_
          rw [heq]
          simp

/-- a log that grows by one entry an announcement counts the announcements -/
theorem exec_log_length {β : Type} {log : ν → List β} (hact : ∀ a s n, log (W.after a s n) = log n)
    (hsay : ∀ s n e n', W.say s n e = some n' → (log n').length = (log n).length + 1) {w w' : σ × ν} {as : List (α ⊕ ε)}
    (h : exec (watched step W) w as = some w') :
    as.length + (log w.2).length = (as.filterMap Sum.getLeft?).length + (log w'.2).length := by
  induction as generalizing w with
  | nil =>
    cases h
    rfl
  | cons a as ih =>
    obtain ⟨t, ht, hrest⟩ := exec_cons.1 h
    have hlen := ih hrest
    cases a with
    | inl a =>
      obtain ⟨-, -, hn⟩ := watched_act.1 ht
      have hsame : log t.2 = log w.2 := by rw [hn, hact]
      simp only [List.length_cons, List.filterMap_cons, Sum.getLeft?_inl, hsame] at hlen ⊢
      omega
    | inr e =>
      obtain ⟨hn, -⟩ := watched_say.1 ht
      have hone := hsay _ _ _ _ hn
      simp only [List.length_cons, List.filterMap_cons, Sum.getLeft?_inr] at hlen ⊢
      omega

end Watched

/-! ## Authors -/

section Authors

variable {β ι : Type} [DecidableEq ι]

/-- what one author has said -/
def said (log : List (ι × β)) (i : ι) : List β := log.filterMap fun x => if x.1 = i then some x.2 else none

@[simp] theorem said_nil (i : ι) : said ([] : List (ι × β)) i = [] := rfl

theorem said_cons (j : ι) (b : β) (log : List (ι × β)) (i : ι) :
    said ((j, b) :: log) i = if j = i then b :: said log i else said log i := by
  rw [said, List.filterMap_cons]
  split_ifs with h <;> simp [said]

@[simp] theorem said_snoc_self (log : List (ι × β)) (i : ι) (b : β) : said (log ++ [(i, b)]) i = said log i ++ [b] := by
  simp [said, List.filterMap_append]

theorem said_snoc_ne (log : List (ι × β)) {i j : ι} (h : j ≠ i) (b : β) : said (log ++ [(j, b)]) i = said log i := by
  simp [said, List.filterMap_append, h]

theorem said_eq_nil {log : List (ι × β)} {i : ι} (h : ∀ x ∈ log, x.1 ≠ i) : said log i = [] :=
  List.filterMap_eq_nil_iff.2 fun x hx => if_neg (h x hx)

theorem mem_said {log : List (ι × β)} {x : ι × β} (h : x ∈ log) : x.2 ∈ said log x.1 :=
  List.mem_filterMap.2 ⟨x, h, if_pos rfl⟩

theorem flatMap_cons_perm {is : List ι} (hnodup : is.Nodup) {j : ι} (hj : j ∈ is) (b : β) (f : ι → List β) :
    (is.flatMap fun i => if j = i then b :: f i else f i).Perm (b :: is.flatMap f) := by
  induction is with
  | nil => cases hj
  | cons i is ih =>
    obtain ⟨hi, hrest⟩ := List.nodup_cons.1 hnodup
    rw [List.flatMap_cons, List.flatMap_cons]
    rcases List.mem_cons.1 hj with rfl | hj
    · have hsame : (is.flatMap fun i => if j = i then b :: f i else f i) = is.flatMap f :=
        List.flatMap_congr fun i hmem => if_neg fun h : j = i => hi (h ▸ hmem)
      rw [if_pos rfl, hsame]
      exact List.Perm.refl _
    · rw [if_neg fun h : j = i => hi (h ▸ hj)]
      exact ((ih hrest hj).append_left (f i)).trans List.perm_middle

/-- a log is a shuffle of what its authors have said -/
theorem said_perm {authors : List ι} (hnodup : authors.Nodup) {log : List (ι × β)} (h : ∀ x ∈ log, x.1 ∈ authors) :
    (log.map Prod.snd).Perm (authors.flatMap (said log)) := by
  induction log with
  | nil => simp
  | cons x log ih =>
    obtain ⟨hx, hlog⟩ := List.forall_mem_cons.1 h
    have hcons : said (x :: log) = fun i => if x.1 = i then x.2 :: said log i else said log i :=
      funext fun i => said_cons x.1 x.2 log i
    rw [hcons, List.map_cons]
    exact ((ih hlog).cons x.2).trans (flatMap_cons_perm hnodup hx x.2 (said log)).symm

/-- what is said by position, read member by member -/
theorem flatMap_range {γ : Type} {xs : List γ} {f : ℕ → List β} {g : γ → List β}
    (h : ∀ i x, xs[i]? = some x → f i = g x) : (List.range xs.length).flatMap f = xs.flatMap g := by
  induction xs using List.reverseRecOn with
  | nil => rfl
  | append_singleton xs x ih =>
    have hbefore : ∀ i y, xs[i]? = some y → f i = g y := fun i y hy => by
      refine h i y ?_
      rw [List.getElem?_append_left (List.getElem?_eq_some_iff.1 hy).1]
      exact hy
    have hlast : f xs.length = g x := h _ _ (by simp)
    rw [List.length_append, List.length_singleton, List.range_succ, List.flatMap_append, List.flatMap_append, ih hbefore,
      List.flatMap_singleton, List.flatMap_singleton, hlast]

end Authors

end Machine
