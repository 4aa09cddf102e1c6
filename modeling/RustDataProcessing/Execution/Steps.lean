/-
What one step of the chunk loop does.

- `Moves`: the steps of one task, one constructor for each branch of the source; `moves_of_step` says that there is no
  other step, and `step_isSome` that a task has none only when it sleeps or is over.
- `advance_total`: a step trades the weight of the task that moves for its new one, in any total over the tasks that
  does not tell sleepers from those just woken. Sleepers that a release wakes therefore never show up in such a total.
- `advance_forall`: what each task's own step keeps of every task, the machine's step keeps.
- `step_cases`: a step of the machine advances a task or wakes one.
-/
import Mathlib.Tactic
import RustDataProcessing.Lib.Machine
import RustDataProcessing.Lib.Tally
import RustDataProcessing.Execution.Engine

namespace RustDataProcessing.Execution

open Tally (total)

/-! ## A task -/

/-- a step of a task with the chunk `rows`: permits, metrics and place before it, and after it -/
inductive Moves (body : Body) (rows : List Row) : ℕ → Metrics → Pc → ℕ → Metrics → Pc → Prop where
  | begin {p mt} : Moves body rows p mt .idle p mt .acquire
  | wait {mt} : Moves body rows 0 mt .acquire 0 mt .asleep
  | waitAgain {mt} : Moves body rows 0 mt .woken 0 mt .asleep
  | take {p mt} : Moves body rows (p + 1) mt .acquire p mt .started
  | takeWoken {p mt} : Moves body rows (p + 1) mt .woken p mt .started
  | start {p mt} : Moves body rows p mt .started p mt.chunkStarted .activate
  | enter {p mt} : Moves body rows p mt .activate p mt.activate (.loadMax (fetchAdd mt.activeChunks))
  | maxEnough {p mt now} (h : now ≤ mt.maxActiveChunks) : Moves body rows p mt (.loadMax now) p mt (.rows rows [])
  | maxLow {p mt now} (h : mt.maxActiveChunks < now) :
      Moves body rows p mt (.loadMax now) p mt (.casMax now mt.maxActiveChunks)
  | swap {p mt now} : Moves body rows p mt (.casMax now mt.maxActiveChunks) p (mt.setMax now) (.rows rows [])
  | retry {p mt now cur} (h : mt.maxActiveChunks ≠ cur) : Moves body rows p mt (.casMax now cur) p mt (.loadMax now)
  | finish {p mt out} : Moves body rows p mt (.rows [] out) p mt.chunkFinished (.deactivate out)
  | row {p mt row rest out new} (h : body row = some new) :
      Moves body rows p mt (.rows (row :: rest) out) p mt.onRowProcessed (.rows rest (out ++ new))
  | panic {p mt row rest out} (h : body row = none) :
      Moves body rows p mt (.rows (row :: rest) out) p mt.onRowProcessed (.panicked rest)
  | leave {p mt out} : Moves body rows p mt (.deactivate out) p mt.deactivate (.release out)
  | release {p mt out} : Moves body rows p mt (.release out) (p + 1) mt (.done out)

theorem moves_of_step {body : Body} {t : Task} {p p' : ℕ} {mt mt' : Metrics} {pc' : Pc}
    (h : t.step body p mt = some (p', mt', pc')) : Moves body t.rows p mt t.pc p' mt' pc' := by
  obtain ⟨rows, pc⟩ := t
  rcases pc with _ | _ | _ | _ | _ | _ | now | ⟨now, cur⟩ | ⟨_ | ⟨row, rest⟩, out⟩ | out | out | out | rest <;>
    simp only [Task.step, Option.some.injEq, Prod.mk.injEq, reduceCtorEq] at h
  · obtain ⟨rfl, rfl, rfl⟩ := h
    exact .begin
  · rcases p with _ | p
    · obtain ⟨rfl, rfl, rfl⟩ : _ ∧ _ ∧ _ := by simpa using h
      exact .wait
    · obtain ⟨rfl, rfl, rfl⟩ : _ ∧ _ ∧ _ := by simpa using h
      exact .take
  · rcases p with _ | p
    · obtain ⟨rfl, rfl, rfl⟩ : _ ∧ _ ∧ _ := by simpa using h
      exact .waitAgain
    · obtain ⟨rfl, rfl, rfl⟩ : _ ∧ _ ∧ _ := by simpa using h
      exact .takeWoken
  · obtain ⟨rfl, rfl, rfl⟩ := h
    exact .start
  · obtain ⟨rfl, rfl, rfl⟩ := h
    exact .enter
  · split_ifs at h with hle
    · obtain ⟨rfl, rfl, rfl⟩ : _ ∧ _ ∧ _ := by simpa using h
      exact .maxEnough hle
    · obtain ⟨rfl, rfl, rfl⟩ : _ ∧ _ ∧ _ := by simpa using h
      exact .maxLow (not_le.1 hle)
  · split_ifs at h with heq
    · obtain ⟨rfl, rfl, rfl⟩ : _ ∧ _ ∧ _ := by simpa using h
      subst heq
      exact .swap
    · obtain ⟨rfl, rfl, rfl⟩ : _ ∧ _ ∧ _ := by simpa using h
      exact .retry heq
  · obtain ⟨rfl, rfl, rfl⟩ := h
    exact .finish
  · cases hb : body row with
    | none =>
      obtain ⟨rfl, rfl, rfl⟩ : _ ∧ _ ∧ _ := by simpa [hb] using h
      exact .panic hb
    | some new =>
      obtain ⟨rfl, rfl, rfl⟩ : _ ∧ _ ∧ _ := by simpa [hb] using h
      exact .row hb
  · obtain ⟨rfl, rfl, rfl⟩ := h
    exact .leave
  · obtain ⟨rfl, rfl, rfl⟩ := h
    exact .release

theorem step_isSome {body : Body} {t : Task} {p : ℕ} {mt : Metrics} (hasleep : t.pc.isAsleep = false)
    (hover : t.pc.isOver = false) : (t.step body p mt).isSome := by
  obtain ⟨rows, pc⟩ := t
  rcases pc with _ | _ | _ | _ | _ | _ | now | ⟨now, cur⟩ | ⟨_ | ⟨row, rest⟩, out⟩ | out | out | out | rest <;>
    simp only [Pc.isAsleep, Pc.isOver, Bool.true_eq_false] at hasleep hover <;> simp only [Task.step] <;>
      first | rfl | (split_ifs <;> rfl) | (split <;> rfl)

/-! ## The machine -/

theorem advance_some {body : Body} {s s' : St} {i k : ℕ} (h : advance body s i k = some s') :
    ∃ t pc, s.tasks[i]? = some t ∧ Moves body t.rows s.permits s.metrics t.pc s'.permits s'.metrics pc ∧
      (if t.pc.isRelease then notifyOne (s.tasks.set i ⟨t.rows, pc⟩) k else some (s.tasks.set i ⟨t.rows, pc⟩)) =
        some s'.tasks := by
  obtain ⟨t, ht, h⟩ := Option.bind_eq_some_iff.1 h
  obtain ⟨⟨permits, metrics, pc⟩, hstep, h⟩ := Option.bind_eq_some_iff.1 h
  obtain ⟨tasks, htasks, rfl⟩ := Option.map_eq_some_iff.1 h
  exact ⟨t, pc, ht, moves_of_step hstep, htasks⟩

theorem wake_some {s s' : St} {i : ℕ} (h : wake s i = some s') :
    ∃ t, s.tasks[i]? = some t ∧ t.pc.isAsleep ∧ s' = { s with tasks := s.tasks.set i ⟨t.rows, .woken⟩ } := by
  obtain ⟨t, ht, h⟩ := Option.bind_eq_some_iff.1 h
  split_ifs at h with hasleep
  exact ⟨t, ht, hasleep, (Option.some.inj h).symm⟩

theorem step_cases {J : Job} {s s' : St} {a : Act} (h : step J s a = some s') :
    (∃ i k, a = .run i k ∧ advance J.body s i k = some s') ∨ ∃ i, a = .spurious i ∧ wake s i = some s' := by
  rcases a with ⟨i, k⟩ | i
  · simp only [step] at h
    split_ifs at h
    exact Or.inl ⟨i, k, rfl, h⟩
  · exact Or.inr ⟨i, rfl, h⟩

/-- the tasks after a notification: one sleeper is awake, or there was none -/
theorem notifyOne_cases {tasks tasks' : List Task} {k : ℕ} (h : notifyOne tasks k = some tasks') :
    (tasks' = tasks ∧ ∀ u ∈ tasks, u.pc.isAsleep = false) ∨
      ∃ u, tasks[k]? = some u ∧ u.pc.isAsleep ∧ tasks' = tasks.set k ⟨u.rows, .woken⟩ := by
  unfold notifyOne at h
  split_ifs at h with hany
  · cases hk : tasks[k]? with
    | none => rw [hk] at h; cases h
    | some u =>
      rw [hk] at h
      simp only at h
      split_ifs at h with hu
      exact Or.inr ⟨u, rfl, hu, (Option.some.inj h).symm⟩
  · refine Or.inl ⟨(Option.some.inj h).symm, fun u hu => ?_⟩
    by_contra hne
    exact hany (List.any_eq_true.2 ⟨u, hu, by simpa using hne⟩)

theorem notifyOne_exists (tasks : List Task) : ∃ k tasks', notifyOne tasks k = some tasks' := by
  by_cases hany : tasks.any (·.pc.isAsleep)
  · obtain ⟨u, hu, hasleep⟩ := List.any_eq_true.1 hany
    obtain ⟨k, hk⟩ := List.mem_iff_getElem?.1 hu
    exact ⟨k, tasks.set k ⟨u.rows, .woken⟩, by simp [notifyOne, hany, hk, hasleep]⟩
  · exact ⟨0, tasks, by simp [notifyOne, hany]⟩

/-- a task that neither sleeps nor is over can be advanced -/
theorem advance_exists {body : Body} {s : St} {i : ℕ} {t : Task} (ht : s.tasks[i]? = some t)
    (hasleep : t.pc.isAsleep = false) (hover : t.pc.isOver = false) : ∃ k s', advance body s i k = some s' := by
  have hsome : (t.step body s.permits s.metrics).isSome := step_isSome hasleep hover
  obtain ⟨⟨p, mt, pc⟩, hr⟩ := Option.isSome_iff_exists.1 hsome
  obtain ⟨k, tasks, hk⟩ := notifyOne_exists (s.tasks.set i ⟨t.rows, pc⟩)
  by_cases hrel : t.pc.isRelease
  · exact ⟨k, ⟨mt, p, tasks⟩, by simp [advance, ht, hr, hrel, hk]⟩
  · exact ⟨k, ⟨mt, p, s.tasks.set i ⟨t.rows, pc⟩⟩, by simp [advance, ht, hr, hrel]⟩

/-! ## Sleepers -/

namespace Pc

theorem eq_asleep {pc : Pc} (h : pc.isAsleep) : pc = .asleep := by
  cases pc <;> first | rfl | cases h

def asleepW : Pc → ℕ
  | .asleep => 1
  | _ => 0

def wokenW : Pc → ℕ
  | .woken => 1
  | _ => 0

end Pc

def sleepers (tasks : List Task) : ℕ := total (fun t => t.pc.asleepW) tasks

def wokens (tasks : List Task) : ℕ := total (fun t => t.pc.wokenW) tasks

theorem set_wake {tasks : List Task} {k : ℕ} {u : Task} (hk : tasks[k]? = some u) (hu : u.pc.isAsleep) :
    sleepers (tasks.set k ⟨u.rows, .woken⟩) + 1 = sleepers tasks ∧
      wokens (tasks.set k ⟨u.rows, .woken⟩) = wokens tasks + 1 := by
  have hs := Tally.total_set (fun t => t.pc.asleepW) hk ⟨u.rows, .woken⟩
  have hw := Tally.total_set (fun t => t.pc.wokenW) hk ⟨u.rows, .woken⟩
  rw [Pc.eq_asleep hu] at hs hw
  exact ⟨hs, hw⟩

theorem sleepers_eq_zero {tasks : List Task} (h : ∀ u ∈ tasks, u.pc.isAsleep = false) : sleepers tasks = 0 := by
  refine (Tally.total_eq_zero_iff _).2 fun u hu => ?_
  have := h u hu
  cases hpc : u.pc <;> first | rfl | (rw [hpc] at this; cases this)

/-- a step of a task that does not release its permit -/
structure Quiet (s s' : St) (pc pc' : Pc) : Prop where
  sleepers : sleepers s'.tasks + pc.asleepW = sleepers s.tasks + pc'.asleepW
  wokens : wokens s'.tasks + pc.wokenW = wokens s.tasks + pc'.wokenW

/-- a step that releases a permit wakes a sleeper if there is one -/
inductive Notifies (s s' : St) : Prop where
  | nobody (hs : sleepers s'.tasks = 0) (hw : wokens s'.tasks = wokens s.tasks)
  | one (hs : sleepers s'.tasks + 1 = sleepers s.tasks) (hw : wokens s'.tasks = wokens s.tasks + 1)

theorem Moves.of_release {body : Body} {rows : List Row} {p p' : ℕ} {mt mt' : Metrics} {pc pc' : Pc}
    (h : Moves body rows p mt pc p' mt' pc') (hrel : pc.isRelease) :
    pc.asleepW = 0 ∧ pc'.asleepW = 0 ∧ pc.wokenW = 0 ∧ pc'.wokenW = 0 := by
  cases h <;> first | exact ⟨rfl, rfl, rfl, rfl⟩ | cases hrel

/-! ## Totals -/

/-- a weight that does not tell sleepers from those just woken -/
def Blind (w : Task → ℕ) : Prop := ∀ rows, w ⟨rows, .woken⟩ = w ⟨rows, .asleep⟩

theorem total_wake {w : Task → ℕ} (hw : Blind w) {tasks : List Task} {k : ℕ} {u : Task} (hk : tasks[k]? = some u)
    (hu : u.pc.isAsleep) : total w (tasks.set k ⟨u.rows, .woken⟩) = total w tasks := by
  have hset := Tally.total_set w hk ⟨u.rows, .woken⟩
  have huw : w u = w ⟨u.rows, .asleep⟩ := congrArg (fun pc => w ⟨u.rows, pc⟩) (Pc.eq_asleep hu)
  rw [hw, huw] at hset
  omega

/-- **A step and a total**: the weight of the task that moves is traded for its new one. Sleepers and those woken are
traded the same way, unless the step is a release, which also wakes a sleeper. -/
theorem advance_total {body : Body} {s s' : St} {i k : ℕ} (h : advance body s i k = some s') :
    ∃ t, s.tasks[i]? = some t ∧ ∃ pc, Moves body t.rows s.permits s.metrics t.pc s'.permits s'.metrics pc ∧
      (∀ w : Task → ℕ, Blind w → total w s'.tasks + w t = total w s.tasks + w ⟨t.rows, pc⟩) ∧
      (if t.pc.isRelease then Notifies s s' else Quiet s s' t.pc pc) := by
  obtain ⟨t, pc, ht, hmove, htasks⟩ := advance_some h
  have hs := Tally.total_set (fun t => t.pc.asleepW) ht ⟨t.rows, pc⟩
  have hw := Tally.total_set (fun t => t.pc.wokenW) ht ⟨t.rows, pc⟩
  refine ⟨t, ht, pc, hmove, fun w hblind => ?_, ?_⟩
  · rw [← Tally.total_set w ht ⟨t.rows, pc⟩]
    congr 1
    split_ifs at htasks with hrel
    · rcases notifyOne_cases htasks with ⟨heq, -⟩ | ⟨u, hu, hasleep, heq⟩
      · rw [heq]
      · rw [heq, total_wake hblind hu hasleep]
    · rw [← Option.some.inj htasks]
  · split_ifs at htasks ⊢ with hrel
    · obtain ⟨h1, h2, h3, h4⟩ := hmove.of_release hrel
      simp only [h1, h2, h3, h4, add_zero] at hs hw
      rcases notifyOne_cases htasks with ⟨heq, hnone⟩ | ⟨u, hu, hasleep, heq⟩
      · rw [← heq] at hnone
        exact .nobody (sleepers_eq_zero hnone) (by rw [heq]; exact hw)
      · obtain ⟨hs', hw'⟩ := set_wake hu hasleep
        rw [← heq] at hs' hw'
        exact .one (hs'.trans hs) (hw'.trans (congrArg (· + 1) hw))
    · rw [Option.some.inj htasks] at hs hw
      exact ⟨hs, hw⟩

theorem wake_total {s s' : St} {i : ℕ} (h : wake s i = some s') :
    s'.permits = s.permits ∧ s'.metrics = s.metrics ∧
      (∀ w : Task → ℕ, Blind w → total w s'.tasks = total w s.tasks) ∧
      sleepers s'.tasks + 1 = sleepers s.tasks ∧ wokens s'.tasks = wokens s.tasks + 1 := by
  obtain ⟨t, ht, hasleep, rfl⟩ := wake_some h
  exact ⟨rfl, rfl, fun w hw => total_wake hw ht hasleep, set_wake ht hasleep⟩

/-! ## Every task -/

theorem forall_wake {P : Task → Prop} (hwoken : ∀ rows, P ⟨rows, .asleep⟩ → P ⟨rows, .woken⟩) {tasks : List Task} {k : ℕ}
    {u : Task} (hk : tasks[k]? = some u) (hu : u.pc.isAsleep) (h : ∀ t ∈ tasks, P t) :
    ∀ t ∈ tasks.set k ⟨u.rows, .woken⟩, P t := by
  intro t ht
  rcases List.mem_or_eq_of_mem_set ht with hmem | rfl
  · exact h t hmem
  · refine hwoken u.rows ?_
    rw [← Pc.eq_asleep hu]
    exact h u (List.mem_of_getElem? hk)

/-- what holds of every task and is kept by the step of the task that moves holds of every task after the step -/
theorem advance_forall {body : Body} {s s' : St} {i k : ℕ} (h : advance body s i k = some s') {P : Task → Prop}
    (hlocal : ∀ t, s.tasks[i]? = some t → ∀ pc, P t →
      Moves body t.rows s.permits s.metrics t.pc s'.permits s'.metrics pc → P ⟨t.rows, pc⟩)
    (hwoken : ∀ rows, P ⟨rows, .asleep⟩ → P ⟨rows, .woken⟩) (hs : ∀ t ∈ s.tasks, P t) : ∀ t ∈ s'.tasks, P t := by
  obtain ⟨t, pc, ht, hmove, htasks⟩ := advance_some h
  have hset : ∀ u ∈ s.tasks.set i ⟨t.rows, pc⟩, P u := by
    intro u hu
    rcases List.mem_or_eq_of_mem_set hu with hu | rfl
    · exact hs u hu
    · exact hlocal t ht _ (hs t (List.mem_of_getElem? ht)) hmove
  split_ifs at htasks with hrel
  · rcases notifyOne_cases htasks with ⟨heq, -⟩ | ⟨u, hu, hasleep, heq⟩
    · rw [heq]; exact hset
    · rw [heq]; exact forall_wake hwoken hu hasleep hset
  · rw [← Option.some.inj htasks]; exact hset

theorem wake_forall {s s' : St} {i : ℕ} (h : wake s i = some s') {P : Task → Prop}
    (hwoken : ∀ rows, P ⟨rows, .asleep⟩ → P ⟨rows, .woken⟩) (hs : ∀ t ∈ s.tasks, P t) : ∀ t ∈ s'.tasks, P t := by
  obtain ⟨t, ht, hasleep, rfl⟩ := wake_some h
  exact forall_wake hwoken ht hasleep hs

theorem step_forall {J : Job} {s s' : St} {a : Act} (h : step J s a = some s') {P : Task → Prop}
    (hlocal : ∀ t ∈ s.tasks, ∀ pc, P t → Moves J.body t.rows s.permits s.metrics t.pc s'.permits s'.metrics pc →
      P ⟨t.rows, pc⟩)
    (hwoken : ∀ rows, P ⟨rows, .asleep⟩ → P ⟨rows, .woken⟩) (hs : ∀ t ∈ s.tasks, P t) : ∀ t ∈ s'.tasks, P t := by
  rcases step_cases h with ⟨i, k, rfl, hadv⟩ | ⟨i, rfl, hwake⟩
  · exact advance_forall hadv (fun t ht => hlocal t (List.mem_of_getElem? ht)) hwoken hs
  · exact wake_forall hwake hwoken hs

theorem set_rows {tasks : List Task} {i : ℕ} {t : Task} (ht : tasks[i]? = some t) (pc : Pc) :
    (tasks.set i ⟨t.rows, pc⟩).map Task.rows = tasks.map Task.rows := by
  obtain ⟨hi, rfl⟩ := List.getElem?_eq_some_iff.1 ht
  rw [List.map_set, ← List.getElem_map Task.rows (h := by simpa using hi), List.set_getElem_self]

theorem advance_rows {body : Body} {s s' : St} {i k : ℕ} (h : advance body s i k = some s') :
    s'.tasks.map Task.rows = s.tasks.map Task.rows := by
  obtain ⟨t, pc, ht, -, htasks⟩ := advance_some h
  split_ifs at htasks with hrel
  · rcases notifyOne_cases htasks with ⟨heq, -⟩ | ⟨u, hu, -, heq⟩
    · rw [heq, set_rows ht]
    · rw [heq, set_rows hu, set_rows ht]
  · rw [← Option.some.inj htasks, set_rows ht]

/-- the chunks never change -/
theorem step_rows {J : Job} {s s' : St} {a : Act} (h : step J s a = some s') :
    s'.tasks.map Task.rows = s.tasks.map Task.rows := by
  rcases step_cases h with ⟨i, k, rfl, hadv⟩ | ⟨i, rfl, hwake⟩
  · exact advance_rows hadv
  · obtain ⟨t, ht, -, rfl⟩ := wake_some hwake
    exact set_rows ht _

end RustDataProcessing.Execution
