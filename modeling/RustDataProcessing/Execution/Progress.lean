/-
The invariant of a parallel call, and what its runs come to.

- `Inv`: permits and permit holders add up to the limit; while a task sleeps, every free permit has a woken task to take
  it; and each task has done its rows as far as it has come (`Task.Ok`).
- `step_measure`: a step of a task decreases `St.measure`; a spurious wakeup costs 2. So a run is only as long as its
  spurious wakeups make it.
- `halted_cases`: when no task can be advanced, the call is over, or no permit is free and a task sleeps.
-/
import Mathlib.Tactic
import RustDataProcessing.Execution.Steps
import RustDataProcessing.Lib.Traverse

namespace RustDataProcessing.Execution

open Tally (total)

/-! ## Permits -/

namespace Pc

/-- 1 between acquire and release; a task that panics keeps its permit -/
def holds : Pc → ℕ
  | .idle => 0
  | .acquire => 0
  | .asleep => 0
  | .woken => 0
  | .done _ => 0
  | _ => 1

theorem holds_le_one (pc : Pc) : pc.holds ≤ 1 := by
  cases pc <;> simp [holds]

end Pc

/-- the tasks between acquire and release -/
def holders (tasks : List Task) : ℕ := total (fun t => t.pc.holds) tasks

/-! ## The rows of a task -/

/-- what a body puts out for rows, none when it panics on one -/
def runRows (body : Body) (rows : List Row) : Option (List Row) := (rows.mapM body).map List.flatten

def panics (body : Body) (rows : List Row) : Bool := rows.any fun row => (body row).isNone

theorem runRows_snoc {body : Body} {rows : List Row} {row : Row} {out new : List Row} (h : runRows body rows = some out)
    (hrow : body row = some new) : runRows body (rows ++ [row]) = some (out ++ new) := by
  obtain ⟨outs, houts, rfl⟩ := Option.map_eq_some_iff.1 h
  have : (rows ++ [row]).mapM body = some (outs ++ [new]) := by
    rw [List.mapM_append, houts, List.mapM_cons, hrow]
    rfl
  rw [runRows, this, Option.map_some, List.flatten_append, List.flatten_singleton]

theorem runRows_isSome {body : Body} {rows out : List Row} (h : runRows body rows = some out) :
    panics body rows = false := by
  obtain ⟨outs, houts, -⟩ := Option.map_eq_some_iff.1 h
  clear h
  induction rows generalizing outs with
  | nil => rfl
  | cons row rows ih =>
    rw [List.mapM_cons] at houts
    obtain ⟨new, hnew, hrest⟩ := Option.bind_eq_some_iff.1 houts
    obtain ⟨news, hnews, -⟩ := Option.bind_eq_some_iff.1 hrest
    simp only [panics, List.any_cons, hnew, Option.isNone_some, Bool.false_or]
    exact ih news hnews

theorem exists_runRows {body : Body} {rows : List Row} (h : ∀ row ∈ rows, (body row).isSome) :
    ∃ out, runRows body rows = some out := by
  obtain ⟨outs, houts⟩ := Traverse.exists_forall₂_iff.2 fun row hrow => Option.isSome_iff_exists.1 (h row hrow)
  exact ⟨outs.flatten, by rw [runRows, Traverse.mapM_eq_some_iff.2 houts, Option.map_some]⟩

/-- a task has put out what its body makes of the rows behind it, and has panicked only on a row that panics -/
def Task.Ok (body : Body) (t : Task) : Prop := match t.pc with
  | .casMax now cur => cur < now
  | .rows rest out => ∃ pre, t.rows = pre ++ rest ∧ runRows body pre = some out
  | .deactivate out => runRows body t.rows = some out
  | .release out => runRows body t.rows = some out
  | .done out => runRows body t.rows = some out
  | .panicked rest => ∃ pre row, t.rows = pre ++ row :: rest ∧ body row = none
  | _ => True

theorem Moves.ok {body : Body} {rows : List Row} {p p' : ℕ} {mt mt' : Metrics} {pc pc' : Pc}
    (h : Moves body rows p mt pc p' mt' pc') (hok : Task.Ok body ⟨rows, pc⟩) : Task.Ok body ⟨rows, pc'⟩ := by
  cases h with
  | maxEnough => exact ⟨[], rfl, rfl⟩
  | maxLow hlt => exact hlt
  | swap => exact ⟨[], rfl, rfl⟩
  | finish =>
    obtain ⟨pre, rfl, hout⟩ := hok
    rw [Task.Ok, List.append_nil]
    exact hout
  | row hrow =>
    obtain ⟨pre, rfl, hout⟩ := hok
    exact ⟨pre ++ [_], by simp, runRows_snoc hout hrow⟩
  | panic hrow =>
    obtain ⟨pre, rfl, -⟩ := hok
    exact ⟨pre, _, rfl, hrow⟩
  | leave => exact hok
  | release => exact hok
  | _ => trivial

theorem Task.Ok.panics {body : Body} {t : Task} (h : t.Ok body) (hp : t.pc.isPanicked) : panics body t.rows = true := by
  obtain ⟨rows, pc⟩ := t
  rcases pc with _ | _ | _ | _ | _ | _ | _ | _ | _ | _ | _ | _ | rest <;> try cases hp
  obtain ⟨pre, row, rfl, hrow⟩ := h
  simp [RustDataProcessing.Execution.panics, hrow]

theorem Task.Ok.of_done {body : Body} {t : Task} (h : t.Ok body) {out : List Row} (hdone : t.pc = .done out) :
    runRows body t.rows = some out := by
  rw [Task.Ok, hdone] at h
  exact h

/-! ## The invariant -/

structure Inv (J : Job) (s : St) : Prop where
  permits : s.permits + holders s.tasks = J.maxInFlight
  wake : sleepers s.tasks = 0 ∨ s.permits ≤ wokens s.tasks
  ok : ∀ t ∈ s.tasks, t.Ok J.body

theorem Moves.permits {body : Body} {rows : List Row} {p p' : ℕ} {mt mt' : Metrics} {pc pc' : Pc}
    (h : Moves body rows p mt pc p' mt' pc') : p' + pc'.holds = p + pc.holds := by
  cases h <;> simp only [Pc.holds, add_zero]

theorem advance_permits {body : Body} {s s' : St} {i k : ℕ} (h : advance body s i k = some s') :
    s'.permits + holders s'.tasks = s.permits + holders s.tasks := by
  obtain ⟨t, -, pc, hmove, htotal, -⟩ := advance_total h
  have h1 := hmove.permits
  have h2 : holders s'.tasks + t.pc.holds = holders s.tasks + pc.holds := htotal (fun t => t.pc.holds) fun _ => rfl
  omega

/-- a step that does not return a permit leaves none, or makes no sleeper and trades a woken task for the permit it takes -/
theorem Moves.quiet {body : Body} {rows : List Row} {p p' : ℕ} {mt mt' : Metrics} {pc pc' : Pc}
    (h : Moves body rows p mt pc p' mt' pc') (hrel : ¬pc.isRelease) :
    p' = 0 ∨ (pc'.asleepW ≤ pc.asleepW ∧ p' + pc.wokenW ≤ p + pc'.wokenW) := by
  cases h with
  | wait => exact Or.inl rfl
  | waitAgain => exact Or.inl rfl
  | release => exact absurd rfl hrel
  | _ => exact Or.inr ⟨Nat.le_refl _, by simp [Pc.wokenW]⟩

theorem Moves.returns {body : Body} {rows : List Row} {p p' : ℕ} {mt mt' : Metrics} {pc pc' : Pc}
    (h : Moves body rows p mt pc p' mt' pc') (hrel : pc.isRelease) : p' = p + 1 := by
  cases h <;> first | rfl | cases hrel

theorem advance_wake {body : Body} {s s' : St} {i k : ℕ} (h : advance body s i k = some s')
    (hs : sleepers s.tasks = 0 ∨ s.permits ≤ wokens s.tasks) : sleepers s'.tasks = 0 ∨ s'.permits ≤ wokens s'.tasks := by
  obtain ⟨t, -, pc, hmove, -, hsleep⟩ := advance_total h
  split_ifs at hsleep with hrel
  · have hp := hmove.returns hrel
    rcases hsleep with ⟨h1, h2⟩ | ⟨h1, h2⟩ <;> omega
  · have hq := hmove.quiet hrel
    obtain ⟨h1, h2⟩ := hsleep
    omega

theorem Inv.start (J : Job) (mt : Metrics) (chunks : List (List Row)) : Inv J (.start J mt chunks) where
  permits := by
    have : holders (St.start J mt chunks).tasks = 0 := (Tally.total_eq_zero_iff _).2 <| by
      intro t ht
      obtain ⟨rows, -, rfl⟩ := List.mem_map.1 ht
      rfl
    rw [this]
    rfl
  wake := Or.inl <| sleepers_eq_zero <| by
    intro t ht
    obtain ⟨rows, -, rfl⟩ := List.mem_map.1 ht
    rfl
  ok := by
    intro t ht
    obtain ⟨rows, -, rfl⟩ := List.mem_map.1 ht
    trivial

theorem Inv.step {J : Job} {s s' : St} {a : Act} (hinv : Inv J s) (h : step J s a = some s') : Inv J s' := by
  have hok := step_forall h (fun t _ pc hok hmove => hmove.ok hok) (fun _ _ => trivial) hinv.ok
  rcases step_cases h with ⟨i, k, rfl, hadv⟩ | ⟨i, rfl, hwake⟩
  · exact ⟨(advance_permits hadv).trans hinv.permits, advance_wake hadv hinv.wake, hok⟩
  · obtain ⟨hp, -, htotal, hsleep, hwoken⟩ := wake_total hwake
    refine ⟨?_, ?_, hok⟩
    · rw [hp, holders, htotal _ fun _ => rfl]
      exact hinv.permits
    · have := hinv.wake
      omega

theorem Reachable.invariant {J : Job} {s s' : St} (h : Machine.Reachable (step J) s s') (hs : Inv J s) : Inv J s' :=
  h.inv (fun _ _ _ hinv hstep => hinv.step hstep) hs

theorem Reachable.rows {J : Job} {s s' : St} (h : Machine.Reachable (step J) s s') :
    s'.tasks.map Task.rows = s.tasks.map Task.rows :=
  h.inv (I := fun u => u.tasks.map Task.rows = s.tasks.map Task.rows) (fun _ _ _ hu hstep => (step_rows hstep).trans hu) rfl

/-! ## Termination -/

/-- how many steps a task has left; `n` is the number of tasks and `max` the maximum that the counter has. A
compare-and-swap that loses has two more steps to take, so one that may win is worth two steps for each task. -/
def Pc.left (n max size : ℕ) : Pc → ℕ
  | .idle => 12 + size + 2 * n
  | .acquire => 11 + size + 2 * n
  | .asleep => 9 + size + 2 * n
  | .woken => 9 + size + 2 * n
  | .started => 8 + size + 2 * n
  | .activate => 7 + size + 2 * n
  | .loadMax _ => 6 + size + 2 * n
  | .casMax _ cur => 5 + size + 2 * n + if cur = max then 0 else 2
  | .rows rest _ => 4 + rest.length
  | .deactivate _ => 3
  | .release _ => 2
  | .done _ => 0
  | .panicked _ => 0

/-- a woken task has the step of going back to sleep besides -/
def St.measure (s : St) : ℕ :=
  total (fun t => t.pc.left s.tasks.length s.metrics.maxActiveChunks t.rows.length) s.tasks + wokens s.tasks

theorem Pc.left_le (n max max' size : ℕ) (pc : Pc) : pc.left n max' size ≤ pc.left n max size + 2 := by
  cases pc <;> simp only [Pc.left] <;> first | omega | (split_ifs <;> omega)

/-- a step of one task pays for a woken sleeper, and for the others' compare-and-swaps when it changes the maximum -/
theorem Moves.left {body : Body} {rows : List Row} {p p' : ℕ} {mt mt' : Metrics} {pc pc' : Pc}
    (h : Moves body rows p mt pc p' mt' pc') (n : ℕ) :
    (mt'.maxActiveChunks = mt.maxActiveChunks ∧
      pc'.left n mt.maxActiveChunks rows.length + pc'.wokenW + (if pc.isRelease then 1 else 0) <
        pc.left n mt.maxActiveChunks rows.length + pc.wokenW) ∨
      (pc'.left n mt'.maxActiveChunks rows.length + 2 * n < pc.left n mt'.maxActiveChunks rows.length ∧
        pc.isRelease = false ∧ pc.wokenW = 0 ∧ pc'.wokenW = 0) := by
  cases h with
  | swap =>
    refine Or.inr ⟨?_, rfl, rfl, rfl⟩
    simp only [Pc.left]
    omega
  | retry hne =>
    refine Or.inl ⟨rfl, ?_⟩
    simp only [Pc.left, Pc.wokenW, Pc.isRelease, if_neg (Ne.symm hne), Bool.false_eq_true, if_false]
    omega
  | _ =>
    refine Or.inl ⟨by simp, ?_⟩
    simp only [Pc.left, Pc.wokenW, Pc.isRelease, if_true, if_false, Bool.false_eq_true, List.length_cons, List.length_nil]
    omega

theorem advance_measure {body : Body} {s s' : St} {i k : ℕ} (h : advance body s i k = some s') :
    s'.measure < s.measure := by
  have hlen : s'.tasks.length = s.tasks.length := by simpa using congrArg List.length (advance_rows h)
  obtain ⟨t, -, pc, hmove, htotal, hsleep⟩ := advance_total h
  have hblind : ∀ max, Blind fun t => t.pc.left s.tasks.length max t.rows.length := fun _ _ => rfl
  have hwoken : wokens s'.tasks + t.pc.wokenW ≤ wokens s.tasks + pc.wokenW + if t.pc.isRelease then 1 else 0 := by
    split_ifs at hsleep ⊢ with hrel
    · obtain ⟨-, -, h3, h4⟩ := hmove.of_release hrel
      rcases hsleep with ⟨-, hw⟩ | ⟨-, hw⟩ <;> omega
    · exact hsleep.wokens.le
  unfold St.measure
  rw [hlen]
  rcases hmove.left s.tasks.length with ⟨hmax, hlt⟩ | ⟨hlt, hrel, hw, hw'⟩
  · have hsum := htotal _ (hblind s.metrics.maxActiveChunks)
    rw [hmax]
    simp only at hsum
    omega
  · have hsum := htotal _ (hblind s'.metrics.maxActiveChunks)
    have hstale := Tally.total_le_add (l := s.tasks) fun t _ =>
      Pc.left_le s.tasks.length s.metrics.maxActiveChunks s'.metrics.maxActiveChunks t.rows.length t.pc
    rw [hrel] at hwoken
    simp only [Bool.false_eq_true, if_false] at hsum hwoken
    omega

theorem wake_measure {s s' : St} {i : ℕ} (h : wake s i = some s') : s'.measure = s.measure + 1 := by
  have hlen : s'.tasks.length = s.tasks.length := by
    obtain ⟨t, ht, -, rfl⟩ := wake_some h
    simp
  obtain ⟨-, hmt, htotal, -, hwoken⟩ := wake_total h
  rw [St.measure, hlen, hmt, htotal _ fun _ => rfl, hwoken, St.measure, Nat.add_assoc]

/-- a spurious wakeup costs itself and the step back to sleep -/
def Act.cost : Act → ℕ
  | .run .. => 0
  | .spurious _ => 2

theorem step_measure {J : Job} {s s' : St} {a : Act} (h : step J s a = some s') : s'.measure < s.measure + a.cost := by
  rcases step_cases h with ⟨i, k, rfl, hadv⟩ | ⟨i, rfl, hwake⟩
  · exact advance_measure hadv
  · rw [wake_measure hwake]
    exact Nat.lt_succ_self _

/-- **Runs are finite**: a run is at most as long as the measure of its first state and its spurious wakeups allow -/
theorem run_length_le {J : Job} {s s' : St} {as : List Act} (h : Machine.exec (step J) s as = some s') :
    as.length ≤ s.measure + (as.map Act.cost).sum := by
  have hle : as.length + s'.measure ≤ s.measure + (as.map Act.cost).sum :=
    Machine.exec_length_le (I := fun _ => True) (fun _ _ _ _ _ => trivial)
      (fun _ _ _ _ hstep => step_measure hstep) trivial h
  omega

/-! ## Halting -/

/-- no task can be advanced -/
def Halted (J : Job) (s : St) : Prop := ∀ i k, step J s (.run i k) = none

theorem idle_or_of_blocked {J : Job} {s : St} {i : ℕ} {t : Task} (ht : s.tasks[i]? = some t)
    (h : ∀ k, step J s (.run i k) = none) :
    (t.pc.isIdle ∧ J.threads ≤ inProgress s.tasks) ∨ t.pc.isAsleep ∨ t.pc.isOver := by
  by_contra hne
  simp only [not_or, Bool.not_eq_true] at hne
  obtain ⟨hidle, hasleep, hover⟩ := hne
  obtain ⟨k, s', hadv⟩ := @advance_exists J.body _ _ _ ht hasleep hover
  have := h k
  rw [step, if_neg, hadv] at this
  · cases this
  · rintro ⟨h1, h2⟩
    exact hidle ⟨by simpa [idleAt, ht] using h1, h2⟩

/-- with a worker to spare, not every unfinished task can be idle -/
theorem not_blocked_of_idle {threads : ℕ} (hthreads : 0 < threads) {tasks : List Task}
    (h : ∀ t ∈ tasks, t.pc.isIdle ∨ t.pc.isOver) : inProgress tasks < threads := by
  have hzero : inProgress tasks = 0 := List.countP_eq_zero.2 fun t ht => by
    rcases h t ht with h | h <;> simp [h]
  omega

theorem exists_asleep {tasks : List Task} (h : sleepers tasks ≠ 0) : ∃ t ∈ tasks, t.pc.isAsleep := by
  by_contra hne
  exact h (sleepers_eq_zero fun u hu => by simpa using fun hc => hne ⟨u, hu, hc⟩)

theorem not_asleep {tasks : List Task} (h : sleepers tasks = 0) {t : Task} (ht : t ∈ tasks) : ¬ t.pc.isAsleep := by
  intro hasleep
  have hzero : t.pc.asleepW = 0 := (Tally.total_eq_zero_iff _).1 h t ht
  rw [Pc.eq_asleep hasleep] at hzero
  cases hzero

/-- no task has been woken that has not started -/
theorem wokens_eq_zero {tasks : List Task} (h : ∀ t ∈ tasks, t.pc.isIdle ∨ t.pc.isAsleep ∨ t.pc.isOver) :
    wokens tasks = 0 := by
  refine (Tally.total_eq_zero_iff _).2 fun t ht => ?_
  have hpc := h t ht
  cases heq : t.pc with
  | woken =>
    rw [heq] at hpc
    simp [Pc.isIdle, Pc.isAsleep, Pc.isOver] at hpc
  | _ => rfl

/-- **A halted call** is over, or waits for a permit that no task can take -/
theorem halted_cases {J : Job} (hthreads : 0 < J.threads) {s : St} (hinv : Inv J s) (h : Halted J s) :
    (∀ t ∈ s.tasks, t.pc.isIdle ∨ t.pc.isAsleep ∨ t.pc.isOver) ∧
      (s.Finished ∨ (s.permits = 0 ∧ ∃ t ∈ s.tasks, t.pc.isAsleep)) := by
  have hcases : ∀ t ∈ s.tasks, (t.pc.isIdle ∧ J.threads ≤ inProgress s.tasks) ∨ t.pc.isAsleep ∨ t.pc.isOver := by
    intro t ht
    obtain ⟨i, hi⟩ := List.mem_iff_getElem?.1 ht
    exact idle_or_of_blocked hi (h i)
  refine ⟨fun t ht => (hcases t ht).imp_left And.left, ?_⟩
  by_cases hsleep : sleepers s.tasks = 0
  · left
    have hrest : ∀ t ∈ s.tasks, (t.pc.isIdle ∧ J.threads ≤ inProgress s.tasks) ∨ t.pc.isOver := by
      intro t ht
      exact (hcases t ht).imp_right fun h => h.resolve_left (not_asleep hsleep ht)
    have hfree := not_blocked_of_idle hthreads fun t ht => (hrest t ht).imp_left And.left
    exact fun t ht => (hrest t ht).resolve_left fun hidle => absurd hidle.2 (not_le.2 hfree)
  · right
    have hzero : wokens s.tasks = 0 := wokens_eq_zero fun t ht => (hcases t ht).imp_left And.left
    have hwake := hinv.wake.resolve_left hsleep
    exact ⟨by omega, exists_asleep hsleep⟩

theorem Pc.of_holds {pc : Pc} (h : pc.isIdle ∨ pc.isAsleep ∨ pc.isOver) : pc.holds = if pc.isPanicked then 1 else 0 := by
  cases pc <;> first | rfl | simp [isIdle, isAsleep, isOver] at h

/-- when no task can be advanced, permits are held by tasks that panicked and by no other -/
theorem holders_le {J : Job} {s : St} (hinv : Inv J s)
    (h : ∀ t ∈ s.tasks, t.pc.isIdle ∨ t.pc.isAsleep ∨ t.pc.isOver) :
    holders s.tasks ≤ (s.tasks.map Task.rows).countP (panics J.body) := by
  rw [← Tally.total_ite, Tally.total_map]
  refine Tally.total_mono fun t ht => ?_
  rw [Pc.of_holds (h t ht), Function.comp_apply]
  by_cases hp : t.pc.isPanicked
  · rw [(hinv.ok t ht).panics hp, if_pos hp, if_pos rfl]
  · rw [if_neg hp]
    exact Nat.zero_le _

/-- **A halted call is over**, unless as many chunks panic as there are permits and there are more chunks than permits -/
theorem halted_finished {J : Job} (hthreads : 0 < J.threads) {s : St} (hinv : Inv J s) (h : Halted J s) :
    s.Finished ∨
      (J.maxInFlight ≤ (s.tasks.map Task.rows).countP (panics J.body) ∧ J.maxInFlight < s.tasks.length) := by
  obtain ⟨hquiet, hfin | ⟨hzero, t, ht, hasleep⟩⟩ := halted_cases hthreads hinv h
  · exact Or.inl hfin
  · have hpermits := hinv.permits
    have hle := holders_le hinv hquiet
    have hlt : holders s.tasks < s.tasks.length :=
      Tally.total_lt_length (fun u _ => u.pc.holds_le_one) ht (by rw [Pc.eq_asleep hasleep]; rfl)
    exact Or.inr ⟨by omega, by omega⟩

theorem finished_done {J : Job} {s : St} (hinv : Inv J s) (hfin : s.Finished)
    (hquiet : ∀ t ∈ s.tasks, panics J.body t.rows = false) : ∀ t ∈ s.tasks, ∃ out, t.pc = .done out := by
  intro t ht
  cases hpc : t.pc with
  | done out => exact ⟨out, rfl⟩
  | panicked rest =>
    have hpanic := (hinv.ok t ht).panics (by rw [hpc]; rfl)
    rw [hquiet t ht] at hpanic
    cases hpanic
  | _ =>
    have hover := hfin t ht
    rw [hpc] at hover
    cases hover

end RustDataProcessing.Execution
