/-
Several runs on one engine.

An engine has one set of counters, and its operations take `&self`: runs may overlap. Each run is a `Call`: the statements
of `begin_run` it has still to execute, then the machine of its chunks, with a semaphore of its own. A `reduce` is a call
without chunks. The workers are the pool's, shared by all calls.

`begin_run` stores 0 into `active_chunks` whatever the other calls are doing.

- `SharedInv`: `active_chunks` is the number of chunks in flight over all calls, and the maximum is at most the largest
  such number so far. It is kept by every step that is `Safe`.
- `shared_counters_iff`: a run keeps the counters right exactly when each of its steps is safe, which for a statement of
  `begin_run` means that it does not reset `active_chunks` while a chunk is in flight.
-/
import Mathlib.Tactic
import RustDataProcessing.Execution.Accounting

namespace RustDataProcessing.Execution

open Tally (total)

/-! ## The machine -/

/-- what a run is asked to do; no chunks for `reduce` -/
structure CallSpec where
  maxInFlight : ℕ
  body : Body
  chunks : List (List Row)

structure Call where
  todo : List Reset
  permits : ℕ
  tasks : List Task
deriving DecidableEq, Repr

structure Shared where
  metrics : Metrics
  calls : List Call
deriving DecidableEq, Repr

inductive SharedAct where
  | reset (call : ℕ)
  | run (call task notified : ℕ)
  | spurious (call task : ℕ)
deriving DecidableEq, Repr

def Call.start (spec : CallSpec) : Call := ⟨Metrics.resets, spec.maxInFlight, spec.chunks.map fun rows => ⟨rows, .idle⟩⟩

/-- a new engine and the runs that will be started on it -/
def Shared.start (specs : List CallSpec) : Shared := ⟨.new, specs.map Call.start⟩

/-- the call as a machine of its own, on the engine's counters -/
def Call.view (c : Call) (mt : Metrics) : St := ⟨mt, c.permits, c.tasks⟩

def Shared.put (s : Shared) (r : ℕ) (todo : List Reset) (u : St) : Shared :=
  ⟨u.metrics, s.calls.set r ⟨todo, u.permits, u.tasks⟩⟩

def sharedStep (threads : ℕ) (specs : List CallSpec) (s : Shared) : SharedAct → Option Shared
  | .reset r => (s.calls[r]?).bind fun c => match c.todo with
    | [] => none
    | field :: todo => some (s.put r todo (c.view (s.metrics.reset field)))
  | .run r i k => (specs[r]?).bind fun spec => (s.calls[r]?).bind fun c =>
    if c.todo ≠ [] ∨ (idleAt c.tasks i ∧ threads ≤ total (fun c => inProgress c.tasks) s.calls) then none
    else (advance spec.body (c.view s.metrics) i k).map (s.put r [])
  | .spurious r i => (s.calls[r]?).bind fun c => (wake (c.view s.metrics) i).map (s.put r c.todo)

/-! ## Chunks in flight -/

/-- the chunks started and not yet finished -/
def Call.inFlight (c : Call) : ℕ := total (fun t => t.pc.activeW) c.tasks

def Shared.inFlight (s : Shared) : ℕ := total Call.inFlight s.calls

def Shared.nextReset (s : Shared) (r : ℕ) : Option Reset := (s.calls[r]?).bind (·.todo.head?)

def Shared.taskAt (s : Shared) (r i : ℕ) : Option Task := (s.calls[r]?).bind (·.tasks[i]?)

/-- a step that does not reset `active_chunks` while a chunk is in flight, nor start a chunk when as many are in flight as
a counter can hold -/
def Safe (s : Shared) : SharedAct → Prop
  | .reset r => s.nextReset r = some .activeChunks → s.inFlight = 0
  | .run r i _ => ∀ t, s.taskAt r i = some t → t.pc = .activate → s.inFlight + 1 < usizeBound
  | .spurious _ _ => True

instance (s : Shared) : DecidablePred (Safe s)
  | .reset r => inferInstanceAs (Decidable (s.nextReset r = some .activeChunks → s.inFlight = 0))
  | .run r i _ => inferInstanceAs (Decidable (∀ t ∈ s.taskAt r i, t.pc = .activate → s.inFlight + 1 < usizeBound))
  | .spurious _ _ => .isTrue trivial

/-- the step neither wraps `active_chunks` below 0 nor above its range -/
def NoWrap (s : Shared) : SharedAct → Prop
  | .run r i _ => ∀ t, s.taskAt r i = some t →
    (t.pc = .activate → s.metrics.activeChunks + 1 < usizeBound) ∧
      (∀ out, t.pc = .deactivate out → 0 < s.metrics.activeChunks)
  | _ => True

/-- what is promised of the counters along a run -/
structure CountersSound (threads : ℕ) (specs : List CallSpec) (as : List SharedAct) : Prop where
  active : ∀ pre s, pre <+: as → Machine.exec (sharedStep threads specs) (.start specs) pre = some s →
    s.metrics.activeChunks = s.inFlight
  noWrap : ∀ pre a s, pre ++ [a] <+: as → Machine.exec (sharedStep threads specs) (.start specs) pre = some s → NoWrap s a
  max_le : ∀ pre s, pre <+: as → Machine.exec (sharedStep threads specs) (.start specs) pre = some s →
    ∃ n ∈ Machine.values (sharedStep threads specs) Shared.inFlight (.start specs) pre, s.metrics.maxActiveChunks ≤ n

/-! ## What a step does -/

theorem put_inFlight {s : Shared} {r : ℕ} {c : Call} (hc : s.calls[r]? = some c) (todo : List Reset) (u : St) :
    (s.put r todo u).inFlight + c.inFlight = s.inFlight + total (fun t => t.pc.activeW) u.tasks :=
  Tally.total_set Call.inFlight hc ⟨todo, u.permits, u.tasks⟩

theorem mem_put {s : Shared} {r : ℕ} {todo : List Reset} {u : St} {P : Task → Prop} (hs : ∀ c ∈ s.calls, ∀ t ∈ c.tasks, P t)
    (hu : ∀ t ∈ u.tasks, P t) : ∀ c ∈ (s.put r todo u).calls, ∀ t ∈ c.tasks, P t := by
  intro c hc
  rcases List.mem_or_eq_of_mem_set hc with hmem | rfl
  · exact hs c hmem
  · exact hu

/-- a step executes a statement of `begin_run`, advances a task of a call, or wakes one -/
theorem sharedStep_cases {threads : ℕ} {specs : List CallSpec} {s s' : Shared} {a : SharedAct}
    (h : sharedStep threads specs s a = some s') :
    (∃ r c field todo, a = .reset r ∧ s.calls[r]? = some c ∧ c.todo = field :: todo ∧
        s' = s.put r todo (c.view (s.metrics.reset field))) ∨
      (∃ r i k c body u, a = .run r i k ∧ s.calls[r]? = some c ∧ advance body (c.view s.metrics) i k = some u ∧
        s' = s.put r [] u) ∨
      ∃ r i c u, a = .spurious r i ∧ s.calls[r]? = some c ∧ wake (c.view s.metrics) i = some u ∧
        s' = s.put r c.todo u := by
  rcases a with r | ⟨r, i, k⟩ | ⟨r, i⟩
  · obtain ⟨c, hc, h⟩ := Option.bind_eq_some_iff.1 h
    cases htodo : c.todo with
    | nil =>
      rw [htodo] at h
      cases h
    | cons field todo =>
      rw [htodo] at h
      exact Or.inl ⟨r, c, field, todo, rfl, hc, htodo, (Option.some.inj h).symm⟩
  · obtain ⟨spec, -, h⟩ := Option.bind_eq_some_iff.1 h
    obtain ⟨c, hc, h⟩ := Option.bind_eq_some_iff.1 h
    split_ifs at h
    obtain ⟨u, hu, rfl⟩ := Option.map_eq_some_iff.1 h
    exact Or.inr (Or.inl ⟨r, i, k, c, spec.body, u, rfl, hc, hu, rfl⟩)
  · obtain ⟨c, hc, h⟩ := Option.bind_eq_some_iff.1 h
    obtain ⟨u, hu, rfl⟩ := Option.map_eq_some_iff.1 h
    exact Or.inr (Or.inr ⟨r, i, c, u, rfl, hc, hu, rfl⟩)

/-- a step of a task changes the maximum to a value it has pending, and makes the new number of active chunks pending -/
theorem Moves.max_le {body : Body} {rows : List Row} {p p' : ℕ} {mt mt' : Metrics} {pc pc' : Pc}
    (h : Moves body rows p mt pc p' mt' pc') :
    (mt'.maxActiveChunks = mt.maxActiveChunks ∨ pc.pending = some mt'.maxActiveChunks) ∧
      ∀ now, pc'.pending = some now → pc.pending = some now ∨ now = mt'.activeChunks := by
  cases h with
  | swap => exact ⟨Or.inr rfl, fun now hnow => by cases hnow⟩
  | enter =>
    refine ⟨Or.inl (by simp), fun now hnow => Or.inr ?_⟩
    cases hnow
    rfl
  | maxEnough => exact ⟨Or.inl rfl, fun now hnow => by cases hnow⟩
  | _ => exact ⟨Or.inl (by simp), fun now hnow => Or.inl hnow⟩

theorem Moves.of_up {body : Body} {rows : List Row} {p p' : ℕ} {mt mt' : Metrics} {pc pc' : Pc}
    (h : Moves body rows p mt pc p' mt' pc') (hup : pc'.activeW = pc.activeW + 1) : pc = .activate := by
  cases h <;> first | rfl | simp [Pc.activeW] at hup

/-! ## The invariant -/

structure SharedInv (s : Shared) (peak : ℕ) : Prop where
  active : s.metrics.activeChunks = s.inFlight
  bound : s.inFlight < usizeBound
  le : s.inFlight ≤ peak
  max_le : s.metrics.maxActiveChunks ≤ peak
  pending : ∀ c ∈ s.calls, ∀ t ∈ c.tasks, ∀ now, t.pc.pending = some now → now ≤ peak

theorem SharedInv.start (specs : List CallSpec) : SharedInv (.start specs) 0 := by
  have hidle : ∀ c ∈ (Shared.start specs).calls, ∀ t ∈ c.tasks, t.pc = .idle := by
    intro c hc t ht
    obtain ⟨spec, -, rfl⟩ := List.mem_map.1 hc
    obtain ⟨rows, -, rfl⟩ := List.mem_map.1 ht
    rfl
  have hzero : (Shared.start specs).inFlight = 0 := by
    refine (Tally.total_eq_zero_iff _).2 fun c hc => (Tally.total_eq_zero_iff _).2 fun t ht => ?_
    rw [hidle c hc t ht]
    rfl
  refine ⟨hzero.symm, hzero ▸ by decide, hzero.le, le_rfl, fun c hc t ht now hnow => ?_⟩
  rw [hidle c hc t ht] at hnow
  cases hnow

theorem Safe.reset {s : Shared} {r : ℕ} {c : Call} {field : Reset} {todo : List Reset} (h : Safe s (.reset r))
    (hc : s.calls[r]? = some c) (htodo : c.todo = field :: todo) : field = .activeChunks → s.inFlight = 0 := by
  rintro rfl
  exact h (by simp [Shared.nextReset, hc, htodo])

section Calls

variable {s : Shared} {r : ℕ} {c : Call} {u : St} {peak : ℕ} (hinv : SharedInv s peak) (hc : s.calls[r]? = some c)
include hinv hc

/-- a statement of `begin_run`: the call's tasks are where they were -/
theorem SharedInv.of_reset {field : Reset} {todo : List Reset} (hzero : field = .activeChunks → s.inFlight = 0) :
    SharedInv (s.put r todo (c.view (s.metrics.reset field)))
      (max peak (s.put r todo (c.view (s.metrics.reset field))).inFlight) := by
  have hsame : (s.put r todo (c.view (s.metrics.reset field))).inFlight = s.inFlight :=
    Nat.add_right_cancel (put_inFlight hc todo _)
  rw [hsame, max_eq_left hinv.le]
  refine ⟨?_, hsame ▸ hinv.bound, hsame ▸ hinv.le, ?_, mem_put hinv.pending (hinv.pending c (List.mem_of_getElem? hc))⟩
  · rw [hsame]
    cases field with
    | activeChunks => exact (hzero rfl).symm
    | _ => exact hinv.active
  · cases field with
    | maxActiveChunks => exact Nat.zero_le _
    | _ => exact hinv.max_le

/-- a task advances: the new number of active chunks may be pending afterwards -/
theorem SharedInv.of_advance {i k : ℕ} {body : Body} (hsafe : Safe s (.run r i k))
    (hu : advance body (c.view s.metrics) i k = some u) :
    SharedInv (s.put r [] u) (max peak (s.put r [] u).inFlight) := by
  have hpend := hinv.pending c (List.mem_of_getElem? hc)
  have hput := put_inFlight hc [] u
  obtain ⟨t, ht, pc, hmove, htotal, -⟩ := advance_total hu
  have hcall : total (fun t => t.pc.activeW) u.tasks + t.pc.activeW = c.inFlight + pc.activeW := htotal _ fun _ => rfl
  have hsum : (s.put r [] u).inFlight + t.pc.activeW = s.inFlight + pc.activeW := by omega
  have hbound : (s.put r [] u).inFlight < usizeBound := by
    have hold := hinv.bound
    rcases hmove.active with ⟨-, hw⟩ | ⟨-, hw⟩ | ⟨-, hw⟩
    · omega
    · have hroom := hsafe t (by rw [Shared.taskAt, hc]; exact ht) (hmove.of_up hw)
      omega
    · omega
  have hactive : u.metrics.activeChunks = (s.put r [] u).inFlight := hmove.active.eq hinv.active hsum hbound
  obtain ⟨hmax, -⟩ := hmove.max_le
  refine ⟨hactive, hbound, le_max_right _ _, ?_, mem_put ?_ ?_⟩
  · rcases hmax with hmax | hmax
    · exact hmax.le.trans (hinv.max_le.trans (le_max_left _ _))
    · exact (hpend t (List.mem_of_getElem? ht) _ hmax).trans (le_max_left _ _)
  · exact fun c hc t ht now hnow => (hinv.pending c hc t ht now hnow).trans (le_max_left _ _)
  · refine advance_forall (P := fun t => ∀ now, t.pc.pending = some now → now ≤ max peak (s.put r [] u).inFlight) hu
      ?_ (fun _ _ _ hnow => by cases hnow) ?_
    · intro t ht pc hP hmove now hnow
      rcases hmove.max_le.2 now hnow with hold | rfl
      · exact hP now hold
      · exact hactive.le.trans (le_max_right _ _)
    · exact fun t ht now hnow => (hpend t ht now hnow).trans (le_max_left _ _)

/-- a task that waits is woken: no counter changes -/
theorem SharedInv.of_wake {i : ℕ} (hu : wake (c.view s.metrics) i = some u) :
    SharedInv (s.put r c.todo u) (max peak (s.put r c.todo u).inFlight) := by
  obtain ⟨-, hmt, htotal, -⟩ := wake_total hu
  have hsame : (s.put r c.todo u).inFlight = s.inFlight := by
    have hput := put_inFlight hc c.todo u
    rw [htotal _ fun _ => rfl] at hput
    exact Nat.add_right_cancel hput
  rw [hsame, max_eq_left hinv.le]
  refine ⟨?_, hsame ▸ hinv.bound, hsame ▸ hinv.le, ?_, mem_put hinv.pending ?_⟩
  · rw [hsame]
    exact (congrArg Metrics.activeChunks hmt).trans hinv.active
  · exact (congrArg Metrics.maxActiveChunks hmt).le.trans hinv.max_le
  · exact wake_forall (P := fun t => ∀ now, t.pc.pending = some now → now ≤ peak) hu
      (fun _ _ _ hnow => by cases hnow) (hinv.pending c (List.mem_of_getElem? hc))

end Calls

theorem SharedInv.step {threads : ℕ} {specs : List CallSpec} {s s' : Shared} {a : SharedAct} {peak : ℕ}
    (hinv : SharedInv s peak) (hsafe : Safe s a) (h : sharedStep threads specs s a = some s') :
    SharedInv s' (max peak s'.inFlight) := by
  rcases sharedStep_cases h with ⟨r, c, field, todo, rfl, hc, htodo, rfl⟩ | ⟨r, i, k, c, body, u, rfl, hc, hu, rfl⟩ |
    ⟨r, i, c, u, rfl, hc, hu, rfl⟩
  · exact hinv.of_reset hc (hsafe.reset hc htodo)
  · exact hinv.of_advance hc hsafe hu
  · exact hinv.of_wake hc hu

/-! ## Runs -/

section Runs

variable {threads : ℕ} {specs : List CallSpec}

/-- a run of safe steps, and the largest number of chunks in flight along it -/
theorem SharedInv.run {as : List SharedAct} {s : Shared}
    (h : Machine.exec (sharedStep threads specs) (.start specs) as = some s)
    (hsafe : ∀ pre a t, pre ++ [a] <+: as →
      Machine.exec (sharedStep threads specs) (.start specs) pre = some t → Safe t a) :
    ∃ peak ∈ Machine.values (sharedStep threads specs) Shared.inFlight (.start specs) as, SharedInv s peak := by
  obtain ⟨peak, hexec, hgreatest⟩ := Machine.exec_peak (f := Shared.inFlight) (Machine.exec_within.2 ⟨h, hsafe⟩)
  refine ⟨peak, Machine.values_of_within hgreatest.1, ?_⟩
  have hstep : ∀ (u : Shared × ℕ) a u', SharedInv u.1 u.2 →
      Machine.withPeak (Machine.within (sharedStep threads specs) Safe) Shared.inFlight u a = some u' →
      SharedInv u'.1 u'.2 := by
    intro u a u' hu hua
    obtain ⟨hnext, hmax⟩ := Machine.withPeak_some.1 hua
    obtain ⟨ha, hnext⟩ := Machine.within_some.1 hnext
    rw [hmax]
    exact hu.step ha hnext
  have hstart := SharedInv.start specs
  exact Machine.exec_inv hstep (s := (.start specs, (Shared.start specs).inFlight))
    (Nat.le_zero.1 hstart.le ▸ hstart) hexec

/-- a task that is about to decrement `active_chunks` is in flight -/
theorem inFlight_pos {s : Shared} {r i : ℕ} {t : Task} (ht : s.taskAt r i = some t) {out : List Row}
    (hpc : t.pc = .deactivate out) : 0 < s.inFlight := by
  obtain ⟨c, hc, ht⟩ := Option.bind_eq_some_iff.1 ht
  have htask : t.pc.activeW ≤ c.inFlight := Tally.le_total (fun t => t.pc.activeW) (List.mem_of_getElem? ht)
  have hcall : c.inFlight ≤ s.inFlight := Tally.le_total Call.inFlight (List.mem_of_getElem? hc)
  have hone : t.pc.activeW = 1 := by rw [hpc]; rfl
  omega

/-- `active_chunks` is reset to the number of chunks in flight only when there are none -/
theorem safe_reset {s s' : Shared} {r : ℕ} (h : sharedStep threads specs s (.reset r) = some s')
    (hactive : s'.metrics.activeChunks = s'.inFlight) : Safe s (.reset r) := by
  intro hnext
  rcases sharedStep_cases h with ⟨r, c, field, todo, ha, hc, htodo, rfl⟩ | ⟨_, _, _, _, _, _, ha, -⟩ | ⟨_, _, _, _, ha, -⟩
  · cases ha
    have hfield : field = .activeChunks := by simpa [Shared.nextReset, hc, htodo] using hnext
    subst hfield
    rw [Nat.add_right_cancel (put_inFlight hc todo (c.view (s.metrics.reset .activeChunks)))] at hactive
    exact hactive.symm
  · cases ha
  · cases ha

/-- **Counters of a shared engine**: along a run they stay right exactly when every step is safe -/
theorem shared_counters_iff {as : List SharedAct} {s : Shared}
    (h : Machine.exec (sharedStep threads specs) (.start specs) as = some s) :
    CountersSound threads specs as ↔
      ∀ pre a t, pre ++ [a] <+: as → Machine.exec (sharedStep threads specs) (.start specs) pre = some t → Safe t a := by
  constructor
  · intro hsound pre a t hpre ht
    have hactive := hsound.active pre t ((List.prefix_append pre [a]).trans hpre) ht
    rcases a with r | ⟨r, i, k⟩ | ⟨r, i⟩
    · obtain ⟨u, hu⟩ : ∃ u, Machine.exec (sharedStep threads specs) (.start specs) (pre ++ [.reset r]) = some u := by
        obtain ⟨post, rfl⟩ := hpre
        obtain ⟨u, hu, -⟩ := Machine.exec_append.1 h
        exact ⟨u, hu⟩
      obtain ⟨t', ht', hstep⟩ := Machine.exec_append.1 hu
      cases ht.symm.trans ht'
      obtain ⟨u', hstep, hlast⟩ := Machine.exec_cons.1 hstep
      cases hlast
      exact safe_reset hstep (hsound.active _ u hpre hu)
    · intro u hu hpc
      rw [← hactive]
      exact (hsound.noWrap pre _ t hpre ht u hu).1 hpc
    · trivial
  · intro hsafe
    have hrun : ∀ pre t, pre <+: as → Machine.exec (sharedStep threads specs) (.start specs) pre = some t →
        ∃ peak ∈ Machine.values (sharedStep threads specs) Shared.inFlight (.start specs) pre, SharedInv t peak :=
      fun pre t hpre ht => SharedInv.run ht fun pre' a u hpre' => hsafe pre' a u (hpre'.trans hpre)
    refine ⟨fun pre t hpre ht => ?_, fun pre a t hpre ht => ?_, fun pre t hpre ht => ?_⟩
    · obtain ⟨peak, -, hinv⟩ := hrun pre t hpre ht
      exact hinv.active
    · obtain ⟨peak, -, hinv⟩ := hrun pre t ((List.prefix_append pre [a]).trans hpre) ht
      have hnow := hsafe pre a t hpre ht
      rcases a with r | ⟨r, i, k⟩ | ⟨r, i⟩
      · trivial
      · intro u hu
        rw [hinv.active]
        exact ⟨hnow u hu, fun out hpc => inFlight_pos hu hpc⟩
      · trivial
    · obtain ⟨peak, hpeak, hinv⟩ := hrun pre t hpre ht
      exact ⟨peak, hpeak, hinv.max_le⟩

end Runs

/-! ## A reduction during a map -/

/-- a map of one row, and a `reduce` -/
def mapAndReduce : List CallSpec := [⟨1, mapBody 1 some, [[[.int64 1]]]⟩, ⟨1, mapBody 1 some, []⟩]

/-- the map's chunk starts and ends before the reduction's `begin_run` -/
theorem quiet_begin_sound :
    CountersSound 1 mapAndReduce (List.replicate 6 (.reset 0) ++ List.replicate 10 (.run 0 0 0) ++
      List.replicate 6 (.reset 1)) := by
  have hsafe : Machine.exec (Machine.within (sharedStep 1 mapAndReduce) Safe) (.start mapAndReduce)
      (List.replicate 6 (.reset 0) ++ List.replicate 10 (.run 0 0 0) ++ List.replicate 6 (.reset 1)) =
        some ⟨⟨2, 0, 0, 0, 0, 0⟩, [⟨[], 1, [⟨[[.int64 1]], .done [[.int64 1]]⟩]⟩, ⟨[], 1, []⟩]⟩ := by decide
  obtain ⟨hrun, hsafe⟩ := Machine.exec_within.1 hsafe
  exact (shared_counters_iff hrun).2 hsafe

/-- `begin_run` of the reduction resets the counter while the map's chunk is in flight, and the end of the chunk wraps it -/
theorem reset_in_flight_wraps :
    ∃ as s, Machine.exec (sharedStep 1 mapAndReduce) (.start mapAndReduce) as = some s ∧ s.inFlight = 0 ∧
      s.metrics.activeChunks = usizeBound - 1 :=
  ⟨List.replicate 6 (.reset 0) ++ List.replicate 4 (.run 0 0 0) ++ List.replicate 6 (.reset 1) ++
      List.replicate 5 (.run 0 0 0),
    ⟨⟨2, 1, 0, 1, usizeBound - 1, 1⟩, [⟨[], 0, [⟨[[.int64 1]], .release [[.int64 1]]⟩]⟩, ⟨[], 1, []⟩]⟩,
    by decide, by decide, rfl⟩

end RustDataProcessing.Execution
