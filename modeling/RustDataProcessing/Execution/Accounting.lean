/-
Permits and metrics of one parallel call.

- `Counted`: each counter is the number of tasks (or rows) that have passed its increment and not yet its decrement; it
  never wraps, for there are fewer chunks and rows than a counter can hold.
- `Peaked`: the maximum and the largest number of active chunks so far. Nothing pending is above the largest, and when the
  maximum is still below it some task is on its way to raise it: this is what the compare-and-swap loop never loses.
- `run_accounts`: what both come to in every state, and at the end of a call.
-/
import Mathlib.Tactic
import RustDataProcessing.Execution.Refinement

namespace RustDataProcessing.Execution

open Machine (Reachable)
open Tally (total)

/-! ## Counters -/

namespace Pc

/-- 1 between the increment and the decrement of `active_chunks` -/
def activeW : Pc → ℕ
  | .loadMax _ => 1
  | .casMax _ _ => 1
  | .rows _ _ => 1
  | .deactivate _ => 1
  | .panicked _ => 1
  | _ => 0

def startedW : Pc → ℕ
  | .idle => 0
  | .acquire => 0
  | .asleep => 0
  | .woken => 0
  | .started => 0
  | _ => 1

def finishedW : Pc → ℕ
  | .deactivate _ => 1
  | .release _ => 1
  | .done _ => 1
  | _ => 0

/-- the rows of a chunk of `size` that have been counted -/
def processedW (size : ℕ) : Pc → ℕ
  | .rows rest _ => size - rest.length
  | .panicked rest => size - rest.length
  | .deactivate _ => size
  | .release _ => size
  | .done _ => size
  | _ => 0

end Pc

/-- a counter and the weight of the task that moves change together -/
inductive Tracks (c c' w w' : ℕ) : Prop where
  | same (hc : c' = c) (hw : w' = w)
  | up (hc : c' = fetchAdd c) (hw : w' = w + 1)
  | down (hc : c' = fetchSub c) (hw : w = w' + 1)

theorem Tracks.eq {c c' w w' n n' : ℕ} (h : Tracks c c' w w') (hc : c = n) (htotal : n' + w = n + w')
    (hbound : n' < usizeBound) : c' = n' := by
  rcases h with ⟨h1, h2⟩ | ⟨h1, h2⟩ | ⟨h1, h2⟩
  · omega
  · rw [h1, fetchAdd_of_lt (by omega)]
    omega
  · rw [h1, fetchSub_of_pos (by omega)]
    omega

namespace Moves

variable {body : Body} {rows : List Row} {p p' : ℕ} {mt mt' : Metrics} {pc pc' : Pc}

theorem active (h : Moves body rows p mt pc p' mt' pc') :
    Tracks mt.activeChunks mt'.activeChunks pc.activeW pc'.activeW := by
  cases h with
  | enter => exact .up rfl rfl
  | leave => exact .down rfl rfl
  | _ => exact .same (by simp) rfl

theorem started (h : Moves body rows p mt pc p' mt' pc') :
    Tracks mt.chunksStarted mt'.chunksStarted pc.startedW pc'.startedW := by
  cases h with
  | start => exact .up rfl rfl
  | _ => exact .same (by simp) rfl

theorem finished (h : Moves body rows p mt pc p' mt' pc') :
    Tracks mt.chunksFinished mt'.chunksFinished pc.finishedW pc'.finishedW := by
  cases h with
  | finish => exact .up rfl rfl
  | _ => exact .same (by simp) rfl

theorem processed (h : Moves body rows p mt pc p' mt' pc') (hok : Task.Ok body ⟨rows, pc⟩) :
    Tracks mt.rowsProcessed mt'.rowsProcessed (pc.processedW rows.length) (pc'.processedW rows.length) := by
  cases h with
  | row =>
    obtain ⟨pre, rfl, -⟩ := hok
    refine .up rfl ?_
    simp only [Pc.processedW, List.length_append, List.length_cons]
    omega
  | panic =>
    obtain ⟨pre, rfl, -⟩ := hok
    refine .up rfl ?_
    simp only [Pc.processedW, List.length_append, List.length_cons]
    omega
  | _ => exact .same (by simp) (by simp [Pc.processedW])

end Moves

theorem Pc.weights_le_one (pc : Pc) : pc.activeW ≤ 1 ∧ pc.startedW ≤ 1 ∧ pc.finishedW ≤ 1 := by
  cases pc <;> simp [activeW, startedW, finishedW]

theorem Pc.activeW_le_holds (pc : Pc) : pc.activeW ≤ pc.holds := by
  cases pc <;> simp [activeW, holds]

theorem Pc.processedW_le (size : ℕ) (pc : Pc) : pc.processedW size ≤ size := by
  cases pc <;> simp [processedW]

def rowTotal (tasks : List Task) : ℕ := total (fun t => t.rows.length) tasks

structure Counted (s : St) : Prop where
  active : s.metrics.activeChunks = total (fun t => t.pc.activeW) s.tasks
  started : s.metrics.chunksStarted = total (fun t => t.pc.startedW) s.tasks
  finished : s.metrics.chunksFinished = total (fun t => t.pc.finishedW) s.tasks
  processed : s.metrics.rowsProcessed = total (fun t => t.pc.processedW t.rows.length) s.tasks

/-- a counter can hold every number that the tasks can ask for -/
structure Fits (tasks : List Task) : Prop where
  chunks : tasks.length < usizeBound
  rows : rowTotal tasks < usizeBound

theorem total_le_length {w : Task → ℕ} (h : ∀ t, w t ≤ 1) (tasks : List Task) : total w tasks ≤ tasks.length := by
  have hle := Tally.total_le_add (v := fun _ => 0) (c := 1) (l := tasks) fun t _ => by simpa using h t
  simpa [total] using hle

theorem rowTotal_eq (tasks : List Task) : rowTotal tasks = (tasks.map Task.rows).flatten.length := by
  rw [List.length_flatten, List.map_map]
  rfl

theorem Fits.step {J : Job} {s s' : St} {a : Act} (h : Fits s.tasks) (hstep : step J s a = some s') : Fits s'.tasks := by
  have hrows := step_rows hstep
  have hlen : s'.tasks.length = s.tasks.length := by simpa using congrArg List.length hrows
  refine ⟨hlen ▸ h.chunks, ?_⟩
  rw [rowTotal_eq, hrows, ← rowTotal_eq]
  exact h.rows

theorem Counted.advance {body : Body} {s s' : St} {i k : ℕ} (hcount : Counted s) (hok : ∀ t ∈ s.tasks, t.Ok body)
    (hfits : Fits s'.tasks) (h : advance body s i k = some s') : Counted s' := by
  obtain ⟨t, hi, pc, hmove, htotal, -⟩ := advance_total h
  have ht := List.mem_of_getElem? hi
  have hone : ∀ {w : Pc → ℕ}, (∀ pc, w pc ≤ 1) → total (fun t => w t.pc) s'.tasks < usizeBound :=
    fun hw => (total_le_length (fun t => hw t.pc) s'.tasks).trans_lt hfits.chunks
  have hrows : total (fun t => t.pc.processedW t.rows.length) s'.tasks < usizeBound :=
    (Tally.total_mono fun t _ => Pc.processedW_le t.rows.length t.pc).trans_lt hfits.rows
  exact {
    active := hmove.active.eq hcount.active (htotal _ fun _ => rfl) (hone fun pc => pc.weights_le_one.1)
    started := hmove.started.eq hcount.started (htotal _ fun _ => rfl) (hone fun pc => pc.weights_le_one.2.1)
    finished := hmove.finished.eq hcount.finished (htotal _ fun _ => rfl) (hone fun pc => pc.weights_le_one.2.2)
    processed := (hmove.processed (hok t ht)).eq hcount.processed (htotal _ fun _ => rfl) hrows }

theorem Counted.step {J : Job} {s s' : St} {a : Act} (hcount : Counted s) (hinv : Inv J s) (hfits : Fits s.tasks)
    (h : step J s a = some s') : Counted s' := by
  have hfits' := hfits.step h
  rcases step_cases h with ⟨i, k, rfl, hadv⟩ | ⟨i, rfl, hwake⟩
  · exact hcount.advance hinv.ok hfits' hadv
  · obtain ⟨-, hmt, htotal, -⟩ := wake_total hwake
    refine ⟨?_, ?_, ?_, ?_⟩ <;> rw [hmt, htotal _ fun _ => rfl]
    · exact hcount.active
    · exact hcount.started
    · exact hcount.finished
    · exact hcount.processed

theorem Counted.start (J : Job) (mt : Metrics) (chunks : List (List Row)) : Counted (.start J mt chunks) := by
  have hzero : ∀ {w : Task → ℕ}, (∀ rows, w ⟨rows, .idle⟩ = 0) → 0 = total w (St.start J mt chunks).tasks := by
    intro w hw
    refine ((Tally.total_eq_zero_iff w).2 fun t ht => ?_).symm
    obtain ⟨rows, -, rfl⟩ := List.mem_map.1 ht
    exact hw rows
  exact ⟨hzero fun _ => rfl, hzero fun _ => rfl, hzero fun _ => rfl, hzero fun _ => rfl⟩

/-! ## The maximum -/

/-- the value a task is about to raise the maximum to -/
def Pc.pending : Pc → Option ℕ
  | .loadMax now => some now
  | .casMax now _ => some now
  | _ => none

def Pc.carries (n : ℕ) (pc : Pc) : ℕ := if pc.pending = some n then 1 else 0

/-- `peak` is the largest number of active chunks so far: it is the maximum, or some task will make it the maximum -/
structure Peaked (s : St) (peak : ℕ) : Prop where
  active : s.metrics.activeChunks ≤ peak
  max_le : s.metrics.maxActiveChunks ≤ peak
  pending : ∀ t ∈ s.tasks, ∀ now, t.pc.pending = some now → now ≤ peak
  reached : peak ≤ s.metrics.maxActiveChunks ∨ 0 < total (fun t => t.pc.carries peak) s.tasks

/-- what a step does to the maximum and to the pending values -/
inductive MaxMoves (mt mt' : Metrics) (pc pc' : Pc) : Prop where
  | enter (hmax : mt'.maxActiveChunks = mt.maxActiveChunks) (hpc : pc.pending = none)
      (hpc' : pc'.pending = some mt'.activeChunks)
  | settle (now : ℕ) (hpc : pc.pending = some now) (hpc' : pc'.pending = none) (hactive : mt'.activeChunks = mt.activeChunks)
      (hle : mt.maxActiveChunks ≤ mt'.maxActiveChunks) (hnow : now ≤ mt'.maxActiveChunks)
      (hmax : mt'.maxActiveChunks = mt.maxActiveChunks ∨ mt'.maxActiveChunks = now)
  | keep (hmax : mt'.maxActiveChunks = mt.maxActiveChunks) (hpc : pc'.pending = pc.pending)
      (hactive : mt'.activeChunks = mt.activeChunks ∨ mt'.activeChunks = fetchSub mt.activeChunks ∧ pc.activeW = 1)

theorem Moves.max {body : Body} {rows : List Row} {p p' : ℕ} {mt mt' : Metrics} {pc pc' : Pc}
    (h : Moves body rows p mt pc p' mt' pc') (hok : Task.Ok body ⟨rows, pc⟩) : MaxMoves mt mt' pc pc' := by
  cases h with
  | enter => exact .enter (by simp) rfl rfl
  | @maxEnough p mt now hle => exact .settle now rfl rfl rfl le_rfl hle (Or.inl rfl)
  | @swap p mt now =>
    have hlt : mt.maxActiveChunks < now := hok
    exact .settle now rfl rfl rfl hlt.le le_rfl (Or.inr rfl)
  | leave => exact .keep (by simp) rfl (Or.inr ⟨rfl, rfl⟩)
  | _ => exact .keep (by simp) rfl (Or.inl (by simp))

theorem Peaked.pending_le {body : Body} {s s' : St} {i k peak : ℕ} (hpeak : Peaked s peak)
    (hok : ∀ t ∈ s.tasks, t.Ok body) (h : advance body s i k = some s') :
    ∀ t ∈ s'.tasks, ∀ now, t.pc.pending = some now → now ≤ max peak s'.metrics.activeChunks := by
  refine advance_forall h (P := fun t => ∀ now, t.pc.pending = some now → now ≤ max peak s'.metrics.activeChunks) ?_ ?_ ?_
  · intro t ht pc hP hmove now hnow
    rcases hmove.max (hok t (List.mem_of_getElem? ht)) with ⟨-, -, hpc'⟩ | ⟨_, -, hpc', -⟩ | ⟨-, hpc, -⟩
    · cases hpc'.symm.trans hnow
      exact le_max_right _ _
    · cases hpc'.symm.trans hnow
    · exact hP now (hpc ▸ hnow)
  · intro rows _ now hnow
    cases hnow
  · exact fun t ht now hnow => (hpeak.pending t ht now hnow).trans (le_max_left _ _)

theorem Peaked.advance {body : Body} {s s' : St} {i k peak : ℕ} (hpeak : Peaked s peak) (hcount : Counted s)
    (hok : ∀ t ∈ s.tasks, t.Ok body) (h : advance body s i k = some s') :
    Peaked s' (max peak s'.metrics.activeChunks) := by
  have hpending := hpeak.pending_le hok h
  obtain ⟨t, hi, pc, hmove, htotal, -⟩ := advance_total h
  have ht := List.mem_of_getElem? hi
  have hcarries : ∀ n, total (fun t => t.pc.carries n) s'.tasks + t.pc.carries n =
      total (fun t => t.pc.carries n) s.tasks + pc.carries n := fun n => htotal _ fun _ => rfl
  have hactive := hpeak.active
  rcases hmove.max (hok t ht) with ⟨hmax, hpc, hpc'⟩ | ⟨now, hpc, hpc', heq, hle, hnow, hmax⟩ | ⟨hmax, hpc, heq⟩
  · refine ⟨le_max_right _ _, hmax ▸ hpeak.max_le.trans (le_max_left _ _), hpending, ?_⟩
    rcases le_total s'.metrics.activeChunks peak with hlow | hhigh
    · rw [max_eq_left hlow, hmax]
      have hsum := hcarries peak
      rw [Pc.carries, hpc] at hsum
      exact hpeak.reached.imp_right fun hpos => by
        simp only [reduceCtorEq, if_false] at hsum
        omega
    · -- the task that has just entered carries the new peak
      rw [max_eq_right hhigh]
      have hsum := hcarries s'.metrics.activeChunks
      simp only [Pc.carries, hpc, hpc', reduceCtorEq, if_false, if_true] at hsum
      exact Or.inr (by simp only [Pc.carries]; omega)
  · rw [heq, max_eq_left hactive] at hpending ⊢
    have hnowle := hpeak.pending t ht now hpc
    refine ⟨heq ▸ hactive, ?_, hpending, ?_⟩
    · rcases hmax with h1 | h1
      · exact h1 ▸ hpeak.max_le
      · exact h1 ▸ hnowle
    · by_cases hcarry : now = peak
      · exact Or.inl (hcarry ▸ hnow)
      · have hsum := hcarries peak
        simp only [Pc.carries, hpc, hpc', Option.some.injEq, if_neg hcarry, reduceCtorEq, if_false] at hsum
        rcases hpeak.reached with hreached | hpos
        · exact Or.inl (hreached.trans hle)
        · exact Or.inr (by simp only [Pc.carries] at hpos ⊢; omega)
  · have hlow : s'.metrics.activeChunks ≤ s.metrics.activeChunks := by
      rcases heq with heq | ⟨heq, hone⟩
      · exact heq.le
      · have hpos : t.pc.activeW ≤ _ := Tally.le_total (fun t => t.pc.activeW) ht
        rw [hone, ← hcount.active] at hpos
        rw [heq, fetchSub_of_pos hpos]
        exact Nat.sub_le _ _
    rw [max_eq_left (hlow.trans hactive)] at hpending ⊢
    refine ⟨hlow.trans hactive, hmax ▸ hpeak.max_le, hpending, ?_⟩
    have hsum := hcarries peak
    simp only [Pc.carries, hpc] at hsum
    rw [hmax]
    exact hpeak.reached.imp_right fun hpos => by
      simp only [Pc.carries] at hpos ⊢
      omega

theorem Peaked.step {J : Job} {s s' : St} {a : Act} {peak : ℕ} (hpeak : Peaked s peak) (hcount : Counted s)
    (hinv : Inv J s) (h : step J s a = some s') : Peaked s' (max peak s'.metrics.activeChunks) := by
  rcases step_cases h with ⟨i, k, rfl, hadv⟩ | ⟨i, rfl, hwake⟩
  · exact hpeak.advance hcount hinv.ok hadv
  · have hpending := wake_forall (P := fun t => ∀ now, t.pc.pending = some now → now ≤ peak) hwake
      (fun _ _ _ hnow => by cases hnow) hpeak.pending
    obtain ⟨-, hmt, htotal, -⟩ := wake_total hwake
    rw [hmt, max_eq_left hpeak.active]
    refine ⟨hmt ▸ hpeak.active, hmt ▸ hpeak.max_le, hpending, ?_⟩
    rw [hmt, htotal _ fun _ => rfl]
    exact hpeak.reached

/-! ## A whole call -/

/-- what holds of a state and of the largest number of active chunks up to it -/
structure Accounts (J : Job) (s : St) (peak : ℕ) : Prop where
  inv : Inv J s
  fits : Fits s.tasks
  counted : Counted s
  peaked : Peaked s peak

theorem Accounts.step {J : Job} {s s' : St} {a : Act} {peak : ℕ} (h : Accounts J s peak) (hstep : step J s a = some s') :
    Accounts J s' (max peak s'.metrics.activeChunks) :=
  ⟨h.inv.step hstep, h.fits.step hstep, h.counted.step h.inv h.fits hstep, h.peaked.step h.counted h.inv hstep⟩

theorem Accounts.start (J : Job) (mt : Metrics) {chunks : List (List Row)} (hfits : Fits (St.start J mt chunks).tasks) :
    Accounts J (.start J mt chunks) 0 where
  inv := .start J mt chunks
  fits := hfits
  counted := .start J mt chunks
  peaked := by
    refine ⟨le_rfl, le_rfl, fun t ht now hnow => ?_, Or.inl (Nat.zero_le _)⟩
    obtain ⟨rows, -, rfl⟩ := List.mem_map.1 ht
    cases hnow

/-- along a run, with the largest number of active chunks that the run has had -/
theorem Accounts.run {J : Job} {s s' : St} {as : List Act} (h : Accounts J s s.metrics.activeChunks)
    (hrun : Machine.exec (Execution.step J) s as = some s') :
    ∃ peak, Accounts J s' peak ∧
      IsGreatest (Machine.values (Execution.step J) (fun u => u.metrics.activeChunks) s as) peak := by
  obtain ⟨peak, hexec, hgreatest⟩ := Machine.exec_peak (f := fun u => u.metrics.activeChunks) hrun
  refine ⟨peak, ?_, hgreatest⟩
  have hstep : ∀ (u : St × ℕ) a u', Accounts J u.1 u.2 →
      Machine.withPeak (Execution.step J) (fun u => u.metrics.activeChunks) u a = some u' → Accounts J u'.1 u'.2 := by
    intro u a u' hu hua
    obtain ⟨hnext, hmax⟩ := Machine.withPeak_some.1 hua
    rw [hmax]
    exact hu.step hnext
  exact Machine.exec_inv hstep (s := (s, s.metrics.activeChunks)) h hexec

theorem Accounts.active_le {J : Job} {s : St} {peak : ℕ} (h : Accounts J s peak) :
    s.metrics.activeChunks ≤ J.maxInFlight := by
  have hle : total (fun t => t.pc.activeW) s.tasks ≤ holders s.tasks :=
    Tally.total_mono fun t _ => t.pc.activeW_le_holds
  have := h.inv.permits
  rw [h.counted.active]
  omega

/-- what the metrics come to when every task is done -/
theorem Accounts.done {J : Job} {s : St} {peak : ℕ} (h : Accounts J s peak) (hdone : ∀ t ∈ s.tasks, ∃ out, t.pc = .done out) :
    s.permits = J.maxInFlight ∧ s.metrics.activeChunks = 0 ∧ s.metrics.rowsProcessed = rowTotal s.tasks ∧
      s.metrics.chunksStarted = s.tasks.length ∧ s.metrics.chunksFinished = s.tasks.length ∧
      s.metrics.maxActiveChunks = peak := by
  have hzero : ∀ {w : Pc → ℕ}, (∀ out, w (.done out) = 0) → total (fun t => w t.pc) s.tasks = 0 := by
    intro w hw
    refine (Tally.total_eq_zero_iff _).2 fun t ht => ?_
    obtain ⟨out, hout⟩ := hdone t ht
    rw [hout, hw]
  have hone : ∀ {w : Pc → ℕ}, (∀ out, w (.done out) = 1) → total (fun t => w t.pc) s.tasks = s.tasks.length := by
    intro w hw
    have : s.tasks.map (fun t => w t.pc) = s.tasks.map fun _ => 1 := List.map_congr_left fun t ht => by
      obtain ⟨out, hout⟩ := hdone t ht
      rw [hout, hw]
    simp [total, this]
  have hrows : total (fun t => t.pc.processedW t.rows.length) s.tasks = rowTotal s.tasks := by
    refine congrArg List.sum (List.map_congr_left fun t ht => ?_)
    obtain ⟨out, hout⟩ := hdone t ht
    rw [hout, Pc.processedW]
  have hpermits := h.inv.permits
  rw [holders, hzero fun _ => rfl] at hpermits
  refine ⟨hpermits, h.counted.active.trans (hzero fun _ => rfl), h.counted.processed.trans hrows,
    h.counted.started.trans (hone fun _ => rfl), h.counted.finished.trans (hone fun _ => rfl), ?_⟩
  have hnone : total (fun t => t.pc.carries peak) s.tasks = 0 := hzero fun _ => rfl
  exact le_antisymm h.peaked.max_le (h.peaked.reached.resolve_right (by omega))

/-- **Accounts of a parallel call**: in every state the free permits and the tasks between acquire and release add up to
the limit, which bounds the active chunks; when it is over every permit is back, every row and chunk is counted once, and
the maximum is the largest number of chunks that were active at once. It comes to its end: until then some task can take
a step, and the steps are bounded, but for spurious wakeups -/
theorem run_accounts (E : ExecutionEngine) (body : Body) (mt : Metrics) (ds : DataSet) (hrows : ds.rowCount ≤ isizeMax)
    (hbody : ∀ row ∈ ds.rows, (body row).isSome) :
    ∃ s₀, E.begin body mt ds = some s₀ ∧
      (∀ s, Reachable (step (E.job body)) s₀ s →
        s.permits + holders s.tasks = E.opts.maxInFlightChunks.toNat ∧
          s.metrics.activeChunks ≤ E.opts.maxInFlightChunks.toNat) ∧
      (∀ as s, Machine.exec (step (E.job body)) s₀ as = some s → s.Finished →
        s.permits = E.opts.maxInFlightChunks.toNat ∧ s.metrics.activeChunks = 0 ∧
          s.metrics.rowsProcessed = ds.rowCount ∧
          s.metrics.chunksStarted = divCeil ds.rowCount E.opts.chunkSize.toNat ∧
          s.metrics.chunksFinished = divCeil ds.rowCount E.opts.chunkSize.toNat ∧
          IsGreatest (Machine.values (step (E.job body)) (fun u => u.metrics.activeChunks) s₀ as)
            s.metrics.maxActiveChunks) ∧
      (∀ s, Reachable (step (E.job body)) s₀ s → s.Finished ∨ ∃ i k s', step (E.job body) s (.run i k) = some s') ∧
      ∃ bound, ∀ as s, Machine.exec (step (E.job body)) s₀ as = some s → as.length ≤ bound + (as.map Act.cost).sum := by
  obtain ⟨ranges, hranges, hchunks, hflat, hlen⟩ := E.chunks_spec hrows
  set chunks := ranges.map (slice ds.rows) with hdef
  have hmap := start_rows (E.job body) mt chunks
  have hcount : ∀ {s : St}, s.tasks.map Task.rows = chunks →
      s.tasks.length = divCeil ds.rowCount E.opts.chunkSize.toNat := by
    intro s hs
    rw [← hlen, ← List.length_map Task.rows, hs, hdef, List.length_map]
  have htotal : ∀ {s : St}, s.tasks.map Task.rows = chunks → rowTotal s.tasks = ds.rowCount := by
    intro s hs
    rw [rowTotal_eq, hs, hflat]
    rfl
  have hfits : Fits (St.start (E.job body) mt chunks).tasks := by
    have hbound : isizeMax < usizeBound := by decide
    have hle := divCeil_le (n := ds.rowCount) E.chunkSize_pos
    exact ⟨by rw [hcount hmap]; omega, by rw [htotal hmap]; omega⟩
  have hstart := Accounts.start (E.job body) mt hfits
  obtain ⟨out, hout⟩ := exists_runRows hbody
  have hcomputes : Computes (E.job body) (.start (E.job body) mt chunks) ⟨ds.schema, out⟩ :=
    computes_of_runRows E.threads_pos E.maxInFlight_pos mt (hflat ▸ hout)
  refine ⟨_, by rw [ExecutionEngine.begin, hchunks]; rfl, fun s hs => ?_, fun as s hrun hfin => ?_, hcomputes.progress,
    hcomputes.finite⟩
  · obtain ⟨as, has⟩ := hs
    obtain ⟨peak, hacc, -⟩ := hstart.run has
    exact ⟨hacc.inv.permits, hacc.active_le⟩
  · obtain ⟨peak, hacc, hgreatest⟩ := hstart.run hrun
    have hsame := (Reachable.rows ⟨as, hrun⟩).trans hmap
    have hquiet : ∀ t ∈ s.tasks, panics body t.rows = false := by
      intro t ht
      rw [panics, List.any_eq_false]
      intro row hrow
      have hmem : row ∈ chunks.flatten := List.mem_flatten.2 ⟨t.rows, hsame ▸ List.mem_map_of_mem ht, hrow⟩
      rw [hflat] at hmem
      simpa [Option.isSome_iff_ne_none] using hbody row hmem
    obtain ⟨h1, h2, h3, h4, h5, h6⟩ := hacc.done (finished_done hacc.inv hfin hquiet)
    refine ⟨h1, h2, h3.trans (htotal hsame), h4.trans (hcount hsame), h5.trans (hcount hsame), ?_⟩
    rw [h6]
    exact hgreatest

theorem two_ids_account :
    ∃ s₀, oneByOne.begin (mapBody 1 some) .new twoIds = some s₀ ∧
      (∀ s, Reachable (step (oneByOne.job (mapBody 1 some))) s₀ s →
        s.permits + holders s.tasks = 1 ∧ s.metrics.activeChunks ≤ 1) ∧
      (∀ as s, Machine.exec (step (oneByOne.job (mapBody 1 some))) s₀ as = some s → s.Finished →
        s.permits = 1 ∧ s.metrics.activeChunks = 0 ∧ s.metrics.rowsProcessed = 2 ∧ s.metrics.chunksStarted = 2 ∧
          s.metrics.chunksFinished = 2 ∧
          IsGreatest (Machine.values (step (oneByOne.job (mapBody 1 some))) (fun u => u.metrics.activeChunks) s₀ as)
            s.metrics.maxActiveChunks) ∧
      (∀ s, Reachable (step (oneByOne.job (mapBody 1 some))) s₀ s →
        s.Finished ∨ ∃ i k s', step (oneByOne.job (mapBody 1 some)) s (.run i k) = some s') ∧
      ∃ bound, ∀ as s, Machine.exec (step (oneByOne.job (mapBody 1 some))) s₀ as = some s →
        as.length ≤ bound + (as.map Act.cost).sum :=
  run_accounts oneByOne (mapBody 1 some) .new twoIds (by decide) (by decide)

end RustDataProcessing.Execution
