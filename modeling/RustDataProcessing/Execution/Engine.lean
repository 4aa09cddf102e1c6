/-
The execution engine and its parallel chunk loop (`filter_parallel_impl` and `map_parallel_impl` in
`src/execution/mod.rs`, `semaphore.rs`, `observer.rs`) as a machine.

Each chunk is a task; a worker takes a task and runs it to its end, so at most `threads` tasks are in progress. The
steps of the tasks interleave arbitrarily. A step is one atomic action of the source on shared data: a critical section
of the semaphore's mutex, one atomic operation on a counter, or one row of the loop (counted, then passed to the
closure). The closure's panic ends the task where it stands; no later step of the task is taken.

- `acquire` finds a permit, or sleeps on the condition variable; `release` returns the permit and wakes one sleeper, any
  of them; a sleeper that wakes looks again. A sleeper may also wake for no reason (`spurious`).
- `on_chunk_start` ends with the compare-and-swap loop of `update_max_usize` (`loadMax`, `casMax`).
- counters are 64-bit and wrap.

Waiting times, elapsed times and the events handed to an observer are left out.
-/
import Mathlib.Tactic
import RustDataProcessing.Types
import RustDataProcessing.Execution.Chunks

namespace RustDataProcessing.Execution

/-! ## Options -/

structure ExecutionOptions where
  numThreads : Option UInt64
  chunkSize : UInt64
  maxInFlightChunks : UInt64
deriving DecidableEq, Repr

/-- an engine is only built with a chunk size, a limit and a worker count above zero -/
structure ExecutionEngine where
  opts : ExecutionOptions
  threads : ℕ
  chunkSize_pos : 0 < opts.chunkSize.toNat
  maxInFlight_pos : 0 < opts.maxInFlightChunks.toNat
  threads_pos : 0 < threads

/-- `available` is the platform's parallelism; none is a panic -/
def ExecutionEngine.new (available : UInt64) (opts : ExecutionOptions) : Option ExecutionEngine :=
  if h : 0 < opts.chunkSize.toNat ∧ 0 < opts.maxInFlightChunks.toNat ∧ opts.numThreads ≠ some 0 then
    some ⟨opts, max (opts.numThreads.getD available).toNat 1, h.1, h.2.1, by omega⟩
  else none

/-! ## Metrics -/

/-- what `fetch_add(1)` makes of a counter -/
def fetchAdd (n : ℕ) : ℕ := if n + 1 = usizeBound then 0 else n + 1

/-- what `fetch_sub(1)` makes of a counter -/
def fetchSub (n : ℕ) : ℕ := if n = 0 then usizeBound - 1 else n - 1

theorem fetchAdd_of_lt {n : ℕ} (h : n + 1 < usizeBound) : fetchAdd n = n + 1 := if_neg h.ne

theorem fetchSub_of_pos {n : ℕ} (h : 0 < n) : fetchSub n = n - 1 := if_neg h.ne'

structure Metrics where
  runId : ℕ
  rowsProcessed : ℕ
  chunksStarted : ℕ
  chunksFinished : ℕ
  activeChunks : ℕ
  maxActiveChunks : ℕ
deriving DecidableEq, Repr

inductive Reset where
  | runId
  | rowsProcessed
  | chunksStarted
  | chunksFinished
  | activeChunks
  | maxActiveChunks
deriving DecidableEq, Repr

namespace Metrics

def new : Metrics := ⟨0, 0, 0, 0, 0, 0⟩

@[simp] def onRowProcessed (mt : Metrics) : Metrics := { mt with rowsProcessed := fetchAdd mt.rowsProcessed }

/-- the first statement of `on_chunk_start` -/
@[simp] def chunkStarted (mt : Metrics) : Metrics := { mt with chunksStarted := fetchAdd mt.chunksStarted }

@[simp] def activate (mt : Metrics) : Metrics := { mt with activeChunks := fetchAdd mt.activeChunks }

/-- the first statement of `on_chunk_end` -/
@[simp] def chunkFinished (mt : Metrics) : Metrics := { mt with chunksFinished := fetchAdd mt.chunksFinished }

@[simp] def deactivate (mt : Metrics) : Metrics := { mt with activeChunks := fetchSub mt.activeChunks }

@[simp] def setMax (mt : Metrics) (now : ℕ) : Metrics := { mt with maxActiveChunks := now }

/-- one atomic statement of `begin_run` -/
def reset (mt : Metrics) : Reset → Metrics
  | .runId => { mt with runId := fetchAdd mt.runId }
  | .rowsProcessed => { mt with rowsProcessed := 0 }
  | .chunksStarted => { mt with chunksStarted := 0 }
  | .chunksFinished => { mt with chunksFinished := 0 }
  | .activeChunks => { mt with activeChunks := 0 }
  | .maxActiveChunks => { mt with maxActiveChunks := 0 }

/-- the statements of `begin_run`, in order -/
def resets : List Reset := [.runId, .rowsProcessed, .chunksStarted, .chunksFinished, .activeChunks, .maxActiveChunks]

def beginRun (mt : Metrics) : Metrics := resets.foldl reset mt

end Metrics

/-! ## Tasks -/

/-- where a task stands -/
inductive Pc where
  | idle
  | acquire
  | asleep
  | woken
  | started
  | activate
  | loadMax (now : ℕ)
  | casMax (now cur : ℕ)
  | rows (rest out : List Row)
  | deactivate (out : List Row)
  | release (out : List Row)
  | done (out : List Row)
  | panicked (rest : List Row)
deriving DecidableEq, Repr

structure Task where
  rows : List Row
  pc : Pc
deriving DecidableEq, Repr

/-- one row of the chunk loop: the rows it puts out, none when the closure or the assertion panics -/
abbrev Body := Row → Option (List Row)

def filterBody (predicate : Row → Option Bool) : Body := fun row =>
  (predicate row).map fun keep => if keep then [row] else []

def mapBody (expectedLen : ℕ) (mapper : Row → Option Row) : Body := fun row =>
  (mapper row).bind fun mapped => if mapped.length = expectedLen then some [mapped] else none

/-- the next step of a task: the permits, the metrics and where it then stands; none when it has none to take -/
def Task.step (body : Body) (permits : ℕ) (mt : Metrics) (t : Task) : Option (ℕ × Metrics × Pc) :=
  match t.pc with
  | .idle => some (permits, mt, .acquire)
  | .acquire => if permits = 0 then some (permits, mt, .asleep) else some (permits - 1, mt, .started)
  | .asleep => none
  | .woken => if permits = 0 then some (permits, mt, .asleep) else some (permits - 1, mt, .started)
  | .started => some (permits, mt.chunkStarted, .activate)
  | .activate => some (permits, mt.activate, .loadMax (fetchAdd mt.activeChunks))
  | .loadMax now =>
    if now ≤ mt.maxActiveChunks then some (permits, mt, .rows t.rows [])
    else some (permits, mt, .casMax now mt.maxActiveChunks)
  | .casMax now cur =>
    if mt.maxActiveChunks = cur then some (permits, mt.setMax now, .rows t.rows []) else some (permits, mt, .loadMax now)
  | .rows [] out => some (permits, mt.chunkFinished, .deactivate out)
  | .rows (row :: rest) out => match body row with
    | some rows => some (permits, mt.onRowProcessed, .rows rest (out ++ rows))
    | none => some (permits, mt.onRowProcessed, .panicked rest)
  | .deactivate out => some (permits, mt.deactivate, .release out)
  | .release out => some (permits + 1, mt, .done out)
  | .done _ => none
  | .panicked _ => none

namespace Pc

def isIdle : Pc → Bool
  | .idle => true
  | _ => false

def isAsleep : Pc → Bool
  | .asleep => true
  | _ => false

def isRelease : Pc → Bool
  | .release _ => true
  | _ => false

def isPanicked : Pc → Bool
  | .panicked _ => true
  | _ => false

/-- has the task come to its end? -/
def isOver : Pc → Bool
  | .done _ => true
  | .panicked _ => true
  | _ => false

end Pc

/-! ## The machine -/

structure Job where
  maxInFlight : ℕ
  threads : ℕ
  body : Body

structure St where
  metrics : Metrics
  permits : ℕ
  tasks : List Task
deriving DecidableEq, Repr

inductive Act where
  | run (task notified : ℕ)
  | spurious (task : ℕ)
deriving DecidableEq, Repr

/-- the tasks that workers are busy with -/
def inProgress (tasks : List Task) : ℕ := tasks.countP fun t => !t.pc.isIdle && !t.pc.isOver

/-- `notify_one`: some sleeper wakes, if there is one -/
def notifyOne (tasks : List Task) (k : ℕ) : Option (List Task) :=
  if tasks.any (·.pc.isAsleep) then match tasks[k]? with
    | some u => if u.pc.isAsleep then some (tasks.set k ⟨u.rows, .woken⟩) else none
    | none => none
  else some tasks

/-- the next step of task `i`; when it releases its permit, sleeper `k` is notified -/
def advance (body : Body) (s : St) (i k : ℕ) : Option St :=
  (s.tasks[i]?).bind fun t => (t.step body s.permits s.metrics).bind fun r =>
    (if t.pc.isRelease then notifyOne (s.tasks.set i ⟨t.rows, r.2.2⟩) k else some (s.tasks.set i ⟨t.rows, r.2.2⟩)).map
      fun tasks => ⟨r.2.1, r.1, tasks⟩

def wake (s : St) (i : ℕ) : Option St :=
  (s.tasks[i]?).bind fun t => if t.pc.isAsleep then some { s with tasks := s.tasks.set i ⟨t.rows, .woken⟩ } else none

/-- task `i` has not been taken by a worker -/
def idleAt (tasks : List Task) (i : ℕ) : Bool := tasks[i]?.any (·.pc.isIdle)

/-- a worker takes an idle task only when it is not busy with another -/
def step (J : Job) (s : St) : Act → Option St
  | .run i k => if idleAt s.tasks i ∧ J.threads ≤ inProgress s.tasks then none else advance J.body s i k
  | .spurious i => wake s i

def St.start (J : Job) (mt : Metrics) (chunks : List (List Row)) : St :=
  ⟨mt.beginRun, J.maxInFlight, chunks.map fun rows => ⟨rows, .idle⟩⟩

def St.Finished (s : St) : Prop := ∀ t ∈ s.tasks, t.pc.isOver

/-! ## A parallel call -/

namespace ExecutionEngine

variable (E : ExecutionEngine)

def job (body : Body) : Job := ⟨E.opts.maxInFlightChunks.toNat, E.threads, body⟩

def chunks (ds : DataSet) : Option (List (List Row)) :=
  (chunkRanges ds.rowCount E.opts.chunkSize.toNat).map (·.map (slice ds.rows))

/-- the call up to the parallel iterator; `mt` is what the engine's metrics were before -/
def begin (body : Body) (mt : Metrics) (ds : DataSet) : Option St := (E.chunks ds).map (St.start (E.job body) mt)

end ExecutionEngine

/-- what the task of a chunk puts into `per_chunk` -/
def Task.out (t : Task) : Option (List Row) := match t.pc with
  | .done out => some out
  | _ => none

/-- the dataset that the call returns; none while a task is not done, or when a panic is passed on -/
def result (schema : Schema) (s : St) : Option DataSet :=
  (s.tasks.mapM Task.out).map fun perChunk => ⟨schema, perChunk.flatten⟩

end RustDataProcessing.Execution
