/-
Parallel filter and map against `DataSet::filter_rows` and `map_rows`.

`Computes` is what it means that a parallel call returns a dataset: every state that is over has it as its result, from
every state that is not over a task can be advanced, and the steps of a run are bounded by its spurious wakeups.

- `computes_of_runRows`: a call whose closure panics on no row of the dataset computes what the closure makes of the
  rows in their order, whatever the split into chunks and the order of the steps.
- `parallel_refines_sequential`: so both operations are their sequential counterparts.
-/
import Mathlib.Tactic
import RustDataProcessing.Execution.Progress

namespace RustDataProcessing.Execution

/-! ## Rows in chunks -/

theorem runRows_append (body : Body) (rows rows' : List Row) :
    runRows body (rows ++ rows') = (runRows body rows).bind fun out => (runRows body rows').map (out ++ ·) := by
  unfold runRows
  rw [List.mapM_append]
  cases rows.mapM body with
  | none => rfl
  | some outs => cases rows'.mapM body with
    | none => rfl
    | some outs' => exact congrArg some List.flatten_append

theorem runRows_cons (body : Body) (row : Row) (rows : List Row) :
    runRows body (row :: rows) = (body row).bind fun out => (runRows body rows).map (out ++ ·) := by
  unfold runRows
  rw [List.mapM_cons]
  cases body row with
  | none => rfl
  | some out => cases rows.mapM body with
    | none => rfl
    | some outs => rfl

/-- chunk by chunk or all at once -/
theorem runRows_flatten (body : Body) (chunks : List (List Row)) :
    (chunks.mapM (runRows body)).map List.flatten = runRows body chunks.flatten := by
  induction chunks with
  | nil => rfl
  | cons rows chunks ih =>
    rw [List.flatten_cons, runRows_append, ← ih, List.mapM_cons]
    cases runRows body rows with
    | none => rfl
    | some out => cases chunks.mapM (runRows body) with
      | none => rfl
      | some outs => rfl

theorem runRows_filter (predicate : Row → Bool) (rows : List Row) :
    runRows (filterBody fun row => some (predicate row)) rows = some (rows.filter predicate) := by
  induction rows with
  | nil => rfl
  | cons row rows ih =>
    rw [runRows_cons, ih, List.filter_cons]
    cases h : predicate row <;> simp [filterBody, h]

theorem runRows_map {n : ℕ} {mapper : Row → Row} {rows out : List Row}
    (h : rows.mapM (DataSet.mapRow n mapper) = some out) :
    runRows (mapBody n fun row => some (mapper row)) rows = some out := by
  induction rows generalizing out with
  | nil =>
    cases h
    rfl
  | cons row rows ih =>
    rw [List.mapM_cons] at h
    obtain ⟨mapped, hmapped, h⟩ := Option.bind_eq_some_iff.1 h
    obtain ⟨rest, hrest, h⟩ := Option.bind_eq_some_iff.1 h
    cases h
    have hrow : mapBody n (fun row => some (mapper row)) row = some [mapped] := by
      simp only [DataSet.mapRow] at hmapped
      split_ifs at hmapped with hlen
      rw [← Option.some.inj hmapped]
      simp [mapBody, hlen]
    rw [runRows_cons, hrow, ih hrest]
    rfl

/-! ## What a call computes -/

/-- the call that starts in `s₀` returns `out`, in every order of its steps -/
structure Computes (J : Job) (s₀ : St) (out : DataSet) : Prop where
  result : ∀ s, Machine.Reachable (step J) s₀ s → s.Finished → result out.schema s = some out
  progress : ∀ s, Machine.Reachable (step J) s₀ s → s.Finished ∨ ∃ i k s', step J s (.run i k) = some s'
  finite : ∃ bound, ∀ as s, Machine.exec (step J) s₀ as = some s → as.length ≤ bound + (as.map Act.cost).sum

theorem finished_out {J : Job} {s : St} (hinv : Inv J s) (hfin : s.Finished)
    (hquiet : ∀ t ∈ s.tasks, panics J.body t.rows = false) : ∀ t ∈ s.tasks, t.out = runRows J.body t.rows := by
  intro t ht
  obtain ⟨out, hpc⟩ := finished_done hinv hfin hquiet t ht
  rw [(hinv.ok t ht).of_done hpc, Task.out, hpc]

theorem mapM_out {body : Body} {tasks : List Task} (h : ∀ t ∈ tasks, t.out = runRows body t.rows) :
    tasks.mapM Task.out = (tasks.map Task.rows).mapM (runRows body) := by
  induction tasks with
  | nil => rfl
  | cons t tasks ih =>
    obtain ⟨ht, hrest⟩ := List.forall_mem_cons.1 h
    rw [List.map_cons, List.mapM_cons, List.mapM_cons, ht, ih hrest]

theorem start_rows (J : Job) (mt : Metrics) (chunks : List (List Row)) :
    (St.start J mt chunks).tasks.map Task.rows = chunks := by
  simp [St.start, Function.comp_def]

/-- **Any split and any order**: what the call computes is what the closure makes of all rows in their order -/
theorem computes_of_runRows {J : Job} (hthreads : 0 < J.threads) (hlimit : 0 < J.maxInFlight) (mt : Metrics)
    {chunks : List (List Row)} {schema : Schema} {rows : List Row} (h : runRows J.body chunks.flatten = some rows) :
    Computes J (.start J mt chunks) ⟨schema, rows⟩ := by
  have hquiet : ∀ chunk ∈ chunks, panics J.body chunk = false := by
    have hall := runRows_isSome h
    rw [panics, List.any_flatten, List.any_eq_false] at hall
    intro chunk hchunk
    simpa [panics] using hall chunk hchunk
  have hrows : ∀ {s}, Machine.Reachable (step J) (.start J mt chunks) s → s.tasks.map Task.rows = chunks :=
    fun hs => (Reachable.rows hs).trans (start_rows J mt chunks)
  refine ⟨fun s hs hfin => ?_, fun s hs => ?_, (St.start J mt chunks).measure, fun as s => run_length_le⟩
  · have hout := mapM_out <| finished_out (Reachable.invariant hs (.start J mt chunks)) hfin fun t ht => by
      apply hquiet
      rw [← hrows hs]
      exact List.mem_map_of_mem ht
    have hflat := runRows_flatten J.body chunks
    rw [h, ← hrows hs, ← hout] at hflat
    obtain ⟨outs, houts, rfl⟩ := Option.map_eq_some_iff.1 hflat
    rw [Execution.result, houts]
    rfl
  · by_contra hstuck
    rw [not_or] at hstuck
    obtain ⟨hunfinished, hnone⟩ := hstuck
    have hhalted : Halted J s := fun i k => by
      by_contra hne
      obtain ⟨s', hs'⟩ := Option.ne_none_iff_exists'.1 hne
      exact hnone ⟨i, k, s', hs'⟩
    rcases halted_finished hthreads (Reachable.invariant hs (.start J mt chunks)) hhalted with hfin | ⟨hle, -⟩
    · exact hunfinished hfin
    · rw [hrows hs, List.countP_eq_zero.2 fun chunk hc => by simp [hquiet chunk hc]] at hle
      omega

/-! ## Parallel and sequential -/

/-- the engine starts the call, and it computes `out` -/
def ExecutionEngine.Returns (E : ExecutionEngine) (body : Body) (mt : Metrics) (ds out : DataSet) : Prop :=
  ∃ s₀, E.begin body mt ds = some s₀ ∧ Computes (E.job body) s₀ out

theorem ExecutionEngine.chunks_spec (E : ExecutionEngine) {ds : DataSet} (hrows : ds.rowCount ≤ isizeMax) :
    ∃ ranges, chunkRanges ds.rowCount E.opts.chunkSize.toNat = some ranges ∧
      E.chunks ds = some (ranges.map (slice ds.rows)) ∧ (ranges.map (slice ds.rows)).flatten = ds.rows ∧
      ranges.length = divCeil ds.rowCount E.opts.chunkSize.toNat := by
  obtain ⟨ranges, hranges, hcovers, hlen⟩ := chunkRanges_covers hrows E.chunkSize_pos E.opts.chunkSize.toNat_lt
  refine ⟨ranges, hranges, by rw [chunks, hranges]; rfl, ?_, hlen⟩
  rw [flatten_slices hcovers le_rfl, DataSet.rowCount, List.take_length, List.drop_zero]

theorem ExecutionEngine.returns_of_runRows (E : ExecutionEngine) {body : Body} (mt : Metrics) {ds : DataSet}
    (hrows : ds.rowCount ≤ isizeMax) {rows : List Row} (h : runRows body ds.rows = some rows) :
    E.Returns body mt ds ⟨ds.schema, rows⟩ := by
  obtain ⟨ranges, -, hchunks, hflat, -⟩ := E.chunks_spec hrows
  refine ⟨.start (E.job body) mt (ranges.map (slice ds.rows)), by rw [begin, hchunks]; rfl, ?_⟩
  exact computes_of_runRows E.threads_pos E.maxInFlight_pos mt (by rw [hflat]; exact h)

/-- **Parallel execution refines the sequential operations**: the ranges are a partition of the rows, without overflow,
and the calls return what `filter_rows` and `map_rows` return -/
theorem parallel_refines_sequential (E : ExecutionEngine) (mt : Metrics) (ds : DataSet)
    (hrows : ds.rowCount ≤ isizeMax) :
    (∀ rowCount chunkSize, rowCount ≤ isizeMax → 0 < chunkSize → chunkSize < usizeBound →
      ∃ ranges, chunkRanges rowCount chunkSize = some ranges ∧ Covers 0 rowCount ranges ∧
        (∀ r ∈ ranges, r.start < r.stop) ∧ (ranges.Pairwise fun r r' => r.stop ≤ r'.start) ∧
        ∀ i, (∃ r ∈ ranges, r.start ≤ i ∧ i < r.stop) ↔ i < rowCount) ∧
      (∀ predicate : Row → Bool,
        E.Returns (filterBody fun row => some (predicate row)) mt ds (ds.filterRows predicate)) ∧
      ∀ (mapper : Row → Row) (out : DataSet), ds.mapRows mapper = some out →
        E.Returns (mapBody ds.schema.fields.length fun row => some (mapper row)) mt ds out := by
  refine ⟨fun rowCount chunkSize hcount hpos hsize => ?_, fun predicate => ?_, fun mapper out hout => ?_⟩
  · obtain ⟨ranges, hranges, hcovers, -⟩ := chunkRanges_covers hcount hpos hsize
    refine ⟨ranges, hranges, hcovers, hcovers.nonempty, hcovers.disjoint, fun i => ?_⟩
    rw [hcovers.mem_iff]
    exact ⟨And.right, fun h => ⟨Nat.zero_le i, h⟩⟩
  · exact E.returns_of_runRows mt hrows (runRows_filter predicate ds.rows)
  · obtain ⟨rows, hrowsOut, rfl⟩ := Option.map_eq_some_iff.1 hout
    exact E.returns_of_runRows mt hrows (runRows_map hrowsOut)

/-- one worker, one row a chunk, one chunk at a time -/
def oneByOne : ExecutionEngine := ⟨⟨some 1, 1, 1⟩, 1, by decide, by decide, by decide⟩

def twoIds : DataSet := ⟨⟨[⟨"id", .int64⟩]⟩, [[.int64 1], [.int64 2]]⟩

theorem second_id_kept :
    oneByOne.Returns (filterBody fun row => some (row == [.int64 2])) .new twoIds ⟨twoIds.schema, [[.int64 2]]⟩ :=
  (parallel_refines_sequential oneByOne .new twoIds (by decide)).2.1 fun row => row == [.int64 2]

end RustDataProcessing.Execution
