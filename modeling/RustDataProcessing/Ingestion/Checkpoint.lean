/-
The incremental checkpoint loop: run the same batch again and again, each time from the maximum watermark the last run
reported, until a run returns no rows (`checkpointLoop`).

Over an `i64` or text column the loop always ends, and it drains the files in the sense of `HighWater`: a run takes the
rows the limits let through (`delivered`) and leaves the others (`leftBehind`: those past the limit of the batch, and
those cut off with their file).

- `checkpoint_loop_iff`: the loop ends; and it returns every row above the first floor exactly once, and no other row,
  if and only if every run leaves only rows strictly later than all it returned (and, if it returned nothing, none).
- `leavesOnlyLater_unlimited`: without a row limit nothing is left behind, so every run meets the condition.
- `truncated_run_skips`: with a limit of one, the second row of a sorted file is never returned.
-/
import Mathlib.Tactic
import RustDataProcessing.Lib.CutOff
import RustDataProcessing.Lib.HighWater
import RustDataProcessing.Ingestion.Unified
import RustDataProcessing.Ingestion.OrderedBatch

namespace RustDataProcessing.Ingestion

/-! ## The loop -/

def withFloor (options : IngestionOptions) (floor : Value) : IngestionOptions :=
  { options with watermarkExclusiveAbove := some floor }

/-- one run of the loop: the floor it started from and the rows it returned -/
structure Run where
  floor : Value
  rows : List Row
deriving DecidableEq, Repr

/-- the runs until one returns no rows; none when a run fails, when a run with rows reports no maximum, or when the
fuel is too small -/
def checkpointLoop (R : Readers) (paths : List String) (schema : Schema) (options : IngestionOptions) :
    ℕ → Value → Option (List Run)
  | 0, _ => none
  | n + 1, floor =>
    match (ingestFromOrderedPaths R paths schema (withFloor options floor)).result with
    | .error _ => none
    | .ok (ds, metadata) =>
      if ds.rows = [] then some [⟨floor, []⟩]
      else match metadata.maxWatermarkValue with
        | none => none
        | some floor' => (checkpointLoop R paths schema options n floor').map (⟨floor, ds.rows⟩ :: ·)

/-! ## What one run takes and leaves -/

/-- the rows one run returns -/
def delivered (maxRows : Option ℕ) (keep : Row → Bool) (parts : List (List Row)) : List Row :=
  limitRows maxRows ((parts.map (limitRows maxRows)).flatten.filter keep)

/-- the rows above the floor that one run does not return -/
def leftBehind (maxRows : Option ℕ) (keep : Row → Bool) (parts : List (List Row)) : List Row :=
  match maxRows with
  | none => []
  | some max => if max = 0 then [] else CutOff.leftBehind keep max parts

theorem delivered_append_leftBehind (maxRows : Option ℕ) (keep : Row → Bool) (parts : List (List Row)) :
    (delivered maxRows keep parts ++ leftBehind maxRows keep parts).Perm (parts.flatten.filter keep) := by
  unfold delivered leftBehind limitRows
  cases maxRows with
  | none => simp
  | some max =>
    by_cases hm : max = 0
    · simp [hm]
    · simp only [hm, if_false]
      exact CutOff.cutFirst_append_leftBehind keep max parts

def runSplit (idx : ℕ) (dt : DataType) (maxRows : Option ℕ) (parts : List (List Row)) :
    HighWater.Split (rowKey idx dt) parts.flatten where
  batch w := delivered maxRows (fun row => HighWater.isAbove w (rowKey idx dt row)) parts
  left w := leftBehind maxRows (fun row => HighWater.isAbove w (rowKey idx dt row)) parts
  perm _ := delivered_append_leftBehind _ _ _

/-- the run from this floor leaves only rows strictly later than all it returns, and none if it returns none -/
def LeavesOnlyLater (idx : ℕ) (dt : DataType) (maxRows : Option ℕ) (files : List DataSet) (floor : Value) : Prop :=
  ∃ w, cellKey dt floor = some w ∧ (runSplit idx dt maxRows (files.map DataSet.rows)).Safe w

/-- is the row above the floor? -/
def rowAbove (idx : ℕ) (dt : DataType) (floor : Value) (row : Row) : Bool :=
  match cellKey dt floor with
  | none => false
  | some w => HighWater.isAbove w (rowKey idx dt row)

section Loop

variable {R : Readers} {paths : List String} {schema : Schema} {options : IngestionOptions} {col : String} {idx : ℕ}
  {files : List DataSet}

/-- one run: the rows the limits let through, and their greatest key -/
theorem run_ok (hne : paths ≠ []) (hcol : options.watermarkColumn = some col) (hidx : schema.indexOf col = some idx)
    (hi : idx < schema.fields.length) (hdt : schema.fields[idx].dataType ≠ .float64)
    (hread : List.Forall₂ (fun p ds => readFile R schema options p = .ok ds) paths files) {floor : Value}
    {w : WatermarkKey schema.fields[idx].dataType} (hw : cellKey schema.fields[idx].dataType floor = some w) :
    ∃ ds best, (ingestFromOrderedPaths R paths schema (withFloor options floor)).result =
        .ok (ds, ⟨paths, paths.getLast?, best⟩) ∧
      ds.rows = (runSplit idx schema.fields[idx].dataType options.maxRows (files.map DataSet.rows)).batch w ∧
      best.bind (cellKey schema.fields[idx].dataType) =
        (runSplit idx schema.fields[idx].dataType options.maxRows (files.map DataSet.rows)).top w := by
  have hv : validateWatermarkConfig schema (withFloor options floor) = .ok () := by
    have ht : floor.hasType schema.fields[idx].dataType = true := by rw [← cellKey_isSome, hw]; rfl
    have hnull : floor ≠ .null := by rintro rfl; rw [cellKey_null] at hw; cases hw
    simp [validateWatermarkConfig, withFloor, hcol, hnull, hidx, index_fields hi, ensureValueMatchesType, ht, bind,
      Except.bind]
  have hread' : List.Forall₂ (fun p ds => readFile R schema (withFloor options floor) p = .ok ds) paths files := hread
  obtain ⟨best, hbest, hres⟩ := ingestFromOrderedPaths_ok hne hv hread'
  have habove : aboveFloor schema (withFloor options floor) =
      fun row => HighWater.isAbove w (rowKey idx schema.fields[idx].dataType row) := by
    funext row
    simp [aboveFloor, withFloor, hcol, hidx, List.getElem?_eq_getElem hi, hw]
  have hrows : (cutBatch schema (withFloor options floor) files).rows =
      (runSplit idx schema.fields[idx].dataType options.maxRows (files.map DataSet.rows)).batch w := by
    simp only [cutBatch, runSplit, delivered, habove, List.map_map]
    rfl
  have hcol' : (withFloor options floor).watermarkColumn = some col := hcol
  obtain ⟨r, hr, -, hkey⟩ :=
    maxValueInColumn_conforms (cutBatch_conforms (withFloor options floor) (files_conform hread')) hidx hi hdt
  rw [hcol'] at hbest
  have hrb : r = best := Except.ok.inj (hr.symm.trans hbest)
  refine ⟨_, best, hres, hrows, ?_⟩
  rw [← hrb, hkey, hrows]
  rfl

/-- **The loop drains the files**: run by run, the same floors and the same rows -/
theorem checkpointLoop_drain (hne : paths ≠ []) (hcol : options.watermarkColumn = some col)
    (hidx : schema.indexOf col = some idx) (hi : idx < schema.fields.length)
    (hdt : schema.fields[idx].dataType ≠ .float64)
    (hread : List.Forall₂ (fun p ds => readFile R schema options p = .ok ds) paths files) (n : ℕ) {floor : Value}
    {w : WatermarkKey schema.fields[idx].dataType} (hw : cellKey schema.fields[idx].dataType floor = some w)
    {drained : List (WatermarkKey schema.fields[idx].dataType × List Row)}
    (hd : (runSplit idx schema.fields[idx].dataType options.maxRows (files.map DataSet.rows)).drain n w = some drained) :
    ∃ runs, checkpointLoop R paths schema options n floor = some runs ∧
      List.Forall₂ (fun (run : Run) d => cellKey schema.fields[idx].dataType run.floor = some d.1 ∧ run.rows = d.2)
        runs drained := by
  induction n generalizing floor w drained with
  | zero => cases hd
  | succ n ih =>
    obtain ⟨ds, best, hres, hrows, hbest⟩ := run_ok hne hcol hidx hi hdt hread hw
    rw [HighWater.Split.drain] at hd
    cases ht : (runSplit idx schema.fields[idx].dataType options.maxRows (files.map DataSet.rows)).top w with
    | none =>
      rw [ht] at hd
      cases hd
      have hnil : ds.rows = [] := by rw [hrows]; exact HighWater.Split.top_eq_none _ ht
      exact ⟨[⟨floor, []⟩], by simp [checkpointLoop, hres, hnil], .cons ⟨hw, by rw [← hrows, hnil]⟩ .nil⟩
    | some w' =>
      rw [ht] at hd hbest
      obtain ⟨rest, hrest, rfl⟩ := Option.map_eq_some_iff.1 hd
      obtain ⟨floor', rfl, hw'⟩ := Option.bind_eq_some_iff.1 hbest
      obtain ⟨runs, hruns, hall⟩ := ih hw' hrest
      have hcons : ds.rows ≠ [] := by
        obtain ⟨-, ⟨r, hr, -⟩, -⟩ := HighWater.Split.top_eq_some _ ht
        rw [hrows]
        exact List.ne_nil_of_mem hr
      exact ⟨⟨floor, ds.rows⟩ :: runs, by simp [checkpointLoop, hres, hcons, hruns], .cons ⟨hw, hrows⟩ hall⟩

theorem rowAbove_eq {dt : DataType} {floor : Value} {w : WatermarkKey dt} (hw : cellKey dt floor = some w)
    (rows : List Row) : rows.filter (rowAbove idx dt floor) = HighWater.above (rowKey idx dt) w rows := by
  have : rowAbove idx dt floor = fun row => HighWater.isAbove w (rowKey idx dt row) := by
    funext row
    simp only [rowAbove, hw]
  rw [this]
  rfl

/-- without a row limit a run leaves nothing behind -/
theorem leavesOnlyLater_unlimited {dt : DataType} {floor : Value} (hfloor : floor.hasType dt = true)
    (files : List DataSet) {maxRows : Option ℕ} (hm : maxRows = none ∨ maxRows = some 0) :
    LeavesOnlyLater idx dt maxRows files floor := by
  obtain ⟨w, hw⟩ := Option.isSome_iff_exists.1 ((cellKey_isSome dt floor).trans hfloor)
  have hleft : (runSplit idx dt maxRows (files.map DataSet.rows)).left w = [] := by
    rcases hm with rfl | rfl <;> rfl
  refine ⟨w, hw, fun r _ l hl => ?_, fun _ => hleft⟩
  rw [hleft] at hl
  cases hl

/-- **The checkpoint loop** over an `i64` or text column ends, and it returns every row above the first floor exactly
once and no other row, if and only if every run leaves only strictly later rows -/
theorem checkpoint_loop_iff (hne : paths ≠ []) (hcol : options.watermarkColumn = some col)
    (hidx : schema.indexOf col = some idx) (hi : idx < schema.fields.length)
    (hdt : schema.fields[idx].dataType = .int64 ∨ schema.fields[idx].dataType = .utf8) {floor : Value}
    (hfloor : floor.hasType schema.fields[idx].dataType = true)
    (hread : List.Forall₂ (fun p ds => readFile R schema options p = .ok ds) paths files) :
    ∃ runs, checkpointLoop R paths schema options ((files.map DataSet.rows).flatten.length + 1) floor = some runs ∧
      ((runs.flatMap Run.rows).Perm
          ((files.map DataSet.rows).flatten.filter (rowAbove idx schema.fields[idx].dataType floor)) ↔
        ∀ run ∈ runs, LeavesOnlyLater idx schema.fields[idx].dataType options.maxRows files run.floor) := by
  have hdt' : schema.fields[idx].dataType ≠ .float64 := by rcases hdt with h | h <;> rw [h] <;> decide
  obtain ⟨w, hw⟩ := Option.isSome_iff_exists.1 ((cellKey_isSome _ floor).trans hfloor)
  set S := runSplit idx schema.fields[idx].dataType options.maxRows (files.map DataSet.rows)
  obtain ⟨drained, hd⟩ := S.drain_total (n := (files.map DataSet.rows).flatten.length + 1) (w := w)
    (Nat.lt_succ_of_le (List.length_filter_le _ _))
  obtain ⟨runs, hruns, hall⟩ := checkpointLoop_drain hne hcol hidx hi hdt' hread _ hw hd
  have hflat : runs.flatMap Run.rows = drained.flatMap Prod.snd := by
    clear hd hruns
    induction hall with
    | nil => rfl
    | cons h _ ih => rw [List.flatMap_cons, List.flatMap_cons, h.2, ih]
  have hsafe : (∀ run ∈ runs, LeavesOnlyLater idx schema.fields[idx].dataType options.maxRows files run.floor) ↔
      ∀ d ∈ drained, S.Safe d.1 := by
    clear hd hruns hflat
    induction hall with
    | nil => simp
    | cons h _ ih =>
      rw [List.forall_mem_cons, List.forall_mem_cons, ih, LeavesOnlyLater, h.1]
      simp only [Option.some.injEq, exists_eq_left']
      rfl
  refine ⟨runs, hruns, ?_⟩
  rw [hflat, hsafe, rowAbove_eq hw]
  exact S.drain_perm_iff hd

end Loop

/-- two files of two rows and a limit of two: three runs, the last of them empty, and each leaves only later rows -/
theorem runs_within_files : ∃ runs,
    checkpointLoop (memoryReaders [("a.csv", [event 11, event 12]), ("b.csv", [event 13, event 14])]) ["a.csv", "b.csv"]
        eventSchema eventOptions 5 (.int64 10) = some runs ∧
      ∀ run ∈ runs, LeavesOnlyLater 0 .int64 (some 2)
        [⟨eventSchema, [event 11, event 12]⟩, ⟨eventSchema, [event 13, event 14]⟩] run.floor := by
  have hread : List.Forall₂ (fun p ds => readFile
      (memoryReaders [("a.csv", [event 11, event 12]), ("b.csv", [event 13, event 14])]) eventSchema eventOptions p = .ok ds)
      ["a.csv", "b.csv"] [⟨eventSchema, [event 11, event 12]⟩, ⟨eventSchema, [event 13, event 14]⟩] :=
    .cons (by rfl) (.cons (by rfl) .nil)
  have hidx : eventSchema.indexOf "ts" = some 0 := by decide
  have hfloor : (Value.int64 10).hasType .int64 = true := rfl
  obtain ⟨runs, hruns, hiff⟩ := checkpoint_loop_iff (by decide) rfl hidx (by decide) (Or.inl rfl) hfloor hread
  have hthree : checkpointLoop (memoryReaders [("a.csv", [event 11, event 12]), ("b.csv", [event 13, event 14])])
      ["a.csv", "b.csv"] eventSchema eventOptions 5 (.int64 10) =
        some [⟨.int64 10, [event 11, event 12]⟩, ⟨.int64 12, [event 13, event 14]⟩, ⟨.int64 14, []⟩] := by decide
  refine ⟨runs, hruns, hiff.1 ?_⟩
  rw [← Option.some.inj (hthree.symm.trans hruns)]
  decide

/-- **A truncated run skips rows**: one file with rows 11 and 12, floor 10, at most one row a run. The first run returns
11; the second reads the first row of the file again, finds nothing above 11 and ends the loop; 12 is never returned. -/
theorem truncated_run_skips :
    ¬ ∀ (R : Readers) (paths : List String) (schema : Schema) (options : IngestionOptions) (col : String) (idx : ℕ)
      (floor : Value) (files : List DataSet) (hi : idx < schema.fields.length),
      paths ≠ [] → options.watermarkColumn = some col → schema.indexOf col = some idx →
      (schema.fields[idx].dataType = .int64 ∨ schema.fields[idx].dataType = .utf8) →
      floor.hasType schema.fields[idx].dataType = true →
      List.Forall₂ (fun p ds => readFile R schema options p = .ok ds) paths files →
      ∃ runs, checkpointLoop R paths schema options ((files.map DataSet.rows).flatten.length + 1) floor = some runs ∧
        (runs.flatMap Run.rows).Perm
          ((files.map DataSet.rows).flatten.filter (rowAbove idx schema.fields[idx].dataType floor)) := by
  intro h
  obtain ⟨runs, hruns, hperm⟩ := h (memoryReaders [("a.csv", [event 11, event 12])]) ["a.csv"] eventSchema
    { eventOptions with maxRows := some 1 } "ts" 0 (.int64 10) [⟨eventSchema, [event 11, event 12]⟩] (by decide)
    (by decide) rfl (by decide) (Or.inl rfl) rfl (.cons (by rfl) .nil)
  have htwo : checkpointLoop (memoryReaders [("a.csv", [event 11, event 12])]) ["a.csv"] eventSchema
      { eventOptions with maxRows := some 1 } 3 (.int64 10) = some [⟨.int64 10, [event 11]⟩, ⟨.int64 11, []⟩] := by decide
  rw [← Option.some.inj (htwo.symm.trans hruns)] at hperm
  exact absurd hperm (by decide)

end RustDataProcessing.Ingestion
