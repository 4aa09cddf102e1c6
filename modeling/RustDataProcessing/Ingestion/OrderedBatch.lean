/-
What a batch of files should return, and when `ingestFromOrderedPaths` returns it.

`orderedBatch` is the specification: all rows of all files in path order, those above the floor, the first `max_rows` of
them. The code limits each file before the filter as well (`cutBatch`), so a file that is longer than the limit loses
its later rows even when its early ones are below the floor.

- `ordered_batch_iff`: on readable files the code returns `orderedBatch` exactly when the per-file limit is harmless
  (`CutOffHarmless`): there is no limit, or no row above the floor that lies beyond the limit in its file is wanted, or
  (exceptionally) the rows that move up are equal to the lost ones.
- `ordered_batch_without_watermark`: without watermark options the limit is always harmless.
- `early_rows_below_floor`: a file of four rows, the first two below the floor, under a limit of two: the code returns
  nothing.
-/
import Mathlib.Tactic
import RustDataProcessing.Lib.CutOff
import RustDataProcessing.Ingestion.Unified

namespace RustDataProcessing.Ingestion

/-! ## The specification -/

def orderedBatch (schema : Schema) (options : IngestionOptions) (files : List DataSet) : DataSet :=
  ⟨schema, limitRows options.maxRows ((files.map DataSet.rows).flatten.filter (aboveFloor schema options))⟩

/-- the per-file limit changes nothing -/
def CutOffHarmless (schema : Schema) (options : IngestionOptions) (files : List DataSet) : Prop :=
  match options.maxRows with
  | none => True
  | some max => max = 0 ∨
      CutOff.NothingReached (aboveFloor schema options) max (files.map DataSet.rows) ∨
      CutOff.Refilled (aboveFloor schema options) max (files.map DataSet.rows)

theorem cutBatch_eq_iff (schema : Schema) (options : IngestionOptions) (files : List DataSet) :
    cutBatch schema options files = orderedBatch schema options files ↔ CutOffHarmless schema options files := by
  unfold cutBatch orderedBatch CutOffHarmless limitRows
  cases options.maxRows with
  | none => simp only
  | some max =>
    rcases Nat.eq_zero_or_pos max with rfl | hp
    · simp
    · simp only [hp.ne', if_false, false_or, DataSet.mk.injEq, true_and]
      rw [← CutOff.cutFirst_eq_limited_iff, CutOff.cutFirst, CutOff.limited, List.map_map]
      rfl

/-- **The batch call meets its specification** exactly when the per-file limit is harmless -/
theorem ordered_batch_iff (R : Readers) {paths : List String} (hne : paths ≠ []) {schema : Schema}
    {options : IngestionOptions} (hv : validateWatermarkConfig schema options = .ok ()) {files : List DataSet}
    (hread : List.Forall₂ (fun p ds => readFile R schema options p = .ok ds) paths files) :
    (∃ metadata, (ingestFromOrderedPaths R paths schema options).result =
        .ok (orderedBatch schema options files, metadata)) ↔ CutOffHarmless schema options files := by
  obtain ⟨best, -, hres⟩ := ingestFromOrderedPaths_ok hne hv hread
  rw [← cutBatch_eq_iff, hres]
  constructor
  · rintro ⟨metadata, h⟩
    exact (Prod.ext_iff.1 (Except.ok.inj h)).1
  · intro h
    exact ⟨_, by rw [h]⟩

/-- without watermark options every row is wanted, and the limit only takes rows that are not reached -/
theorem ordered_batch_without_watermark (schema : Schema) {options : IngestionOptions}
    (h : options.watermarkColumn = none) (files : List DataSet) : CutOffHarmless schema options files := by
  unfold CutOffHarmless
  split
  · trivial
  · exact Or.inr (Or.inl (CutOff.nothingReached_of_forall (fun row => by simp [aboveFloor, h]) _))

/-! ## A file in memory -/

/-- a reader over files held in memory; rows that do not conform are refused -/
def memoryReader (disk : List (String × List Row)) : Reader where
  read path schema :=
    match disk.lookup path with
    | none => .error (.error (.io ⟨"NotFound", path⟩))
    | some rows =>
      if ∀ row ∈ rows, Row.Conforms row schema then .ok ⟨schema, rows⟩
      else .error (.schemaMismatch s!"{path} does not match the schema")
  conforms path schema ds h := by
    split at h
    · cases h
    · split_ifs at h with hrows
      cases h
      exact ⟨rfl, hrows⟩

def memoryReaders (disk : List (String × List Row)) : Readers :=
  ⟨memoryReader disk, memoryReader disk, memoryReader disk, fun _ => memoryReader disk, memoryReader disk⟩

def eventSchema : Schema := ⟨[⟨"ts", .int64⟩]⟩

def event (ts : Int64) : Row := [.int64 ts]

/-- floor 10, at most two rows -/
def eventOptions : IngestionOptions :=
  { watermarkColumn := some "ts", watermarkExclusiveAbove := some (.int64 10), maxRows := some 2 }

def eventDisk : List (String × List Row) := [("a.csv", [event 1, event 2, event 11, event 12])]

/-- two files of two rows: the limit of two cuts neither off, and the batch is cut off after the filter -/
theorem limit_within_files :
    ∃ metadata, (ingestFromOrderedPaths (memoryReaders [("a.csv", [event 1, event 11]), ("b.csv", [event 12, event 13])])
      ["a.csv", "b.csv"] eventSchema eventOptions).result =
        .ok (orderedBatch eventSchema eventOptions
          [⟨eventSchema, [event 1, event 11]⟩, ⟨eventSchema, [event 12, event 13]⟩], metadata) :=
  (ordered_batch_iff _ (by decide) rfl (.cons (by rfl) (.cons (by rfl) .nil))).2 (Or.inr (Or.inl (by decide)))

/-- **Early rows below the floor hide the later ones**: the two rows above the floor are cut off with the file -/
theorem early_rows_below_floor :
    ¬ ∀ (R : Readers) (paths : List String) (schema : Schema) (options : IngestionOptions) (files : List DataSet),
      paths ≠ [] → validateWatermarkConfig schema options = .ok () →
      List.Forall₂ (fun p ds => readFile R schema options p = .ok ds) paths files →
      ∃ metadata, (ingestFromOrderedPaths R paths schema options).result =
        .ok (orderedBatch schema options files, metadata) := by
  intro h
  have hread : readFile (memoryReaders eventDisk) eventSchema eventOptions "a.csv" =
      .ok ⟨eventSchema, [event 1, event 2, event 11, event 12]⟩ := by rfl
  obtain ⟨metadata, hm⟩ := h (memoryReaders eventDisk) ["a.csv"] eventSchema eventOptions _ (by decide) rfl
    (.cons hread .nil)
  have hcode : (ingestFromOrderedPaths (memoryReaders eventDisk) ["a.csv"] eventSchema eventOptions).result.toOption.map
      (fun p => p.1.rows) = some [] := by decide
  rw [hm] at hcode
  have hspec : (orderedBatch eventSchema eventOptions [⟨eventSchema, [event 1, event 2, event 11, event 12]⟩]).rows = [] :=
    Option.some.inj hcode
  exact absurd hspec (by decide)

end RustDataProcessing.Ingestion
