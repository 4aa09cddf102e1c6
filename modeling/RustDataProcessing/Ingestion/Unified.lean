/-
Path ingestion (`src/ingestion/unified.rs`): one file, and an ordered list of files with one watermark filter.

The five format readers are parameters here (`Readers`), each with the promise every reader keeps: what it returns
conforms to the schema. The calls made to the observer are recorded beside the result (`Observed`), so a run of several
files carries the calls of all of them in order.

`ingestFromOrderedPaths_ok` says what the batch returns when every file can be read: the per-file options still carry
`max_rows`, so each file is cut off before the filter, and the batch is filtered and cut off again.
-/
import Mathlib.Tactic
import RustDataProcessing.Ingestion.Watermark

namespace RustDataProcessing.Ingestion

open HighWater (isAbove)

/-! ## Readers and observers -/

/-- a reader of one format, and its promise -/
structure Reader where
  read : String → Schema → IngestionResult DataSet
  conforms : ∀ path schema ds, read path schema = .ok ds → ds.Conforms schema

structure Readers where
  csv : Reader
  json : Reader
  parquet : Reader
  excel : ExcelSheetSelection → Reader
  xml : Reader

structure IngestionContext where
  path : String
  format : IngestionFormat
deriving DecidableEq, Repr

structure IngestionStats where
  rows : ℕ
deriving DecidableEq, Repr

inductive ObserverCall where
  | onSuccess (ctx : IngestionContext) (stats : IngestionStats)
  | onFailure (ctx : IngestionContext) (severity : IngestionSeverity) (e : IngestionError)
  | onAlert (ctx : IngestionContext) (severity : IngestionSeverity) (e : IngestionError)
deriving Repr

/-- a result with the observer calls made on the way to it -/
structure Observed (α : Type) where
  calls : List ObserverCall
  result : IngestionResult α

def Observed.bind {α β : Type} (x : Observed α) (f : α → Observed β) : Observed β :=
  match x.result with
  | .error e => ⟨x.calls, .error e⟩
  | .ok a => ⟨x.calls ++ (f a).calls, (f a).result⟩

instance : Monad Observed where
  pure a := ⟨[], .ok a⟩
  bind := Observed.bind

/-- a result that no observer hears of -/
def quiet {α : Type} (r : IngestionResult α) : Observed α := ⟨[], r⟩

@[simp] theorem result_bind {α β : Type} (x : Observed α) (f : α → Observed β) :
    (x >>= f).result = x.result.bind fun a => (f a).result := by
  change (Observed.bind x f).result = _
  unfold Observed.bind
  cases x.result <;> rfl

@[simp] theorem result_pure {α : Type} (a : α) : (pure a : Observed α).result = .ok a := rfl

@[simp] theorem result_quiet {α : Type} (r : IngestionResult α) : (quiet r).result = r := rfl

/-! ## One file -/

def truncateDatasetRows (ds : DataSet) (max : ℕ) : DataSet :=
  if max = 0 then ds
  else if ds.rowCount > max then ⟨ds.schema, ds.rows.take max⟩ else ds

def applyMaxRows (ds : DataSet) : Option ℕ → DataSet
  | some max => if max > 0 then truncateDatasetRows ds max else ds
  | none => ds

def inferFormatFromPath (path : String) : IngestionResult IngestionFormat :=
  match RustStd.extension path with
  | none => .error (.schemaMismatch s!"cannot infer format: path has no extension ({path})")
  | some ext => match IngestionFormat.fromExtension ext with
    | none => .error (.schemaMismatch s!"cannot infer format from extension '{ext}' for path ({path})")
    | some f => .ok f

def formatFor (path : String) (options : IngestionOptions) : IngestionResult IngestionFormat :=
  match options.format with
  | some f => .ok f
  | none => inferFormatFromPath path

def Readers.reader (R : Readers) (sel : ExcelSheetSelection) : IngestionFormat → Reader
  | .csv => R.csv
  | .json => R.json
  | .parquet => R.parquet
  | .excel => R.excel sel
  | .xml => R.xml

/-- the calls of `ingest_from_path` to a configured observer; a panic makes none -/
def observerCalls (options : IngestionOptions) (ctx : IngestionContext) : IngestionResult DataSet → List ObserverCall
  | .ok ds => if options.observer then [.onSuccess ctx ⟨ds.rowCount⟩] else []
  | .error .panic => []
  | .error (.error e) =>
    let sev := severityForError e
    if options.observer then
      .onFailure ctx sev e :: if options.alertAtOrAbove.rank ≤ sev.rank then [.onAlert ctx sev e] else []
    else []

def ingestFromPath (R : Readers) (path : String) (schema : Schema) (options : IngestionOptions) : Observed DataSet := do
  quiet (validateWatermarkConfig schema options)
  let fmt ← quiet (formatFor path options)
  let result := do
    let ds ← (R.reader options.excelSheetSelection fmt).read path schema
    let ds ← applyWatermarkAfterIngest ds schema options
    pure (applyMaxRows ds options.maxRows)
  ⟨observerCalls options ⟨path, fmt⟩ result, result⟩

/-! ## An ordered list of files -/

def optionsWithoutWatermark (options : IngestionOptions) : IngestionOptions :=
  { options with watermarkColumn := none, watermarkExclusiveAbove := none }

structure OrderedBatchIngestMetadata where
  paths : List String
  lastPath : Option String
  maxWatermarkValue : Option Value
deriving DecidableEq, Repr

/-- the file loop: the rows of all files, in order -/
def ingestAll (R : Readers) (schema : Schema) (options : IngestionOptions) : List String → Observed (List Row)
  | [] => pure []
  | p :: ps => do
    let ds ← ingestFromPath R p schema options
    let rest ← ingestAll R schema options ps
    pure (ds.rows ++ rest)

def ingestFromOrderedPaths (R : Readers) (paths : List String) (schema : Schema) (options : IngestionOptions) :
    Observed (DataSet × OrderedBatchIngestMetadata) := do
  quiet (validateWatermarkConfig schema options)
  if paths = [] then quiet (.error (.schemaMismatch "ingest_from_ordered_paths: empty path list"))
  let allRows ← ingestAll R schema (optionsWithoutWatermark options) paths
  let ds ← quiet (applyWatermarkAfterIngest ⟨schema, allRows⟩ schema options)
  let ds := applyMaxRows ds options.maxRows
  let maxWatermarkValue ← match options.watermarkColumn with
    | some col => quiet (maxValueInColumn ds schema col)
    | none => pure none
  pure (ds, ⟨paths, paths.getLast?, maxWatermarkValue⟩)

/-! ## What they compute -/

/-- the row limit an option stands for: none and zero are no limit -/
def limitRows {α : Type} (maxRows : Option ℕ) (rows : List α) : List α :=
  match maxRows with
  | some max => if max = 0 then rows else rows.take max
  | none => rows

theorem applyMaxRows_eq (ds : DataSet) (maxRows : Option ℕ) :
    applyMaxRows ds maxRows = ⟨ds.schema, limitRows maxRows ds.rows⟩ := by
  unfold applyMaxRows limitRows truncateDatasetRows DataSet.rowCount
  cases maxRows with
  | none => rfl
  | some max =>
    rcases Nat.eq_zero_or_pos max with rfl | hp
    · rfl
    · simp only [hp, hp.ne', if_true, if_false]
      split_ifs with h
      · rfl
      · rw [List.take_of_length_le (not_lt.1 h)]

/-- the file at a path, read in full and on its own -/
def readFile (R : Readers) (schema : Schema) (options : IngestionOptions) (path : String) : IngestionResult DataSet := do
  let fmt ← formatFor path options
  (R.reader options.excelSheetSelection fmt).read path schema

theorem readFile_conforms {R : Readers} {schema : Schema} {options : IngestionOptions} {path : String} {ds : DataSet}
    (h : readFile R schema options path = .ok ds) : ds.Conforms schema := by
  unfold readFile at h
  cases hf : formatFor path options with
  | error e => rw [hf] at h; cases h
  | ok fmt => rw [hf] at h; exact Reader.conforms _ _ _ _ h

theorem limitRows_subset {α : Type} (maxRows : Option ℕ) (rows : List α) : limitRows maxRows rows ⊆ rows := by
  unfold limitRows
  split
  · split_ifs
    · exact List.Subset.refl _
    · exact List.take_subset _ _
  · exact List.Subset.refl _

theorem validate_withoutWatermark (schema : Schema) (options : IngestionOptions) :
    validateWatermarkConfig schema (optionsWithoutWatermark options) = .ok () := rfl

/-- without watermark options, one file is read and cut off at the row limit -/
theorem ingestFromPath_withoutWatermark (R : Readers) (path : String) (schema : Schema) (options : IngestionOptions) :
    (ingestFromPath R path schema (optionsWithoutWatermark options)).result =
      (readFile R schema options path).map fun ds => ⟨ds.schema, limitRows options.maxRows ds.rows⟩ := by
  have hf : formatFor path (optionsWithoutWatermark options) = formatFor path options := rfl
  simp only [ingestFromPath, result_bind, result_quiet, validate_withoutWatermark, hf]
  cases hfmt : formatFor path options with
  | error e =>
    have hr : readFile R schema options path = .error e := by unfold readFile; rw [hfmt]; rfl
    rw [hr]; rfl
  | ok fmt =>
    have hr : readFile R schema options path = (R.reader options.excelSheetSelection fmt).read path schema := by
      unfold readFile; rw [hfmt]; rfl
    rw [hr]
    change ((R.reader options.excelSheetSelection fmt).read path schema).bind _ = _
    cases (R.reader options.excelSheetSelection fmt).read path schema with
    | error e => rfl
    | ok ds => exact congrArg Except.ok (applyMaxRows_eq ds options.maxRows)

/-- the file loop on readable files: each is cut off at the row limit -/
theorem ingestAll_ok {R : Readers} {schema : Schema} {options : IngestionOptions} {paths : List String}
    {files : List DataSet} (h : List.Forall₂ (fun p ds => readFile R schema options p = .ok ds) paths files) :
    (ingestAll R schema (optionsWithoutWatermark options) paths).result =
      .ok ((files.map fun ds => limitRows options.maxRows ds.rows).flatten) := by
  induction h with
  | nil => rfl
  | cons hp _ ih => simp [ingestAll, ingestFromPath_withoutWatermark, hp, ih, Except.bind, Except.map]

/-- is the row's watermark cell above the floor? without watermark options every row is kept -/
def aboveFloor (schema : Schema) (options : IngestionOptions) (row : Row) : Bool :=
  match options.watermarkColumn, options.watermarkExclusiveAbove with
  | some col, some floor =>
    match schema.indexOf col with
    | none => false
    | some idx =>
      match schema.fields[idx]? with
      | none => false
      | some field =>
        match cellKey field.dataType floor with
        | none => false
        | some b => isAbove b (rowKey idx field.dataType row)
  | _, _ => true

/-- what an accepted watermark configuration is: none, or a column of the schema with a floor of its type -/
theorem validate_cases {schema : Schema} {options : IngestionOptions}
    (h : validateWatermarkConfig schema options = .ok ()) :
    (options.watermarkColumn = none ∧ options.watermarkExclusiveAbove = none) ∨
      ∃ col floor idx, ∃ hi : idx < schema.fields.length, ∃ b : WatermarkKey schema.fields[idx].dataType,
        options.watermarkColumn = some col ∧ options.watermarkExclusiveAbove = some floor ∧
        schema.indexOf col = some idx ∧ cellKey schema.fields[idx].dataType floor = some b := by
  unfold validateWatermarkConfig at h
  cases hc : options.watermarkColumn with
  | none =>
    cases hf : options.watermarkExclusiveAbove with
    | none => exact Or.inl ⟨rfl, rfl⟩
    | some floor => rw [hc, hf] at h; cases h
  | some col =>
    cases hf : options.watermarkExclusiveAbove with
    | none => rw [hc, hf] at h; cases h
    | some floor =>
      right
      rw [hc, hf] at h
      simp only at h
      split_ifs at h with hnull
      cases hidx : schema.indexOf col with
      | none => rw [hidx] at h; cases h
      | some idx =>
        obtain ⟨hi, -⟩ := Schema.indexOf_some hidx
        rw [hidx] at h
        simp only [index_fields hi, bind, Except.bind, ensureValueMatchesType] at h
        split_ifs at h with ht
        obtain ⟨b, hb⟩ := Option.isSome_iff_exists.1 ((cellKey_isSome _ floor).trans ht)
        exact ⟨col, floor, idx, hi, b, rfl, rfl, hidx, hb⟩

/-- the batch filter on a conforming dataset -/
theorem applyWatermarkAfterIngest_ok {ds : DataSet} {schema : Schema} (h : ds.Conforms schema)
    {options : IngestionOptions} (hv : validateWatermarkConfig schema options = .ok ()) :
    applyWatermarkAfterIngest ds schema options = .ok ⟨schema, ds.rows.filter (aboveFloor schema options)⟩ := by
  rcases validate_cases hv with ⟨hc, hf⟩ | ⟨col, floor, idx, hi, b, hc, hf, hidx, hb⟩
  · have hall : ds.rows.filter (aboveFloor schema options) = ds.rows :=
      List.filter_eq_self.2 fun row _ => by simp [aboveFloor, hc]
    rw [hall, ← h.schema_eq]
    simp [applyWatermarkAfterIngest, hc, hf]
  · have habove : aboveFloor schema options = fun row => isAbove b (rowKey idx schema.fields[idx].dataType row) := by
      funext row
      simp [aboveFloor, hc, hf, hidx, List.getElem?_eq_getElem hi, hb]
    simp only [applyWatermarkAfterIngest, hc, hf, applyWatermarkFilter_conforms h hidx hi hb, habove]

/-- the batch the code builds: each file cut off, then filtered, then cut off again -/
def cutBatch (schema : Schema) (options : IngestionOptions) (files : List DataSet) : DataSet :=
  ⟨schema, limitRows options.maxRows
    (((files.map fun ds => limitRows options.maxRows ds.rows).flatten).filter (aboveFloor schema options))⟩

theorem files_conform {R : Readers} {schema : Schema} {options : IngestionOptions} {paths : List String}
    {files : List DataSet} (h : List.Forall₂ (fun p ds => readFile R schema options p = .ok ds) paths files) :
    ∀ ds ∈ files, ds.Conforms schema := by
  induction h with
  | nil => simp
  | cons hp _ ih => exact List.forall_mem_cons.2 ⟨readFile_conforms hp, ih⟩

theorem cutBatch_conforms {schema : Schema} (options : IngestionOptions) {files : List DataSet}
    (h : ∀ ds ∈ files, ds.Conforms schema) : (cutBatch schema options files).Conforms schema := by
  refine ⟨rfl, fun row hrow => ?_⟩
  have hmem := List.mem_of_mem_filter (limitRows_subset _ _ hrow)
  obtain ⟨rows, hrows, hr⟩ := List.mem_flatten.1 hmem
  obtain ⟨ds, hds, rfl⟩ := List.mem_map.1 hrows
  exact (h ds hds).rows row (limitRows_subset _ _ hr)

/-- **The batch call on readable files**: the dataset is `cutBatch`, and the maximum is taken over it -/
theorem ingestFromOrderedPaths_ok {R : Readers} {paths : List String} (hne : paths ≠ []) {schema : Schema}
    {options : IngestionOptions} (hv : validateWatermarkConfig schema options = .ok ()) {files : List DataSet}
    (hread : List.Forall₂ (fun p ds => readFile R schema options p = .ok ds) paths files) :
    ∃ best, (match options.watermarkColumn with
        | some col => maxValueInColumn (cutBatch schema options files) schema col
        | none => .ok none) = .ok best ∧
      (ingestFromOrderedPaths R paths schema options).result =
        .ok (cutBatch schema options files, ⟨paths, paths.getLast?, best⟩) := by
  have hconf := files_conform hread
  have hall : DataSet.Conforms ⟨schema, (files.map fun ds => limitRows options.maxRows ds.rows).flatten⟩ schema := by
    refine ⟨rfl, fun row hrow => ?_⟩
    obtain ⟨rows, hrows, hr⟩ := List.mem_flatten.1 hrow
    obtain ⟨ds, hds, rfl⟩ := List.mem_map.1 hrows
    exact (hconf ds hds).rows row (limitRows_subset _ _ hr)
  have hmax := maxValueInColumn_total (cutBatch_conforms options hconf)
  simp only [ingestFromOrderedPaths, hne, if_false, result_bind, result_quiet, hv, Except.bind,
    ingestAll_ok hread, applyWatermarkAfterIngest_ok hall hv, applyMaxRows_eq]
  cases hc : options.watermarkColumn with
  | none => exact ⟨none, rfl, rfl⟩
  | some col =>
    obtain ⟨best, hbest⟩ := hmax col
    refine ⟨best, hbest, ?_⟩
    simp only [result_bind, result_quiet, result_pure]
    change (maxValueInColumn (cutBatch schema options files) schema col).bind _ = _
    rw [hbest]
    rfl

end RustDataProcessing.Ingestion
