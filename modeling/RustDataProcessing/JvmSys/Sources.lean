/-
The sources of a pipeline (`ingest_pipeline_sources` in `bindings/jvm-sys/src/pipeline_run.rs`): local files, object
stores, file servers and database queries, merged into one dataset.

Each source comes filtered by the watermark; the local files and each remote file also come limited to `max_rows`, a
query does not. The merge filters once more, which changes nothing, sets no limit of its own, and refuses to return no
rows.

- `ingestPipelineSources_eq`: what the merge of readable sources returns.
- `sources_merged_iff`: it is the specification `orderedBatch` exactly when some row is above the floor and the limits of
  the single sources together do what one limit would (`LimitsHarmless`).
-/
import Mathlib.Tactic
import RustDataProcessing.Ingestion.Db
import RustDataProcessing.Ingestion.OrderedBatch
import RustDataProcessing.Ingestion.Remote

namespace RustDataProcessing.JvmSys

open Ingestion

structure DbReadSpec where
  url : String
  query : String
deriving DecidableEq, Repr

/-- what the sources are read with; no connectorx when the feature is not built -/
structure Connectors where
  readers : Readers
  objectStore : Remote
  fileTransfer : Remote
  connectorx : Option Connectorx

/-- a structured error, followed by the text of its cause -/
inductive PipelineFault where
  | structured (code message stage : String) (cause : Option IngestionError)
  | panic
deriving Repr

def PipelineFault.ingest (code message : String) : Fault → PipelineFault
  | .error e => .structured code message "ingest" (some e)
  | .panic => .panic

abbrev PipelineResult (α : Type) := Except PipelineFault α

/-- the report of one source that was read; a database has no scheme -/
structure SourceResult where
  uri : String
  scheme : Option String
  rowCount : ℕ
deriving DecidableEq, Repr

structure PipelineSources where
  dataset : DataSet
  metadata : OrderedBatchIngestMetadata
  objectStore : List SourceResult
  fileTransfer : List SourceResult
  db : List SourceResult
deriving DecidableEq, Repr

/-! ## The source -/

def objectStoreScheme (p : String) : String :=
  let lower := (RustStd.toAsciiLowercase p).toList
  if "s3://".toList.isPrefixOf lower then "s3"
  else if "gs://".toList.isPrefixOf lower ∨ "gcs://".toList.isPrefixOf lower then "gcs"
  else if "abfss://".toList.isPrefixOf lower ∨ "abfs://".toList.isPrefixOf lower then "abfs"
  else if "azure://".toList.isPrefixOf lower ∨ "az://".toList.isPrefixOf lower then "azure"
  else if "file://".toList.isPrefixOf lower then "file"
  else "http"

/-- a loop over sources of one kind: the first that fails ends the call -/
def ingestEach {α : Type} (code : String) (describe : α → String) (report : α → ℕ → SourceResult)
    (ingest : α → IngestionResult DataSet) : List α → PipelineResult (List SourceResult × List Row)
  | [] => .ok ([], [])
  | x :: xs => do
    let ds ← (ingest x).mapError (PipelineFault.ingest code (describe x))
    let (results, rows) ← ingestEach code describe report ingest xs
    pure (report x ds.rowCount :: results, ds.rows ++ rows)

def ingestObjectStoreUris (C : Connectors) (uris : List String) (schema : Schema) (opts : IngestionOptions) :
    PipelineResult (List SourceResult × List Row) :=
  ingestEach "OBJECT_STORE_SOURCE_FAILED" (fun uri => s!"ingest `{uri}`: ")
    (fun uri n => ⟨uri, some (objectStoreScheme uri), n⟩)
    (fun uri => ingestFromObjectStoreUri C.readers C.objectStore uri schema opts) uris

def ingestFileTransferUris (C : Connectors) (uris : List String) (schema : Schema) (opts : IngestionOptions) :
    PipelineResult (List SourceResult × List Row) :=
  ingestEach "FILE_TRANSFER_SOURCE_FAILED" (fun uri => s!"ingest `{uri}`: ")
    (fun uri n => ⟨uri, some ((fileTransferScheme uri).getD "file_transfer"), n⟩)
    (fun uri => ingestFromFileTransferUri C.readers C.fileTransfer uri schema opts) uris

def ingestDbReads (C : Connectors) (dbReads : List DbReadSpec) (schema : Schema) (opts : IngestionOptions) :
    PipelineResult (List SourceResult × List Row) :=
  if dbReads = [] then .ok ([], [])
  else match C.connectorx with
    | none => .error (.structured "DB_CONNECTORX_NOT_BUILT"
        "sources.db_reads requires rdp_jvm_sys built with --features db_connectorx (or full)" "ingest" none)
    | some cx => ingestEach "DB_SOURCE_FAILED" (fun db => s!"ingest db `{db.url}`: ")
        (fun db n => ⟨db.url, none, n⟩) (fun db => ingestFromDb cx db.url db.query schema opts) dbReads

def ingestLocalPaths (C : Connectors) (localPaths : List String) (schema : Schema) (opts : IngestionOptions) :
    PipelineResult (List Row × OrderedBatchIngestMetadata) :=
  if localPaths = [] then .ok ([], ⟨[], none, none⟩)
  else do
    let (ds, metadata) ← (ingestFromOrderedPaths C.readers localPaths schema opts).result.mapError
      (PipelineFault.ingest "INGEST_FAILED" "ingest_from_ordered_paths: ")
    pure (ds.rows, metadata)

/-- the end of `ingest_pipeline_sources`, from the rows of all sources -/
def finishSources (schema : Schema) (opts : IngestionOptions) (allRows : List Row)
    (batchMeta : OrderedBatchIngestMetadata) (objectStore fileTransfer db : List SourceResult) :
    PipelineResult PipelineSources :=
  if allRows = [] then .error (.structured "ORCHESTRATION_VALIDATION"
    "no rows ingested: provide sources.paths, sources.object_store_uris, sources.file_transfer_uris, and/or sources.db_reads"
    "ingest" none)
  else do
    let ingested ← (applyWatermarkAfterIngest ⟨schema, allRows⟩ schema opts).mapError
      (PipelineFault.ingest "INGEST_FAILED" "watermark: ")
    let maxWatermarkValue ← match opts.watermarkColumn with
      | some col => (maxValueInColumn ingested schema col).mapError fun _ => .panic
      | none => pure batchMeta.maxWatermarkValue
    pure ⟨ingested, { batchMeta with maxWatermarkValue := maxWatermarkValue }, objectStore, fileTransfer, db⟩

def ingestPipelineSources (C : Connectors) (localPaths objectStoreUris fileTransferUris : List String)
    (dbReads : List DbReadSpec) (schema : Schema) (opts : IngestionOptions) : PipelineResult PipelineSources := do
  let (localRows, batchMeta) ← ingestLocalPaths C localPaths schema opts
  let (objectStore, objectRows) ← ingestObjectStoreUris C objectStoreUris schema opts
  let (fileTransfer, transferRows) ← ingestFileTransferUris C fileTransferUris schema opts
  let (db, dbRows) ← ingestDbReads C dbReads schema opts
  finishSources schema opts (localRows ++ objectRows ++ transferRows ++ dbRows) batchMeta objectStore fileTransfer db

/-! ## Readable sources -/

/-- every source can be read in full: the watermark options are accepted, and the file or query returns a dataset -/
structure SourcesLoad (C : Connectors) (localPaths objectStoreUris fileTransferUris : List String)
    (dbReads : List DbReadSpec) (schema : Schema) (opts : IngestionOptions)
    (files objects transfers queries : List DataSet) : Prop where
  localPaths : List.Forall₂ (fun p ds => validateWatermarkConfig schema opts = .ok () ∧
    readFile C.readers schema opts p = .ok ds) localPaths files
  objectStore : List.Forall₂ (fun uri ds => validateWatermarkConfig schema opts = .ok () ∧
    readRemote C.readers C.objectStore "object path" "excel ingest from object store is not supported" uri schema opts =
      .ok ds) objectStoreUris objects
  fileTransfer : List.Forall₂ (fun uri ds => validateWatermarkConfig schema opts = .ok () ∧
    (fileTransferScheme uri).isSome ∧ readRemote C.readers C.fileTransfer "remote path"
      "excel ingest from file-transfer URIs is not supported" uri schema opts = .ok ds) fileTransferUris transfers
  dbReads : List.Forall₂ (fun db ds => validateWatermarkConfig schema opts = .ok () ∧
    ∃ cx ∈ C.connectorx, ∃ batches, cx.run db.url db.query = .ok batches ∧
      Db.recordBatchesToDataset cx.arrow batches schema = .ok ds) dbReads queries

/-- the rows the code merges: files cut off twice, remote files once, queries not at all -/
def mergedRows (schema : Schema) (opts : IngestionOptions) (files remotes queries : List DataSet) : List Row :=
  (cutBatch schema opts files).rows ++
    (remotes.map fun ds => limitRows opts.maxRows (ds.rows.filter (aboveFloor schema opts))).flatten ++
    (queries.map fun ds => ds.rows.filter (aboveFloor schema opts)).flatten

theorem ingestEach_ok {α : Type} {code : String} {describe : α → String} {report : α → ℕ → SourceResult}
    {ingest : α → IngestionResult DataSet} {rowsOf : DataSet → List Row} {schema : Schema} {xs : List α}
    {loaded : List DataSet}
    (h : List.Forall₂ (fun x ds => ingest x = .ok ⟨schema, rowsOf ds⟩) xs loaded) :
    ∃ results, ingestEach code describe report ingest xs = .ok (results, (loaded.map rowsOf).flatten) := by
  induction h with
  | nil => exact ⟨[], rfl⟩
  | cons hx _ ih =>
    obtain ⟨results, hrest⟩ := ih
    unfold ingestEach
    rw [hx, hrest]
    exact ⟨_, rfl⟩

theorem ingestLocalPaths_ok {C : Connectors} {localPaths : List String} {schema : Schema} {opts : IngestionOptions}
    (hv : validateWatermarkConfig schema opts = .ok ()) {files : List DataSet}
    (h : List.Forall₂ (fun p ds => readFile C.readers schema opts p = .ok ds) localPaths files) :
    ∃ metadata, ingestLocalPaths C localPaths schema opts = .ok ((cutBatch schema opts files).rows, metadata) ∧
      (opts.watermarkColumn = none → metadata.maxWatermarkValue = none) := by
  unfold ingestLocalPaths
  split_ifs with hnil
  · subst hnil
    obtain rfl := (List.forall₂_nil_left_iff.1 h)
    have hrows : (cutBatch schema opts []).rows = [] := by
      have := limitRows_subset opts.maxRows ([] : List Row)
      simpa [cutBatch] using this
    exact ⟨_, by rw [hrows], fun _ => rfl⟩
  · obtain ⟨best, hbest, hres⟩ := ingestFromOrderedPaths_ok hnil hv h
    refine ⟨_, by rw [hres]; rfl, fun hnone => ?_⟩
    rw [hnone] at hbest
    exact (Except.ok.inj hbest).symm

theorem ingestFromDb_ok {cx : Connectorx} {url query : String} {schema : Schema} {opts : IngestionOptions}
    (hv : validateWatermarkConfig schema opts = .ok ()) {batches : List Arrow.RecordBatch} {ds : DataSet}
    (hrun : cx.run url query = .ok batches) (hds : Db.recordBatchesToDataset cx.arrow batches schema = .ok ds) :
    ingestFromDb cx url query schema opts = .ok ⟨schema, ds.rows.filter (aboveFloor schema opts)⟩ := by
  unfold ingestFromDb
  rw [hv, hrun]
  change (Db.recordBatchesToDataset cx.arrow batches schema).bind _ = _
  rw [hds]
  exact applyWatermarkAfterIngest_ok (Db.recordBatchesToDataset_conforms hds) hv

theorem ingestDbReads_ok {C : Connectors} {dbReads : List DbReadSpec} {schema : Schema} {opts : IngestionOptions}
    {queries : List DataSet} (h : List.Forall₂ (fun db ds => validateWatermarkConfig schema opts = .ok () ∧
      ∃ cx ∈ C.connectorx, ∃ batches, cx.run db.url db.query = .ok batches ∧
        Db.recordBatchesToDataset cx.arrow batches schema = .ok ds) dbReads queries) :
    ∃ results, ingestDbReads C dbReads schema opts =
      .ok (results, (queries.map fun ds => ds.rows.filter (aboveFloor schema opts)).flatten) := by
  unfold ingestDbReads
  split_ifs with hnil
  · subst hnil
    obtain rfl := List.forall₂_nil_left_iff.1 h
    exact ⟨[], rfl⟩
  · cases hcx : C.connectorx with
    | none =>
      cases h with
      | nil => exact absurd rfl hnil
      | cons hdb _ =>
        obtain ⟨-, cx, hmem, -⟩ := hdb
        rw [hcx] at hmem
        cases hmem
    | some cx =>
      refine @ingestEach_ok _ _ _ _ _ _ schema _ _ (List.Forall₂.imp (fun db ds hdb => ?_) h)
      obtain ⟨hv, cx', hmem, batches, hrun, hds⟩ := hdb
      rw [hcx] at hmem
      obtain rfl := Option.some.inj hmem
      exact ingestFromDb_ok hv hrun hds

section Load

variable {C : Connectors} {localPaths objectStoreUris fileTransferUris : List String} {dbReads : List DbReadSpec}
  {schema : Schema} {opts : IngestionOptions} {files objects transfers queries : List DataSet}

theorem conforms_of_forall₂ {α : Type} {P : α → DataSet → Prop} {xs : List α} {loaded : List DataSet}
    (h : List.Forall₂ P xs loaded) (hP : ∀ x ds, P x ds → ds.Conforms schema) : ∀ ds ∈ loaded, ds.Conforms schema := by
  intro ds hds
  obtain ⟨x, -, hx⟩ := Traverse.exists_of_mem h.flip hds
  exact hP x ds hx

theorem SourcesLoad.conform (h : SourcesLoad C localPaths objectStoreUris fileTransferUris dbReads schema opts files
    objects transfers queries) : ∀ ds ∈ files ++ (objects ++ transfers) ++ queries, ds.Conforms schema := by
  simp only [List.forall_mem_append]
  refine ⟨⟨?_, ?_, ?_⟩, ?_⟩
  · exact conforms_of_forall₂ h.localPaths fun _ _ hx => readFile_conforms hx.2
  · exact conforms_of_forall₂ h.objectStore fun _ _ hx => readRemote_conforms hx.2
  · exact conforms_of_forall₂ h.fileTransfer fun _ _ hx => readRemote_conforms hx.2.2
  · refine conforms_of_forall₂ h.dbReads fun _ _ hx => ?_
    obtain ⟨-, cx, -, batches, -, hds⟩ := hx
    exact Db.recordBatchesToDataset_conforms hds

/-- every merged row is a row of a source, above the floor -/
theorem mergedRows_mem {remotes : List DataSet} {row : Row} (h : row ∈ mergedRows schema opts files remotes queries) :
    (∃ ds ∈ files ++ remotes ++ queries, row ∈ ds.rows) ∧ aboveFloor schema opts row = true := by
  unfold mergedRows at h
  simp only [List.mem_append, List.mem_flatten, List.mem_map] at h
  rcases h with (h | ⟨l, ⟨ds, hds, rfl⟩, h⟩) | ⟨l, ⟨ds, hds, rfl⟩, h⟩
  · have hrow := limitRows_subset _ _ h
    obtain ⟨l, hl, hmem⟩ := List.mem_flatten.1 (List.mem_of_mem_filter hrow)
    obtain ⟨ds, hds, rfl⟩ := List.mem_map.1 hl
    exact ⟨⟨ds, by simp [hds], limitRows_subset _ _ hmem⟩, (List.mem_filter.1 hrow).2⟩
  · have hrow := limitRows_subset _ _ h
    exact ⟨⟨ds, by simp [hds], List.mem_of_mem_filter hrow⟩, (List.mem_filter.1 hrow).2⟩
  · exact ⟨⟨ds, by simp [hds], List.mem_of_mem_filter h⟩, (List.mem_filter.1 h).2⟩

/-- without a valid configuration no source loads -/
theorem SourcesLoad.none_of_invalid (h : SourcesLoad C localPaths objectStoreUris fileTransferUris dbReads schema opts
    files objects transfers queries) (hv : validateWatermarkConfig schema opts ≠ .ok ()) :
    (localPaths = [] ∧ objectStoreUris = [] ∧ fileTransferUris = [] ∧ dbReads = []) ∧
      files = [] ∧ objects = [] ∧ transfers = [] ∧ queries = [] := by
  obtain ⟨h₁, h₂, h₃, h₄⟩ := h
  cases h₁ with
  | cons hx _ => exact absurd hx.1 hv
  | nil =>
    cases h₂ with
    | cons hx _ => exact absurd hx.1 hv
    | nil =>
      cases h₃ with
      | cons hx _ => exact absurd hx.1 hv
      | nil =>
        cases h₄ with
        | cons hx _ => exact absurd hx.1 hv
        | nil => simp

theorem SourcesLoad.objectStore_ok (h : SourcesLoad C localPaths objectStoreUris fileTransferUris dbReads schema opts files
    objects transfers queries) (hv : validateWatermarkConfig schema opts = .ok ()) :
    ∃ results, ingestObjectStoreUris C objectStoreUris schema opts = .ok (results,
      (objects.map fun ds => limitRows opts.maxRows (ds.rows.filter (aboveFloor schema opts))).flatten) :=
  ingestEach_ok (h.objectStore.imp fun _ _ hx => ingestRemote_ok hv hx.2)

theorem SourcesLoad.fileTransfer_ok (h : SourcesLoad C localPaths objectStoreUris fileTransferUris dbReads schema opts files
    objects transfers queries) (hv : validateWatermarkConfig schema opts = .ok ()) :
    ∃ results, ingestFileTransferUris C fileTransferUris schema opts = .ok (results,
      (transfers.map fun ds => limitRows opts.maxRows (ds.rows.filter (aboveFloor schema opts))).flatten) := by
  refine @ingestEach_ok _ _ _ _ _ _ schema _ _ (h.fileTransfer.imp fun uri ds hx => ?_)
  obtain ⟨scheme, hscheme⟩ := Option.isSome_iff_exists.1 hx.2.1
  unfold ingestFromFileTransferUri
  rw [hscheme]
  exact ingestRemote_ok hv hx.2.2

/-- the end of the call keeps rows that are above the floor already -/
theorem finishSources_ok {rows : List Row} (hv : validateWatermarkConfig schema opts = .ok ()) (hne : rows ≠ [])
    (hconf : ∀ row ∈ rows, Row.Conforms row schema) (habove : ∀ row ∈ rows, aboveFloor schema opts row = true)
    {batchMeta : OrderedBatchIngestMetadata} (hnomax : opts.watermarkColumn = none → batchMeta.maxWatermarkValue = none)
    (objectStore fileTransfer db : List SourceResult) :
    ∃ r, finishSources schema opts rows batchMeta objectStore fileTransfer db = .ok r ∧ r.dataset = ⟨schema, rows⟩ ∧
      (match opts.watermarkColumn with
        | some col => maxValueInColumn r.dataset schema col
        | none => .ok none) = .ok r.metadata.maxWatermarkValue := by
  have hds : DataSet.Conforms ⟨schema, rows⟩ schema := ⟨rfl, hconf⟩
  have hkept : applyWatermarkAfterIngest ⟨schema, rows⟩ schema opts = .ok ⟨schema, rows⟩ := by
    rw [applyWatermarkAfterIngest_ok hds hv, List.filter_eq_self.2 habove]
  unfold finishSources
  rw [if_neg hne, hkept]
  cases hcol : opts.watermarkColumn with
  | none =>
    refine ⟨_, rfl, rfl, ?_⟩
    dsimp only
    rw [hnomax hcol]
  | some col =>
    obtain ⟨best, hbest⟩ := maxValueInColumn_total hds col
    refine ⟨⟨⟨schema, rows⟩, { batchMeta with maxWatermarkValue := best }, objectStore, fileTransfer, db⟩, ?_, rfl, hbest⟩
    change ((maxValueInColumn ⟨schema, rows⟩ schema col).mapError _ >>= _) = _
    rw [hbest]
    rfl

/-- **What the merge returns**: the merged rows and their maximum, or an error when there are none -/
theorem ingestPipelineSources_eq (h : SourcesLoad C localPaths objectStoreUris fileTransferUris dbReads schema opts files
    objects transfers queries) :
    if mergedRows schema opts files (objects ++ transfers) queries = [] then
      ∃ e, ingestPipelineSources C localPaths objectStoreUris fileTransferUris dbReads schema opts = .error e
    else ∃ r, ingestPipelineSources C localPaths objectStoreUris fileTransferUris dbReads schema opts = .ok r ∧
      r.dataset = ⟨schema, mergedRows schema opts files (objects ++ transfers) queries⟩ ∧
      (match opts.watermarkColumn with
        | some col => maxValueInColumn r.dataset schema col
        | none => .ok none) = .ok r.metadata.maxWatermarkValue := by
  by_cases hv : validateWatermarkConfig schema opts = .ok ()
  · obtain ⟨metadata, hlocal, hnomax⟩ := ingestLocalPaths_ok hv (h.localPaths.imp fun _ _ hx => hx.2)
    obtain ⟨objectStore, hobjects⟩ := h.objectStore_ok hv
    obtain ⟨fileTransfer, htransfers⟩ := h.fileTransfer_ok hv
    obtain ⟨db, hdb⟩ := ingestDbReads_ok h.dbReads
    have hrows : (cutBatch schema opts files).rows ++
        (objects.map fun ds => limitRows opts.maxRows (ds.rows.filter (aboveFloor schema opts))).flatten ++
        (transfers.map fun ds => limitRows opts.maxRows (ds.rows.filter (aboveFloor schema opts))).flatten ++
        (queries.map fun ds => ds.rows.filter (aboveFloor schema opts)).flatten =
        mergedRows schema opts files (objects ++ transfers) queries := by
      simp [mergedRows]
    have hend : ingestPipelineSources C localPaths objectStoreUris fileTransferUris dbReads schema opts =
        finishSources schema opts (mergedRows schema opts files (objects ++ transfers) queries) metadata objectStore
          fileTransfer db := by
      unfold ingestPipelineSources
      rw [hlocal, hobjects, htransfers, hdb, ← hrows]
      rfl
    split_ifs with hnil
    · exact ⟨_, by rw [hend, hnil]; rfl⟩
    · rw [hend]
      refine finishSources_ok hv hnil (fun row hrow => ?_) (fun row hrow => (mergedRows_mem hrow).2) hnomax _ _ _
      obtain ⟨⟨ds, hds, hmem⟩, -⟩ := mergedRows_mem hrow
      exact (h.conform ds hds).rows row hmem
  · obtain ⟨⟨rfl, rfl, rfl, rfl⟩, rfl, rfl, rfl, rfl⟩ := h.none_of_invalid hv
    have hrows : mergedRows schema opts [] ([] ++ []) [] = [] := by
      refine List.eq_nil_iff_forall_not_mem.2 fun row hrow => ?_
      obtain ⟨⟨ds, hds, -⟩, -⟩ := mergedRows_mem hrow
      simp at hds
    rw [if_pos hrows]
    exact ⟨_, rfl⟩

end Load

/-! ## The limits of the single sources -/

section Limits

variable (schema : Schema) (opts : IngestionOptions) (max : ℕ) (files remotes queries : List DataSet)

/-- the rows above the floor in source order, each with whether the limits of its source let it through -/
def sourceMarks : List (Row × Bool) :=
  CutOff.capped max (CutOff.marked (aboveFloor schema opts) max (files.map DataSet.rows)) ++
    (remotes.flatMap fun ds => CutOff.capped max ((ds.rows.filter (aboveFloor schema opts)).map (·, true))) ++
    queries.flatMap fun ds => (ds.rows.filter (aboveFloor schema opts)).map (·, true)

/-- how many rows they let through -/
def rowsThrough : ℕ :=
  min max ((files.map fun ds => ds.rows.take max).flatten.countP (aboveFloor schema opts)) +
    (remotes.map fun ds => min max (ds.rows.countP (aboveFloor schema opts))).sum +
    (queries.map fun ds => ds.rows.countP (aboveFloor schema opts)).sum

/-- there is no limit, or no more rows get through than one limit allows and none of the wanted ones is lost -/
def LimitsHarmless : Prop :=
  match opts.maxRows with
  | none => True
  | some max => max = 0 ∨ rowsThrough schema opts max files remotes queries ≤ max ∧
      (CutOff.AllThrough max (sourceMarks schema opts max files remotes queries) ∨
        CutOff.FilledUp max (sourceMarks schema opts max files remotes queries))

theorem sourceMarks_fst : (sourceMarks schema opts max files remotes queries).map Prod.fst =
    ((files ++ remotes ++ queries).map DataSet.rows).flatten.filter (aboveFloor schema opts) := by
  unfold sourceMarks
  simp only [List.map_append, CutOff.capped_fst, CutOff.marked_fst, List.flatten_append, List.filter_append,
    List.map_map, List.filter_flatten, List.flatMap_def]
  simp [Function.comp_def, CutOff.capped_fst]

theorem sourceMarks_through (hmax : max ≠ 0) (hopts : opts.maxRows = some max) :
    CutOff.through (sourceMarks schema opts max files remotes queries) =
      mergedRows schema opts files remotes queries := by
  unfold sourceMarks mergedRows cutBatch limitRows
  rw [hopts, CutOff.through_append, CutOff.through_append, CutOff.through_flatMap, CutOff.through_flatMap]
  simp only [CutOff.through_capped, CutOff.through_all, if_neg hmax]
  rw [CutOff.through, CutOff.marked_through, List.map_map]
  rfl

theorem sourceMarks_length : (CutOff.through (sourceMarks schema opts max files remotes queries)).length =
    rowsThrough schema opts max files remotes queries := by
  unfold sourceMarks rowsThrough
  rw [CutOff.through_append, CutOff.through_append, CutOff.through_flatMap, CutOff.through_flatMap]
  simp only [CutOff.through_capped, CutOff.through_all, List.length_append, List.length_take, List.length_flatten,
    List.map_map]
  rw [CutOff.through, CutOff.marked_through, List.map_map, ← List.countP_eq_length_filter]
  simp [Function.comp_def, List.countP_eq_length_filter]

/-- without a limit everything above the floor is merged -/
theorem mergedRows_unlimited (h : ∀ rows : List Row, limitRows opts.maxRows rows = rows) :
    mergedRows schema opts files remotes queries =
      (orderedBatch schema opts (files ++ remotes ++ queries)).rows := by
  unfold mergedRows cutBatch orderedBatch
  simp only [h, List.map_append, List.flatten_append, List.filter_append, List.filter_flatten, List.map_map]
  rfl

theorem mergedRows_eq_iff : mergedRows schema opts files remotes queries =
    (orderedBatch schema opts (files ++ remotes ++ queries)).rows ↔
      LimitsHarmless schema opts files remotes queries := by
  unfold LimitsHarmless
  cases hopts : opts.maxRows with
  | none => simp [mergedRows_unlimited schema opts files remotes queries fun rows => by rw [hopts]; rfl]
  | some max =>
    rcases Nat.eq_zero_or_pos max with rfl | hpos
    · simp [mergedRows_unlimited schema opts files remotes queries fun rows => by rw [hopts]; rfl]
    · have hne := hpos.ne'
      have hspec : (orderedBatch schema opts (files ++ remotes ++ queries)).rows =
          ((sourceMarks schema opts max files remotes queries).map Prod.fst).take max := by
        rw [sourceMarks_fst, orderedBatch, hopts, limitRows, if_neg hne]
      rw [hspec, ← sourceMarks_through schema opts max files remotes queries hne hopts, CutOff.through_eq_take_iff,
        sourceMarks_length]
      simp [hne]

end Limits

/-! ## The merge and its specification -/

/-- the merge returns the rows above the floor of all sources in order, as many as the limit allows, and their maximum -/
def MergedAsSpecified (C : Connectors) (localPaths objectStoreUris fileTransferUris : List String)
    (dbReads : List DbReadSpec) (schema : Schema) (opts : IngestionOptions) (loaded : List DataSet) : Prop :=
  ∃ r, ingestPipelineSources C localPaths objectStoreUris fileTransferUris dbReads schema opts = .ok r ∧
    r.dataset = orderedBatch schema opts loaded ∧
    (match opts.watermarkColumn with
      | some col => maxValueInColumn (orderedBatch schema opts loaded) schema col
      | none => .ok none) = .ok r.metadata.maxWatermarkValue

theorem limitRows_eq_nil {α : Type} {maxRows : Option ℕ} {rows : List α} (h : limitRows maxRows rows = []) : rows = [] := by
  unfold limitRows at h
  split at h
  · split_ifs at h with hmax
    · exact h
    · exact (List.take_eq_nil_iff.1 h).resolve_left hmax
  · exact h

/-- **The merge meets its specification** exactly when some row is above the floor and the limits of the single sources
do what one limit would -/
theorem sources_merged_iff {C : Connectors} {localPaths objectStoreUris fileTransferUris : List String}
    {dbReads : List DbReadSpec} {schema : Schema} {opts : IngestionOptions}
    {files objects transfers queries : List DataSet}
    (h : SourcesLoad C localPaths objectStoreUris fileTransferUris dbReads schema opts files objects transfers queries) :
    MergedAsSpecified C localPaths objectStoreUris fileTransferUris dbReads schema opts
        (files ++ (objects ++ transfers) ++ queries) ↔
      (∃ ds ∈ files ++ (objects ++ transfers) ++ queries, ∃ row ∈ ds.rows, aboveFloor schema opts row = true) ∧
        LimitsHarmless schema opts files (objects ++ transfers) queries := by
  have hres := ingestPipelineSources_eq h
  rw [← mergedRows_eq_iff]
  split_ifs at hres with hnil
  · obtain ⟨e, he⟩ := hres
    constructor
    · rintro ⟨r, hr, -⟩
      rw [he] at hr
      cases hr
    · rintro ⟨⟨ds, hds, row, hrow, habove⟩, heq⟩
      have hnone := limitRows_eq_nil (heq.symm.trans hnil)
      have hmem : row ∈ (List.map DataSet.rows (files ++ (objects ++ transfers) ++ queries)).flatten :=
        List.mem_flatten.2 ⟨ds.rows, List.mem_map.2 ⟨ds, hds, rfl⟩, hrow⟩
      have hkept := List.mem_filter.2 ⟨hmem, habove⟩
      rw [hnone] at hkept
      cases hkept
  · obtain ⟨r, hr, hds, hmax⟩ := hres
    constructor
    · rintro ⟨r', hr', hspec, -⟩
      obtain rfl := Except.ok.inj (hr.symm.trans hr')
      obtain ⟨row, hrow⟩ := List.exists_mem_of_ne_nil _ hnil
      obtain ⟨⟨ds, hmem, hrow⟩, habove⟩ := mergedRows_mem hrow
      exact ⟨⟨ds, hmem, row, hrow, habove⟩, congrArg DataSet.rows (hds.symm.trans hspec)⟩
    · rintro ⟨-, heq⟩
      have hspec : r.dataset = orderedBatch schema opts (files ++ (objects ++ transfers) ++ queries) := by
        rw [hds, heq]
        rfl
      exact ⟨r, hr, hspec, by rw [← hspec]; exact hmax⟩

/-- sources over files held in memory -/
def memorySources (disk : List (String × List Row)) : Connectors :=
  ⟨memoryReaders disk, ⟨.ok, fun uri _ => .ok uri⟩, ⟨.ok, fun uri _ => .ok uri⟩, none⟩

/-- a local file with a row below the floor and one above it, an object with one more, and a limit of two -/
theorem two_sources_merged :
    MergedAsSpecified (memorySources [("a.csv", [event 1, event 11]), ("s3://b/b.csv", [event 12])]) ["a.csv"]
      ["s3://b/b.csv"] [] [] eventSchema eventOptions [⟨eventSchema, [event 1, event 11]⟩, ⟨eventSchema, [event 12]⟩] :=
  (sources_merged_iff ⟨.cons ⟨rfl, by rfl⟩ .nil, .cons ⟨rfl, by rfl⟩ .nil, .nil, .nil⟩).2
    ⟨⟨_, List.mem_cons_self, event 11, by decide, by decide⟩, Or.inr ⟨by decide, Or.inl (by decide)⟩⟩

/-- **One row from each of two objects under a limit of one**, and a local file without news: all sources load, and two
rows come back, or an error -/
theorem limit_held_per_source :
    (SourcesLoad (memorySources [("s3://b/a.csv", [event 11]), ("s3://b/b.csv", [event 12])]) []
        ["s3://b/a.csv", "s3://b/b.csv"] [] [] eventSchema { maxRows := some 1 } []
        [⟨eventSchema, [event 11]⟩, ⟨eventSchema, [event 12]⟩] [] [] ∧
      ¬MergedAsSpecified (memorySources [("s3://b/a.csv", [event 11]), ("s3://b/b.csv", [event 12])]) []
        ["s3://b/a.csv", "s3://b/b.csv"] [] [] eventSchema { maxRows := some 1 }
        [⟨eventSchema, [event 11]⟩, ⟨eventSchema, [event 12]⟩]) ∧
    SourcesLoad (memorySources [("a.csv", [event 5])]) ["a.csv"] [] [] [] eventSchema eventOptions
        [⟨eventSchema, [event 5]⟩] [] [] [] ∧
      ¬MergedAsSpecified (memorySources [("a.csv", [event 5])]) ["a.csv"] [] [] [] eventSchema eventOptions
        [⟨eventSchema, [event 5]⟩] := by
  refine ⟨⟨⟨.nil, .cons ⟨rfl, by rfl⟩ (.cons ⟨rfl, by rfl⟩ .nil), .nil, .nil⟩, ?_⟩,
    ⟨.cons ⟨rfl, by rfl⟩ .nil, .nil, .nil, .nil⟩, ?_⟩
  · rintro ⟨r, hr, hspec, -⟩
    have hcode : (ingestPipelineSources (memorySources [("s3://b/a.csv", [event 11]), ("s3://b/b.csv", [event 12])]) []
        ["s3://b/a.csv", "s3://b/b.csv"] [] [] eventSchema { maxRows := some 1 }).toOption.map (·.dataset.rows) =
        some [event 11, event 12] := by decide +kernel
    rw [hr] at hcode
    have hrows : r.dataset.rows = [event 11, event 12] := Option.some.inj hcode
    rw [hspec] at hrows
    exact absurd hrows (by decide)
  · rintro ⟨r, hr, -⟩
    have hcode : (ingestPipelineSources (memorySources [("a.csv", [event 5])]) ["a.csv"] [] [] [] eventSchema
        eventOptions).toOption.isNone := by decide +kernel
    rw [hr] at hcode
    cases hcode

end RustDataProcessing.JvmSys
