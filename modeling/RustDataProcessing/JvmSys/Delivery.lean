/-
What the sinks of a pipeline document receive (`run_pipeline_impl` in `bindings/jvm-sys/src/pipeline_run.rs`).

Between the sources and the sinks the rows pass through a frame of the engine, and back for each sink. `directRun` is the
same run without the engine: the ingested dataset is handed to each sink.

- `ingestion_succeeds_iff`: the ingestion succeeds exactly when every source can be read in full and a row is left.
- `run_is_direct`: without queries, a run is the direct run, on every payload and in every world: no cell is changed on the
  way to a sink.
- `loaded_again_and_again`: what a table of PostgreSQL holds after any number of successful runs of one document: the rows
  that each run found in its sources, or only those of the last run when it is truncated before each load. The sources may
  change between the runs, and a document may read the table that it loads.
-/
import Mathlib.Tactic
import RustDataProcessing.JvmSys.RunEffects

namespace RustDataProcessing.JvmSys

open Ingestion
open Attempt (Steps)
open Pipeline (DataFrame)

/-! ## Sources that were ingested -/

theorem ingestEach_loaded {α : Type} {code : String} {describe : α → String} {result : α → ℕ → SourceResult}
    {ingest : α → IngestionResult DataSet} {xs : List α} {out : List SourceResult × List Row}
    (h : ingestEach code describe result ingest xs = .ok out) : ∀ x ∈ xs, ∃ ds, ingest x = .ok ds := by
  induction xs generalizing out with
  | nil => simp
  | cons x xs ih =>
    obtain ⟨ds, hx, hrest⟩ := Traverse.bind_eq_ok h
    obtain ⟨rest, hxs, -⟩ := Traverse.bind_eq_ok hrest
    exact List.forall_mem_cons.2 ⟨⟨ds, Traverse.ok_of_mapError hx⟩, ih hxs⟩

/-- a file that was ingested was read in full, under an accepted configuration -/
theorem readFile_of_ingestFromPath {R : Readers} {path : String} {schema : Schema} {options : IngestionOptions}
    {ds : DataSet} (h : (ingestFromPath R path schema options).result = .ok ds) :
    validateWatermarkConfig schema options = .ok () ∧ ∃ full, readFile R schema options path = .ok full := by
  simp only [ingestFromPath, result_bind, result_quiet] at h
  obtain ⟨⟨⟩, hv, h⟩ := Traverse.bind_eq_ok h
  obtain ⟨fmt, hfmt, h⟩ := Traverse.bind_eq_ok h
  obtain ⟨full, hread, -⟩ := Traverse.bind_eq_ok h
  refine ⟨hv, full, ?_⟩
  unfold readFile
  rw [hfmt]
  exact hread

theorem ingestAll_loaded {R : Readers} {schema : Schema} {options : IngestionOptions} {paths : List String}
    {rows : List Row} (h : (ingestAll R schema options paths).result = .ok rows) :
    ∀ p ∈ paths, ∃ full, readFile R schema options p = .ok full := by
  induction paths generalizing rows with
  | nil => simp
  | cons p ps ih =>
    rw [ingestAll, result_bind] at h
    obtain ⟨ds, hp, h⟩ := Traverse.bind_eq_ok h
    rw [result_bind] at h
    obtain ⟨rest, hps, -⟩ := Traverse.bind_eq_ok h
    exact List.forall_mem_cons.2 ⟨(readFile_of_ingestFromPath hp).2, ih hps⟩

theorem ingestLocalPaths_loaded {C : Connectors} {paths : List String} {schema : Schema} {opts : IngestionOptions}
    {out : List Row × OrderedBatchIngestMetadata} (h : ingestLocalPaths C paths schema opts = .ok out) :
    ∀ p ∈ paths, ∃ full, validateWatermarkConfig schema opts = .ok () ∧ readFile C.readers schema opts p = .ok full := by
  unfold ingestLocalPaths at h
  split_ifs at h with hnil
  · simp [hnil]
  · obtain ⟨batch, hbatch, -⟩ := Traverse.bind_eq_ok h
    have hpaths := Traverse.ok_of_mapError hbatch
    rw [ingestFromOrderedPaths, result_bind, result_quiet] at hpaths
    obtain ⟨⟨⟩, hv, hpaths⟩ := Traverse.bind_eq_ok hpaths
    rw [if_neg hnil] at hpaths
    dsimp only at hpaths
    rw [result_bind] at hpaths
    obtain ⟨rows, hall, -⟩ := Traverse.bind_eq_ok hpaths
    intro p hp
    obtain ⟨full, hfull⟩ := ingestAll_loaded hall p hp
    exact ⟨full, hv, hfull⟩

theorem readRemote_of_ingestRemote {R : Readers} {remote : Remote} {what unsupported uri : String} {schema : Schema}
    {options : IngestionOptions} {ds : DataSet}
    (h : ingestRemote R remote what unsupported uri schema options = .ok ds) : ∃ full,
      validateWatermarkConfig schema options = .ok () ∧
        readRemote R remote what unsupported uri schema options = .ok full := by
  obtain ⟨⟨copy, fmt⟩, hfetch, hread⟩ := Traverse.bind_eq_ok h
  obtain ⟨hv, full, hfull⟩ := readFile_of_ingestFromPath hread
  refine ⟨full, hv, ?_⟩
  unfold readRemote
  rw [hfetch]
  exact hfull

theorem ingestFromDb_loaded {cx : Connectorx} {url query : String} {schema : Schema} {opts : IngestionOptions} {ds : DataSet}
    (h : ingestFromDb cx url query schema opts = .ok ds) : ∃ full, validateWatermarkConfig schema opts = .ok () ∧
      ∃ batches, cx.run url query = .ok batches ∧ Db.recordBatchesToDataset cx.arrow batches schema = .ok full := by
  obtain ⟨⟨⟩, hv, h⟩ := Traverse.bind_eq_ok h
  obtain ⟨batches, hrun, h⟩ := Traverse.bind_eq_ok h
  obtain ⟨full, hfull, -⟩ := Traverse.bind_eq_ok h
  exact ⟨full, hv, batches, hrun, hfull⟩

theorem ingestFileTransferUris_loaded {C : Connectors} {uris : List String} {schema : Schema} {opts : IngestionOptions}
    {out : List SourceResult × List Row} (h : ingestFileTransferUris C uris schema opts = .ok out) :
    ∀ uri ∈ uris, ∃ full, validateWatermarkConfig schema opts = .ok () ∧ (fileTransferScheme uri).isSome ∧
      readRemote C.readers C.fileTransfer "remote path" "excel ingest from file-transfer URIs is not supported" uri schema
        opts = .ok full := by
  intro uri huri
  obtain ⟨ds, hds⟩ := ingestEach_loaded h uri huri
  unfold ingestFromFileTransferUri at hds
  split at hds
  · cases hds
  · rename_i scheme hscheme
    obtain ⟨full, hv, hfull⟩ := readRemote_of_ingestRemote hds
    exact ⟨full, hv, Option.isSome_of_mem hscheme, hfull⟩

theorem ingestDbReads_loaded {C : Connectors} {dbReads : List DbReadSpec} {schema : Schema} {opts : IngestionOptions}
    {out : List SourceResult × List Row} (h : ingestDbReads C dbReads schema opts = .ok out) :
    ∀ db ∈ dbReads, ∃ full, validateWatermarkConfig schema opts = .ok () ∧ ∃ cx ∈ C.connectorx, ∃ batches,
      cx.run db.url db.query = .ok batches ∧ Db.recordBatchesToDataset cx.arrow batches schema = .ok full := by
  intro db hmem
  unfold ingestDbReads at h
  rw [if_neg (List.ne_nil_of_mem hmem)] at h
  cases hcx : C.connectorx with
  | none => rw [hcx] at h; cases h
  | some cx =>
    rw [hcx] at h
    obtain ⟨ds, hds⟩ := ingestEach_loaded h db hmem
    obtain ⟨full, hv, hfull⟩ := ingestFromDb_loaded hds
    exact ⟨full, hv, cx, rfl, hfull⟩

/-- what is ingested has been read in full, from every source -/
theorem sources_loaded {C : Connectors} {localPaths objectStoreUris fileTransferUris : List String}
    {dbReads : List DbReadSpec} {schema : Schema} {opts : IngestionOptions} {r : PipelineSources}
    (h : ingestPipelineSources C localPaths objectStoreUris fileTransferUris dbReads schema opts = .ok r) :
    ∃ files objects transfers queries, SourcesLoad C localPaths objectStoreUris fileTransferUris dbReads schema opts files
        objects transfers queries ∧ mergedRows schema opts files (objects ++ transfers) queries ≠ [] ∧
      r.dataset = ⟨schema, mergedRows schema opts files (objects ++ transfers) queries⟩ := by
  obtain ⟨⟨localRows, batchMeta⟩, hlocal, hrest⟩ := Traverse.bind_eq_ok h
  obtain ⟨⟨objectResults, objectRows⟩, hobjects, hrest⟩ := Traverse.bind_eq_ok hrest
  obtain ⟨⟨transferResults, transferRows⟩, htransfers, hrest⟩ := Traverse.bind_eq_ok hrest
  obtain ⟨⟨dbResults, dbRows⟩, hdb, -⟩ := Traverse.bind_eq_ok hrest
  obtain ⟨files, hfiles⟩ := Traverse.exists_forall₂_iff.2 (ingestLocalPaths_loaded hlocal)
  have hobjects' : ∀ uri ∈ objectStoreUris, ∃ full, validateWatermarkConfig schema opts = .ok () ∧
      readRemote C.readers C.objectStore "object path" "excel ingest from object store is not supported" uri schema opts =
        .ok full := by
    intro uri huri
    obtain ⟨ds, hds⟩ := ingestEach_loaded hobjects uri huri
    exact readRemote_of_ingestRemote hds
  obtain ⟨objects, hobjects⟩ := Traverse.exists_forall₂_iff.2 hobjects'
  obtain ⟨transfers, htransfers⟩ := Traverse.exists_forall₂_iff.2 (ingestFileTransferUris_loaded htransfers)
  obtain ⟨queries, hqueries⟩ := Traverse.exists_forall₂_iff.2 (ingestDbReads_loaded hdb)
  have hload : SourcesLoad C localPaths objectStoreUris fileTransferUris dbReads schema opts files objects transfers
      queries := ⟨hfiles, hobjects, htransfers, hqueries⟩
  refine ⟨files, objects, transfers, queries, hload, ?_⟩
  have hmerged := ingestPipelineSources_eq hload
  split_ifs at hmerged with hnil
  · obtain ⟨e, he⟩ := hmerged
    rw [h] at he
    cases he
  · obtain ⟨r', hr', hds, -⟩ := hmerged
    obtain rfl := Except.ok.inj (h.symm.trans hr')
    exact ⟨hnil, hds⟩

/-- **The ingestion succeeds** exactly when every source can be read in full and some row is left, and returns what is left -/
theorem ingestion_succeeds_iff {C : Connectors} {localPaths objectStoreUris fileTransferUris : List String}
    {dbReads : List DbReadSpec} {schema : Schema} {opts : IngestionOptions} {ds : DataSet} :
    (∃ r, ingestPipelineSources C localPaths objectStoreUris fileTransferUris dbReads schema opts = .ok r ∧ r.dataset = ds) ↔
      ∃ files objects transfers queries, SourcesLoad C localPaths objectStoreUris fileTransferUris dbReads schema opts files
          objects transfers queries ∧ mergedRows schema opts files (objects ++ transfers) queries ≠ [] ∧
        ds = ⟨schema, mergedRows schema opts files (objects ++ transfers) queries⟩ := by
  constructor
  · rintro ⟨r, hr, rfl⟩
    exact sources_loaded hr
  · rintro ⟨files, objects, transfers, queries, hload, hne, rfl⟩
    have hmerged := ingestPipelineSources_eq hload
    rw [if_neg hne] at hmerged
    obtain ⟨r, hr, hds, -⟩ := hmerged
    exact ⟨r, hr, hds⟩

theorem ingested_conforms {C : Connectors} {localPaths objectStoreUris fileTransferUris : List String}
    {dbReads : List DbReadSpec} {schema : Schema} {opts : IngestionOptions} {r : PipelineSources}
    (h : ingestPipelineSources C localPaths objectStoreUris fileTransferUris dbReads schema opts = .ok r) :
    r.dataset.Conforms schema := by
  obtain ⟨files, objects, transfers, queries, hload, -, hds⟩ := sources_loaded h
  refine ⟨congrArg DataSet.schema hds, fun row hrow => ?_⟩
  rw [hds] at hrow
  obtain ⟨⟨ds, hmem, hin⟩, -⟩ := mergedRows_mem hrow
  exact (hload.conform ds hmem).rows row hin

/-! ## The direct run -/

section Direct

variable {World P O M Bytes : Type} (L : Linked World P O M Bytes)

/-- a sink that is handed a dataset -/
def handOver (ds : DataSet) (sink : SinkSpec) : Attempt World PipelineFault SinkResult :=
  match pendingSink sink with
  | some result => return result
  | none => writeSink L ds sink

/-- the run without the engine: every sink is handed the ingested dataset -/
def directRun (clock : Clock) (payload : Except String RunPipelineEnvelope) :
    Attempt World PipelineFault PipelineReport := do
  let p ← Attempt.reads fun w => prepare L (L.connectors w) clock payload
  let results ← Attempt.collect (fun s => do
    Attempt.ofExcept (checkDeadline p.deadline (clock.sink s.2) "sink")
    handOver L p.ingested.dataset s.1) p.request.sinks.zipIdx
  return report clock p results

/-- no query, or a blank one -/
def blankSql (sql : Option String) : Bool := sql.all fun s => RustStd.trim s = ""

/-- a request without queries -/
def RunPipelineRequest.plain (req : RunPipelineRequest) : Bool :=
  blankSql req.transform.join && req.sinks.all fun sink => blankSql sink.sql

theorem queried_blank {base : DataFrame} {sql : Option String} (h : blankSql sql = true) (stage : String) :
    queried L base sql stage = .ok base := by
  unfold queried
  cases sql with
  | none => rfl
  | some s => exact if_pos (by simpa [blankSql] using h)

/-- without a transform, each sink collects what was ingested -/
theorem materialize_base (hE : KeepsOwnType L.engine) {C : Connectors} {clock : Clock}
    {req : RunPipelineRequest} {declared : Option Json} {p : Prepared} (h : prepareRequest L C clock req declared = .ok p)
    (hblank : blankSql req.transform.join = true) : materialize L p.base = .ok p.ingested.dataset := by
  obtain ⟨opts, lf, -, hingested, hlf, hbase, -⟩ := prepareRequest_ok L h
  rw [queried_blank L hblank] at hbase
  obtain rfl := Except.ok.inj hbase
  unfold materialize
  rw [Pipeline.collect_fromDataset hE L.displayType hlf, fitted_of_conforms (ingested_conforms hingested)]
  rfl

theorem runSink_plain {base : DataFrame} {ds : DataSet} (hbase : materialize L base = .ok ds) {sink : SinkSpec}
    (hblank : blankSql sink.sql = true) : runSink L base sink = handOver L ds sink := by
  unfold runSink handOver
  rw [queried_blank L hblank]
  cases hpending : pendingSink sink with
  | some result => exact Attempt.ofExcept_ok_bind base _
  | none =>
    refine (Attempt.ofExcept_ok_bind base _).trans ?_
    rw [hbase]
    exact Attempt.ofExcept_ok_bind ds _

theorem prepare_ok {C : Connectors} {clock : Clock} {payload : Except String RunPipelineEnvelope} {p : Prepared}
    (h : prepare L C clock payload = .ok p) : ∃ req declared, parsePayload payload = .ok (req, declared) ∧
      prepareRequest L C clock req declared = .ok p := by
  obtain ⟨⟨req, declared⟩, hparse, hp⟩ := Traverse.bind_eq_ok h
  exact ⟨req, declared, hparse, hp⟩

/-- **Without queries** the engine changes nothing: the run is the direct run -/
theorem run_is_direct (hE : KeepsOwnType L.engine) (clock : Clock) {payload : Except String RunPipelineEnvelope}
    (hplain : ∀ req declared, parsePayload payload = .ok (req, declared) → req.plain = true) :
    runPipelineImpl L clock payload = directRun L clock payload := by
  funext w
  cases hprepare : prepare L (L.connectors w) clock payload with
  | error e =>
    rw [runPipelineImpl_unprepared L hprepare]
    symm
    exact Attempt.bind_of_error (by rw [Attempt.reads, hprepare])
  | ok p =>
    obtain ⟨req, declared, hparse, hp⟩ := prepare_ok L hprepare
    have hblank := hplain req declared hparse
    rw [RunPipelineRequest.plain, Bool.and_eq_true, List.all_eq_true] at hblank
    obtain rfl := prepareRequest_request L hp
    have hloop : Attempt.collect (timedSink L clock p.deadline p.base) p.request.sinks.zipIdx =
        Attempt.collect (fun s => do
          Attempt.ofExcept (checkDeadline p.deadline (clock.sink s.2) "sink")
          handOver L p.ingested.dataset s.1) p.request.sinks.zipIdx := by
      refine Attempt.collect_congr fun s hs => ?_
      unfold timedSink
      rw [runSink_plain L (materialize_base L hE hp hblank.1) (hblank.2 s.1 (List.fst_mem_of_mem_zipIdx hs))]
    have hread : Attempt.reads (fun w => prepare L (L.connectors w) clock payload) w = (w, .ok p) := by
      rw [Attempt.reads, hprepare]
    rw [runPipelineImpl_prepared L hprepare, hloop]
    symm
    exact Attempt.bind_ok hread

end Direct

/-- the four sinks of a document, with no query in it -/
theorem four_sinks_direct : runPipelineImpl (memoryLinked [("a.csv", [event 1, event 11])] "") noTime (.ok (.v1 fourSinks)) =
    directRun (memoryLinked [("a.csv", [event 1, event 11])] "") noTime (.ok (.v1 fourSinks)) :=
  run_is_direct _ plain_keepsOwnType noTime fun req declared h => by
    cases h
    decide +kernel

/-! ## One load after another -/

section Load

variable {R : Type}

/-- the rows a data set is stored as -/
def pgRows (server : PgServer R) (ds : DataSet) : List R :=
  if ds.rowCount = 0 then [] else ((copyText ds.rows).toOption.map server.stored).getD []

/-- the table once it is made, if asked for -/
def pgMade (create : Bool) (t : Table R) : Table R := if create then some (t.getD []) else t

/-- the table after a load -/
def pgLoaded (create truncate : Bool) (rows : List R) (t : Table R) : Table R :=
  (pgMade create t).map fun old => (if truncate then [] else old) ++ rows

theorem pgWriteRows_ok {server : PgServer R} {rows : List Row} {i : ℕ} {body out : List Char}
    (h : pgWriteRows server rows i body = .ok out) : ∃ text, copyText rows = .ok text ∧ out = body ++ text := by
  induction rows generalizing i body with
  | nil => exact ⟨[], rfl, by rw [List.append_nil]; exact (Except.ok.inj h).symm⟩
  | cons row rows ih =>
    rw [pgWriteRows] at h
    cases hline : copyRow row with
    | error e => rw [hline] at h; cases h
    | ok line =>
      rw [hline] at h
      dsimp only at h
      split at h
      · cases h
      · obtain ⟨text, htext, rfl⟩ := ih h
        refine ⟨line ++ text, ?_, List.append_assoc _ _ _⟩
        unfold copyText at htext ⊢
        obtain ⟨lines, hlines, rfl⟩ := Traverse.map_eq_ok htext
        rw [List.mapM_cons, hline, hlines]
        rfl

theorem pgCopyRows_ok {server : PgServer R} {fq : String} {ds : DataSet} {t t' : Table R} {n : ℕ}
    (h : pgCopyRows server fq ds t = (t', .ok n)) : t' = t.map (· ++ pgRows server ds) := by
  unfold pgCopyRows at h
  unfold pgRows
  split_ifs at h ⊢ with hempty
  · obtain ⟨rfl, -⟩ := Prod.mk.inj h
    cases t <;> simp
  · obtain ⟨u₁, s₁, hcopy, h₁⟩ := Attempt.bind_done h
    obtain ⟨body, s₂, hbody, h₂⟩ := Attempt.bind_done h₁
    obtain ⟨u₃, s₃, hfinish, h₃⟩ := Attempt.bind_done h₂
    obtain ⟨rfl, -⟩ := Prod.mk.inj h₃
    obtain ⟨hrows, rfl⟩ := Attempt.ofExcept_ok hbody
    obtain ⟨text, htext, rfl⟩ := pgWriteRows_ok hrows
    obtain ⟨-, hopen⟩ := statement_ok hcopy
    obtain ⟨-, hclose⟩ := statement_ok hfinish
    cases t with
    | none => cases hopen
    | some old =>
      obtain rfl := Except.ok.inj hopen
      obtain rfl := Except.ok.inj hclose
      simp [htext, Except.toOption]

/-- **A successful load** -/
theorem postgresCopySink_ok {server : PgServer R} {url table : String} {ds : DataSet} {create truncate : Bool}
    {t t' : Table R} {n : ℕ} (h : postgresCopySink server url table ds create truncate t = (t', .ok n)) :
    t' = pgLoaded create truncate (pgRows server ds) t := by
  obtain ⟨u₁, s₁, hconnect, h₁⟩ := Attempt.bind_done h
  obtain ⟨-, rfl⟩ := request_ok hconnect
  obtain ⟨parts, s₂, hsplit, h₂⟩ := Attempt.bind_done h₁
  obtain ⟨-, rfl⟩ := Attempt.ofExcept_ok hsplit
  obtain ⟨u₃, s₃, hcreate, h₃⟩ := Attempt.bind_done h₂
  obtain ⟨u₄, s₄, htruncate, h₄⟩ := Attempt.bind_done h₃
  have hmade : s₃ = pgMade create s₂ := by
    rcases Attempt.when_ok hcreate with ⟨rfl, rfl⟩ | ⟨rfl, hstatement⟩
    · rfl
    · exact (Except.ok.inj (statement_ok hstatement).2).symm
  have hcleared : s₄ = s₃.map fun old => if truncate then [] else old := by
    rcases Attempt.when_ok htruncate with ⟨rfl, rfl⟩ | ⟨rfl, hstatement⟩
    · simp
    · have heffect := (statement_ok hstatement).2
      cases s₃ with
      | none => cases heffect
      | some old => exact (Except.ok.inj heffect).symm
  rw [pgCopyRows_ok h₄, hcleared, hmade, pgLoaded, Option.map_map]
  rfl

theorem pgMade_loaded (create truncate : Bool) (rows : List R) (t : Table R) :
    pgMade create (pgLoaded create truncate rows t) = pgLoaded create truncate rows t := by
  cases create with
  | false => rfl
  | true => rfl

/-- the table after one load after another -/
def pgLoads (create truncate : Bool) (loads : List (List R)) (t : Table R) : Table R :=
  loads.foldl (fun t rows => pgLoaded create truncate rows t) t

theorem pgLoads_eq (create truncate : Bool) {loads : List (List R)} (h : loads ≠ []) (t : Table R) :
    pgLoads create truncate loads t = (pgMade create t).map fun old =>
      if truncate then loads.getLast?.getD [] else old ++ loads.flatten := by
  induction loads generalizing t with
  | nil => exact absurd rfl h
  | cons rows loads ih =>
    cases loads with
    | nil =>
      rw [pgLoads, List.foldl_cons, List.foldl_nil, pgLoaded]
      cases truncate <;> simp
    | cons next loads =>
      have hrest := ih (List.cons_ne_nil next loads) (pgLoaded create truncate rows t)
      -- the first load makes the table, if asked for
      rw [pgMade_loaded] at hrest
      calc pgLoads create truncate (rows :: next :: loads) t
          = pgLoads create truncate (next :: loads) (pgLoaded create truncate rows t) := rfl
        _ = (pgLoaded create truncate rows t).map fun old =>
              if truncate then (next :: loads).getLast?.getD [] else old ++ (next :: loads).flatten := hrest
        _ = (pgMade create t).map fun old =>
              if truncate then (rows :: next :: loads).getLast?.getD [] else old ++ (rows :: next :: loads).flatten := by
          rw [pgLoaded, Option.map_map]
          refine congrArg (fun f => (pgMade create t).map f) (funext fun old => ?_)
          cases truncate with
          | true => rfl
          | false => simp

end Load

section Repeated

variable {World P O M Bytes : Type} (L : Linked World P O M Bytes)

/-- the dataset a sink with a query is handed: the sources, the transform, the query -/
def sinkDataset (C : Connectors) (req : RunPipelineRequest) (sql : Option String) : PipelineResult DataSet := do
  let opts ← req.ingestionOptions.mapError fun e => fault "ORCHESTRATION_VALIDATION" e "parse"
  let ingested ← ingestPipelineSources C req.sources.paths req.sources.objectStoreUris
    req.sources.fileTransferUris req.sources.dbReads req.sources.schema opts
  let frame ← (DataFrame.fromDataset L.engine ingested.dataset).mapError
    (PipelineFault.at "DATAFRAME_MATERIALIZATION_FAILED" "transform")
  let base ← queried L frame req.transform.join "transform"
  let branch ← queried L base sql "sink_sql"
  materialize L branch

theorem sinkDataset_eq {C : Connectors} {clock : Clock} {req : RunPipelineRequest} {declared : Option Json} {p : Prepared}
    (h : prepareRequest L C clock req declared = .ok p) (sql : Option String) :
    sinkDataset L C req sql = queried L p.base sql "sink_sql" >>= materialize L := by
  obtain ⟨opts, lf, hopts, hingested, hlf, hbase, -⟩ := prepareRequest_ok L h
  unfold sinkDataset
  rw [hopts]
  change (ingestPipelineSources _ _ _ _ _ _ opts >>= _) = _
  rw [hingested]
  change ((DataFrame.fromDataset L.engine p.ingested.dataset).mapError _ >>= _) = _
  rw [hlf]
  change (queried L lf req.transform.join "transform" >>= _) = _
  rw [hbase]
  rfl

/-- a turn of a PostgreSQL sink that is reported `ok` has loaded what the sink is handed -/
theorem timedSink_loaded {db : Database World (PgServer P) P} (hdb : L.postgres = some db) {load : TableLoad}
    {sql : Option String} (hset : ∀ t w, (db.table load.url load.table).get ((db.table load.url load.table).set t w) = t)
    {clock : Clock} {deadline : Option ℕ} {base : DataFrame} {i : ℕ} {w w' : World} {r : SinkResult}
    (h : timedSink L clock deadline base (.postgresql load sql, i) w = (w', .ok r)) (hok : r.status = "ok") :
    ∃ ds, (queried L base sql "sink_sql" >>= materialize L) = .ok ds ∧
      (db.table load.url load.table).get w' = pgLoaded load.createTableIfMissing load.truncateBeforeLoad
        (pgRows db.server ds) ((db.table load.url load.table).get w) := by
  obtain ⟨u, t, hcheck, hrest⟩ := Attempt.bind_done h
  obtain ⟨-, rfl⟩ := Attempt.ofExcept_ok hcheck
  obtain ⟨branch, v, hqueried, hsink⟩ := Attempt.bind_done hrest
  obtain ⟨hbranch, rfl⟩ := Attempt.ofExcept_ok hqueried
  obtain ⟨ds, x, hcollected, hwrite⟩ := Attempt.bind_done hsink
  obtain ⟨hds, rfl⟩ := Attempt.ofExcept_ok hcollected
  change queried L base sql "sink_sql" = .ok branch at hbranch
  refine ⟨ds, by rw [hbranch]; exact hds, ?_⟩
  unfold writeSink postgresqlTableSink at hwrite
  rw [hdb] at hwrite
  obtain ⟨c, y, hcall, hend⟩ := Attempt.bind_done hwrite
  obtain ⟨rfl, hc⟩ := Prod.mk.inj hcall
  obtain rfl := Except.ok.inj hc
  cases hresult : (Attempt.on (db.table load.url load.table) (postgresCopySink db.server load.url load.table ds
      load.createTableIfMissing load.truncateBeforeLoad) x).2 with
  | error e =>
    rw [hresult] at hend
    obtain ⟨-, hr⟩ := Prod.mk.inj hend
    obtain rfl := Except.ok.inj hr
    simp at hok
  | ok n =>
    rw [hresult] at hend
    obtain ⟨rfl, -⟩ := Prod.mk.inj hend
    exact (hset _ _).trans (postgresCopySink_ok (Prod.ext rfl hresult))

variable {L} {db : Database World (PgServer P) P} {load : TableLoad} {sites : Place → Set Unit}

/-- one run: the sinks before and after that one leave its table alone -/
theorem loaded_once (hdb : L.postgres = some db)
    (hset : ∀ t w, (db.table load.url load.table).get ((db.table load.url load.table).set t w) = t)
    (hL : Located L (fun _ : Unit => (db.table load.url load.table).get) sites) {req : RunPipelineRequest}
    {before after : List SinkSpec} {sql : Option String} (hsinks : req.sinks = before ++ .postgresql load sql :: after)
    (hothers : ∀ sink ∈ before ++ after, () ∉ sitesOf sites (sink.targets L)) {clock : Clock} {w w' : World}
    {r : PipelineReport} (h : runPipelineImpl L clock (.ok (.v1 req)) w = (w', .ok r))
    (hok : (r.sinkResults.map SinkResult.status)[before.length]? = some "ok") :
    ∃ ds, sinkDataset L (L.connectors w) req sql = .ok ds ∧
      (db.table load.url load.table).get w' = pgLoaded load.createTableIfMissing load.truncateBeforeLoad
        (pgRows db.server ds) ((db.table load.url load.table).get w) := by
  obtain ⟨p, ps, hp, hps, hsteps, rfl⟩ := (runPipelineImpl_ok L).1 h
  have hreq := prepareRequest_request L hp
  rw [hreq, hsinks, List.zipIdx_append, List.zipIdx_cons, Nat.zero_add] at hps
  obtain ⟨first, rest, rfl, hfirst, hrest⟩ := List.map_eq_append_iff.1 hps
  obtain ⟨⟨s, result⟩, last, rfl, hs, hlast⟩ := List.map_eq_cons_iff.1 hrest
  obtain rfl : s = (.postgresql load sql, before.length) := hs
  obtain ⟨t, hbefore, hmid⟩ := Attempt.Steps.append_iff.1 hsteps
  obtain ⟨u, hstep, hafter⟩ := Attempt.Steps.cons_iff.1 hmid
  have hlen : first.length = before.length := by
    have hl := congrArg List.length hfirst
    simpa using hl
  have hstatus : result.status = "ok" := by
    simpa [report, ← hlen] using hok
  have quiet : ∀ (sinks : List SinkSpec) (k : ℕ) (qs : List ((SinkSpec × ℕ) × SinkResult)) (v v' : World),
      qs.map Prod.fst = sinks.zipIdx k → (∀ sink ∈ sinks, () ∉ sitesOf sites (sink.targets L)) →
      Steps (timedSink L clock p.deadline p.base) v qs v' →
      (db.table load.url load.table).get v' = (db.table load.url load.table).get v := by
    intro sinks k qs v v' hqs hsinks hsteps
    refine Attempt.Confined.unchanged (p := ()) (timedSink_confined hL clock p.deadline p.base) hsteps fun q hq => ?_
    have hmem : q.1 ∈ sinks.zipIdx k := hqs ▸ List.mem_map_of_mem hq
    exact hsinks q.1.1 (List.fst_mem_of_mem_zipIdx hmem)
  obtain ⟨ds, hds, hload⟩ := timedSink_loaded L hdb hset hstep hstatus
  refine ⟨ds, (sinkDataset_eq L hp sql).trans hds, ?_⟩
  rw [quiet after _ last u w' hlast (fun sink hm => hothers sink (List.mem_append_right _ hm)) hafter, hload,
    quiet before _ first w t hfirst (fun sink hm => hothers sink (List.mem_append_left _ hm)) hbefore]

/-- runs after each other load the table one after the other -/
theorem loaded_run_after_run (hdb : L.postgres = some db)
    (hset : ∀ t w, (db.table load.url load.table).get ((db.table load.url load.table).set t w) = t)
    (hL : Located L (fun _ : Unit => (db.table load.url load.table).get) sites) {req : RunPipelineRequest}
    {before after : List SinkSpec} {sql : Option String} (hsinks : req.sinks = before ++ .postgresql load sql :: after)
    (hothers : ∀ sink ∈ before ++ after, () ∉ sitesOf sites (sink.targets L)) {w w' : World}
    {runs : List (Clock × PipelineReport)}
    (h : Steps (fun clock => runPipelineImpl L clock (.ok (.v1 req))) w runs w')
    (hok : ∀ run ∈ runs, (run.2.sinkResults.map SinkResult.status)[before.length]? = some "ok") :
    ∃ dss : List DataSet, dss.length = runs.length ∧
      (∀ i ds, dss[i]? = some ds → ∃ t, Steps (fun clock => runPipelineImpl L clock (.ok (.v1 req))) w (runs.take i) t ∧
        sinkDataset L (L.connectors t) req sql = .ok ds) ∧
      (db.table load.url load.table).get w' = pgLoads load.createTableIfMissing load.truncateBeforeLoad
        (dss.map (pgRows db.server)) ((db.table load.url load.table).get w) := by
  induction h with
  | nil w => exact ⟨[], rfl, fun i ds hi => by simp at hi, rfl⟩
  | cons hrun _ ih =>
    obtain ⟨hfirst, hrest⟩ := List.forall_mem_cons.1 hok
    obtain ⟨ds, hds, hload⟩ := loaded_once hdb hset hL hsinks hothers hrun hfirst
    obtain ⟨dss, hlen, hfound, htable⟩ := ih hrest
    refine ⟨ds :: dss, by simp [hlen], fun i found hi => ?_, ?_⟩
    · cases i with
      | zero =>
        obtain rfl := Option.some.inj hi
        exact ⟨_, .nil _, hds⟩
      | succ i =>
        obtain ⟨t, hsteps, hfound⟩ := hfound i found hi
        exact ⟨t, .cons hrun hsteps, hfound⟩
    · rw [htable, hload]
      rfl

/-- **One document run again and again**: after each run has reported `ok` for a PostgreSQL sink, the table holds the rows
each run found, run after run, or those of the last one when it is truncated before the load. A run may find what an earlier
one has loaded -/
theorem loaded_again_and_again (hdb : L.postgres = some db)
    (hset : ∀ t w, (db.table load.url load.table).get ((db.table load.url load.table).set t w) = t)
    (hL : Located L (fun _ : Unit => (db.table load.url load.table).get) sites) {req : RunPipelineRequest}
    {before after : List SinkSpec} {sql : Option String} (hsinks : req.sinks = before ++ .postgresql load sql :: after)
    (hothers : ∀ sink ∈ before ++ after, () ∉ sitesOf sites (sink.targets L)) {w w' : World}
    {runs : List (Clock × PipelineReport)}
    (h : Steps (fun clock => runPipelineImpl L clock (.ok (.v1 req))) w runs w') (hne : runs ≠ [])
    (hok : ∀ run ∈ runs, (run.2.sinkResults.map SinkResult.status)[before.length]? = some "ok") :
    ∃ dss : List DataSet, dss.length = runs.length ∧
      (∀ i ds, dss[i]? = some ds → ∃ t, Steps (fun clock => runPipelineImpl L clock (.ok (.v1 req))) w (runs.take i) t ∧
        sinkDataset L (L.connectors t) req sql = .ok ds) ∧
      (db.table load.url load.table).get w' =
        (pgMade load.createTableIfMissing ((db.table load.url load.table).get w)).map fun old =>
          if load.truncateBeforeLoad then (dss.map (pgRows db.server)).getLast?.getD []
          else old ++ (dss.map (pgRows db.server)).flatten := by
  obtain ⟨dss, hlen, hfound, htable⟩ := loaded_run_after_run hdb hset hL hsinks hothers h hok
  refine ⟨dss, hlen, hfound, htable.trans (pgLoads_eq _ _ ?_ _)⟩
  intro hnil
  rw [List.map_eq_nil_iff] at hnil
  rw [hnil] at hlen
  exact hne (List.eq_nil_of_length_eq_zero hlen.symm)

end Repeated

def eventLoad : TableLoad := { url := "postgresql://db", table := "events" }

/-- a file that has a row more for each load of the table -/
def growingLinked : Linked Memory (List Char) Unit Unit ℕ :=
  { memoryLinked [] "" with
    connectors := fun w => memorySources
      [("a.csv", event 1 :: ((w (.postgres eventLoad.url eventLoad.table)).getD []).map fun _ => event 2)] }

/-- two runs of a document: the second finds two rows, and the table holds the loads of both -/
theorem events_loaded_twice :
    ∃ (w' : Memory) (runs : List (Clock × PipelineReport)) (dss : List DataSet), dss.length = 2 ∧
      (∀ i ds, dss[i]? = some ds → ∃ t, Steps (fun clock => runPipelineImpl growingLinked clock
        (.ok (.v1 (eventsTo [.postgresql eventLoad none])))) (fun _ => none) (runs.take i) t ∧
        sinkDataset growingLinked (growingLinked.connectors t) (eventsTo [.postgresql eventLoad none]) none = .ok ds) ∧
      w' (.postgres eventLoad.url eventLoad.table) = some ([] ++ (dss.map (pgRows memoryPostgres.server)).flatten) ∧
      (w' (.postgres eventLoad.url eventLoad.table)).map (List.map (List.count '\n')) = some [1, 2] := by
  let run := runPipelineImpl growingLinked noTime (.ok (.v1 (eventsTo [.postgresql eventLoad none])))
  let status (w : Memory) := ((run w).2.toOption.map fun r => (r.sinkResults.map SinkResult.status)[0]?)
  let empty : Memory := fun _ => none
  have hfirst : status empty = some (some "ok") := by decide +kernel
  have hsecond : status (run empty).1 = some (some "ok") := by decide +kernel
  obtain ⟨r₁, hr₁, hok₁⟩ := Option.map_eq_some_iff.1 hfirst
  obtain ⟨r₂, hr₂, hok₂⟩ := Option.map_eq_some_iff.1 hsecond
  have h₁ : run empty = ((run empty).1, .ok r₁) := Attempt.eq_of_ok (Traverse.ok_of_toOption hr₁)
  have h₂ : run (run empty).1 = ((run (run empty).1).1, .ok r₂) := Attempt.eq_of_ok (Traverse.ok_of_toOption hr₂)
  have hruns : Steps (fun clock => runPipelineImpl growingLinked clock (.ok (.v1 (eventsTo [.postgresql eventLoad none]))))
      empty [(noTime, r₁), (noTime, r₂)] (run (run empty).1).1 := .cons h₁ (.cons h₂ (.nil _))
  have hlines : ((run (run empty).1).1 (.postgres eventLoad.url eventLoad.table)).map (List.map (List.count '\n')) =
      some [1, 2] := by decide +kernel
  generalize (run (run empty).1).1 = w' at hruns hlines
  have hL : Located growingLinked (fun q w => w q) fun p => {p} := ⟨(memoryLinked_located [] "").createParent,
    (memoryLinked_located [] "").createFile, (memoryLinked_located [] "").writeParquet,
    (memoryLinked_located [] "").writeXml, (memoryLinked_located [] "").putObject, (memoryLinked_located [] "").postgres,
    (memoryLinked_located [] "").oracle, (memoryLinked_located [] "").mssql⟩
  obtain ⟨dss, hlen, hfound, hload⟩ := @loaded_again_and_again _ _ _ _ _ growingLinked memoryPostgres eventLoad _ rfl
    (memoryPostgres_get_set _ _) (hL.at (.postgres eventLoad.url eventLoad.table))
    (eventsTo [.postgresql eventLoad none]) [] [] none rfl (by simp) _ _ _ hruns (by simp)
    (List.forall_mem_cons.2 ⟨hok₁, List.forall_mem_singleton.2 hok₂⟩)
  exact ⟨w', _, dss, hlen, hfound, hload, hlines⟩

end RustDataProcessing.JvmSys
