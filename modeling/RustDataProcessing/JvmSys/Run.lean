/-
One pipeline document run from end to end (`run_pipeline_impl` in `bindings/jvm-sys/src/pipeline_run.rs`): the request is
checked, its sources are ingested, one engine plan is made of them, and each sink takes the plan, or its own query of it,
and writes somewhere.

The state is the outside world, of any type: the file system, the object stores and the tables of the databases. What the
program is linked with is a parameter (`Linked`): what the sources hold in a world, the engine and its SQL, the calls that
write files and objects, and the databases that are built, each with the part of the world that is one table. Every check
of the deadline reads the clock. The temporary copies that ingestion makes of downloads, and staging of Parquet files, are
not part of the world: what becomes of the former is the subject of `Ingestion.TempFiles`.

A sink that writes a local file ends the run when it fails, a sink that writes elsewhere reports the failure in its
result, and a sink that is not built or not connected reports that and writes nothing.
-/
import Mathlib.Tactic
import RustDataProcessing.Lib.Effects
import RustDataProcessing.Ingestion.Xml
import RustDataProcessing.JvmSys.OrderedPaths
import RustDataProcessing.JvmSys.Sinks
import RustDataProcessing.JvmSys.Sources
import RustDataProcessing.Pipeline.Collect

namespace RustDataProcessing.JvmSys

open Ingestion
open Polars (PType PolarsError)
open Pipeline (DataFrame)

/-! ## The request -/

structure SourcesSpec where
  paths : List String
  schema : Schema
  options : Json := .object []
  objectStoreUris : List String := []
  fileTransferUris : List String := []
  dbReads : List DbReadSpec := []

/-- where a relational sink loads, and how -/
structure TableLoad where
  url : String
  table : String
  createTableIfMissing : Bool := true
  truncateBeforeLoad : Bool := false
deriving DecidableEq, Repr

/-- each kind of sink, with its optional query -/
inductive SinkSpec where
  | parquetFile (path : String) (sql : Option String)
  | xmlFile (path : String) (sql : Option String)
  | postgresql (load : TableLoad) (sql : Option String)
  | oracle (load : TableLoad) (sql : Option String)
  | mssql (load : TableLoad) (sql : Option String)
  | deltaLake (warehouse catalogUri ns : Option String) (table : String) (sql : Option String)
  | iceberg (catalogUri : String) (warehouse ns : Option String) (table : String) (sql : Option String)
  | snowflake (accountUrl : String) (warehouse database schema : Option String) (table : String)
      (stageUri role : Option String) (sql : Option String)
  | databricks (workspaceUrl : String) (catalogUri warehouse ns : Option String) (table : String) (sql : Option String)
  | spark (master appName : Option String) (handoffUri : String) (sql : Option String)
  | objectStore (uri : String) (format : Option String) (sql : Option String)
deriving DecidableEq, Repr

def SinkSpec.sql : SinkSpec → Option String
  | .parquetFile _ sql | .xmlFile _ sql | .postgresql _ sql | .oracle _ sql | .mssql _ sql
  | .deltaLake _ _ _ _ sql | .iceberg _ _ _ _ sql | .snowflake _ _ _ _ _ _ _ sql | .databricks _ _ _ _ _ sql
  | .spark _ _ _ sql | .objectStore _ _ sql => sql

structure OrchestrationSpec where
  timeoutMs : Option ℕ := none
  maxIngestedRows : Option ℕ := none
  idempotencyKey : Option String := none
deriving DecidableEq, Repr

structure RunPipelineRequest where
  pipelineSpecVersion : ℕ := 1
  orchestration : Option OrchestrationSpec := none
  sources : SourcesSpec
  /-- the query of the transform, if there is one -/
  transform : Option (Option String) := none
  sinks : List SinkSpec

/-! ### The older document -/

structure LegacyLakeSink where
  format : Option String := none
  catalogUri : String
  warehouse : Option String := none
  ns : Option String := none
  tableStudentGrades : String

structure LegacyRelationalSink where
  postgresqlUrl : String
  coursesTeachersTable : String

/-- the two sink documents are read later; each is what serde makes of it, or its message -/
structure LegacyStudentEtlSpec where
  engine : Option String := none
  jsonSourcePaths : List String
  schemaStudentJson : Schema
  schemaLakeGradeStats : Option Json := none
  schemaPostgresCoursesTeachers : Option Json := none
  lakeSink : Except String LegacyLakeSink
  relationalSink : Except String LegacyRelationalSink
  notes : Option String := none

inductive RunPipelineEnvelope where
  | v1 (request : RunPipelineRequest)
  | legacy (spec : LegacyStudentEtlSpec)

def optionalText : Option String → Json
  | some s => .string s
  | none => .null

def legacyStudentEtlToV1 (spec : LegacyStudentEtlSpec) : Except String (RunPipelineRequest × Json) := do
  let lake ← spec.lakeSink.mapError fun e => s!"lake_sink: {e}"
  let rel ← spec.relationalSink.mapError fun e => s!"relational_sink: {e}"
  let declared := Json.object [("engine", optionalText spec.engine), ("notes", optionalText spec.notes),
    ("schema_lake_grade_stats", spec.schemaLakeGradeStats.getD .null),
    ("schema_postgres_courses_teachers", spec.schemaPostgresCoursesTeachers.getD .null),
    ("lake_sink_format", optionalText lake.format)]
  let sinks : List SinkSpec := [
    .deltaLake lake.warehouse (some lake.catalogUri) lake.ns lake.tableStudentGrades none,
    .iceberg lake.catalogUri lake.warehouse lake.ns lake.tableStudentGrades none,
    .postgresql ⟨rel.postgresqlUrl, rel.coursesTeachersTable, true, false⟩ none]
  let sources : SourcesSpec :=
    { paths := spec.jsonSourcePaths, schema := spec.schemaStudentJson, options := .object [("format", .string "json")] }
  pure ({ sources := sources, sinks := sinks }, declared)

/-! ## Checks -/

def startsWith (s start : String) : Bool := start.toList.isPrefixOf s.toList

def endsWith (s tail : String) : Bool := tail.toList.isSuffixOf s.toList

def isObjectStoreUri (p : String) : Bool :=
  ["s3://", "gs://", "gcs://", "abfs://", "abfss://", "azure://", "az://", "file://", "https://", "http://"].any
    (startsWith (RustStd.toAsciiLowercase p))

def deltaLakeWarehouseSupportsLocalStaging (warehouse : Option String) : Bool :=
  (warehouse.map fun w => startsWith (RustStd.toAsciiLowercase (RustStd.trim w)) "file://").getD false

def objectStorePathError (p : String) : Option String :=
  if isObjectStoreUri p then
    some (s!"sources.paths entry `{p}` uses an object-store or HTTP URI; use local filesystem paths for ingest and " ++
      "declare cloud URIs in sources.object_store_uris")
  else none

def dbReadUrlError (url : String) : Option String :=
  let lower := RustStd.toAsciiLowercase url
  if startsWith lower "jdbc:" then
    some s!"sources.db_reads.url must use ConnectorX form (oracle://, mssql://, postgresql://, mysql://), not `{url}`"
  else if startsWith lower "postgresql://" ∨ startsWith lower "oracle://" ∨ startsWith lower "mssql://" ∨
      startsWith lower "mysql://" then none
  else some s!"sources.db_reads.url `{url}` has unsupported scheme; expected postgresql://, oracle://, mssql://, or mysql://"

/-- an error of the runner itself -/
def fault (code message stage : String) : PipelineFault := .structured code message stage none

/-- a failed call, under a code and a stage -/
def PipelineFault.at (code stage : String) : Fault → PipelineFault
  | .error e => .structured code "" stage (some e)
  | .panic => .panic

def refuse (code message stage : String) : PipelineResult Unit := .error (fault code message stage)

def checkVersion (version : ℕ) : PipelineResult Unit :=
  if version = 0 then refuse "ORCHESTRATION_VALIDATION" "pipeline_spec_version must be >= 1" "parse"
  else if version > 2 then
    refuse "ORCHESTRATION_VERSION_UNSUPPORTED" s!"pipeline_spec_version {version} is not supported (max 2)" "parse"
  else .ok ()

def checkDbRead (db : DbReadSpec) : PipelineResult Unit :=
  match dbReadUrlError db.url with
  | some e => refuse "DB_SOURCE_URL_INVALID" e "parse"
  | none =>
    if RustStd.trim db.query = "" then
      refuse "ORCHESTRATION_VALIDATION" "sources.db_reads.query must be non-empty" "parse"
    else .ok ()

/-- the checks on the request, in their order -/
def checkRequest (req : RunPipelineRequest) : PipelineResult Unit := do
  checkVersion req.pipelineSpecVersion
  req.sources.objectStoreUris.forM fun u =>
    if isObjectStoreUri u then .ok ()
    else refuse "ORCHESTRATION_VALIDATION"
      (s!"sources.object_store_uris entry `{u}` must be an object-store URI " ++
        "(s3://, gs://, gcs://, abfs://, abfss://, azure://, or https://)")
      "parse"
  req.sources.fileTransferUris.forM fun u =>
    if (fileTransferScheme u).isSome then .ok ()
    else refuse "ORCHESTRATION_VALIDATION"
      s!"sources.file_transfer_uris entry `{u}` must be sftp://, ftp://, or ftps://" "parse"
  req.sources.paths.forM fun p => match objectStorePathError p with
    | some e => refuse "OBJECT_STORE_SOURCE_NOT_SUPPORTED" e "ingest"
    | none => .ok ()
  req.sources.dbReads.forM checkDbRead
  if req.sources.paths = [] ∧ req.sources.objectStoreUris = [] ∧ req.sources.fileTransferUris = [] ∧
      req.sources.dbReads = [] then
    refuse "ORCHESTRATION_VALIDATION"
      "sources must declare at least one of paths, object_store_uris, file_transfer_uris, or db_reads" "parse"
  else if req.sinks = [] then refuse "ORCHESTRATION_VALIDATION" "sinks must be non-empty" "parse"
  else .ok ()

/-! ## The clock -/

/-- the instant after which the run stops; a timeout of zero is none -/
def pipelineDeadline (orch : Option OrchestrationSpec) (now : ℕ) : Option ℕ := do
  let o ← orch
  let ms ← o.timeoutMs
  if ms = 0 then none else some (now + ms * 10 ^ 6)

def checkDeadline (deadline : Option ℕ) (now : ℕ) (stage : String) : PipelineResult Unit :=
  match deadline with
  | some t =>
    if t ≤ now then refuse "ORCHESTRATION_TIMEOUT" s!"wall-clock deadline exceeded (stage={stage})" stage else .ok ()
  | none => .ok ()

/-- the readings of the clock, in nanoseconds: the start of the run, the start of its timeout, the check of each stage, the
check before each sink, and the end -/
structure Clock where
  start : ℕ
  timeoutStart : ℕ
  parse : ℕ
  ingest : ℕ
  transform : ℕ
  sink : ℕ → ℕ
  finish : ℕ

def checkRowBudget (orch : Option OrchestrationSpec) (rows : ℕ) : PipelineResult Unit :=
  match orch.bind OrchestrationSpec.maxIngestedRows with
  | some limit =>
    if 0 < limit ∧ limit < rows then
      refuse "ORCHESTRATION_ROW_BUDGET" s!"ingested {rows} rows exceed max_ingested_rows {limit}" "ingest"
    else .ok ()
  | none => .ok ()

/-! ## What is linked -/

/-- a database of a built feature: its server, and the part of the world that is a table of a URL -/
structure Database (World Server R : Type) where
  server : Server
  table : String → String → Attempt.Part World (Table R)

/-- what the runner calls: the engine, the file system, the object stores and the databases -/
structure Linked (World P O M Bytes : Type) where
  /-- the sources, as a run finds them -/
  connectors : World → Connectors
  engine : Polars.Engine
  displayType : PType → String
  /-- `sql::query` -/
  query : DataFrame → String → IngestionResult DataFrame
  /-- `create_dir_all` of the parent of a path, when it has one -/
  createParent : String → Attempt World String Unit
  /-- `File::create` -/
  createFile : String → Attempt World Polars.IoError Unit
  writeParquet : String → Polars.DataFrame → Attempt World PolarsError Unit
  writeXml : String → List Xml.Event → Attempt World IngestionError Unit
  /-- an object store for the URI -/
  resolveUri : String → Except String Unit
  /-- the bytes of a Parquet file, by way of a temporary file -/
  stageParquet : Polars.DataFrame → Except IngestionError Bytes
  putObject : String → Bytes → Attempt World IngestionError Unit
  /-- whether `SNOWFLAKE_USER` and `SNOWFLAKE_PASSWORD` are set -/
  snowflakeLogin : Bool
  postgres : Option (Database World (PgServer P) P)
  oracle : Option (Database World (OracleServer O) O)
  mssql : Option (Database World (MssqlServer M) M)

/-! ## Writers -/

/-- what a field of a result holds: a JSON value, or an error as it prints, between two texts -/
inductive Detail where
  | json (j : Json)
  | sinkError (e : SinkError)
  | ingestion (before : String) (e : IngestionError) (after : String)
  | pipeline (e : PipelineFault)
deriving Repr

/-- the report of one sink: its kind, its status, and its other fields -/
structure SinkResult where
  kind : String
  status : String
  fields : List (String × Detail)
deriving Repr

namespace Detail

def text (s : String) : Detail := .json (.string s)

def optional (o : Option String) : Detail := .json (optionalText o)

def count (n : ℕ) : Detail := .json (.number (.posInt (.ofNat n)))

end Detail

section Writers

variable {World P O M Bytes : Type} (L : Linked World P O M Bytes)

def exportDatasetToParquet (path : String) (ds : DataSet) : Attempt World Fault Unit := do
  let df ← Attempt.ofExcept (datasetToDataframe L.engine.maxRows ds)
  Attempt.mapError (fun e => .error (.io e)) (L.createFile path)
  Attempt.mapError (fun e => .error (polarsErrorToIngestion "write parquet from DataSet" e)) (L.writeParquet path df)

def exportDatasetToXml (path : String) (ds : DataSet) : Attempt World Fault Unit := do
  Attempt.mapError (fun e => .error (.io e)) (L.createFile path)
  Attempt.mapError .error (L.writeXml path (Xml.exportEvents ds))

def exportDatasetToObjectStoreUri (uri : String) (ds : DataSet) : Attempt World Fault Unit := do
  Attempt.ofExcept ((L.resolveUri uri).mapError fun e => .schemaMismatch s!"invalid object-store URI `{uri}`: {e}")
  let df ← Attempt.ofExcept (datasetToDataframe L.engine.maxRows ds)
  let bytes ← Attempt.ofExcept ((L.stageParquet df).mapError .error)
  Attempt.mapError .error (L.putObject uri bytes)

/-- a local file, its directory made first -/
def fileSink (ioCode writeCode path : String) (write : Attempt World Fault Unit) : Attempt World PipelineFault Unit := do
  Attempt.mapError (fun e => fault ioCode e "sink") (L.createParent path)
  Attempt.mapError (PipelineFault.at writeCode "sink") write

/-- the local path of a handoff -/
def handoffPath (uri : String) : String :=
  if startsWith uri "file://" then String.ofList (uri.toList.drop 7) else uri

def exportDatasetToHandoff (uri : String) (ds : DataSet) : Attempt World PipelineFault Unit :=
  if isObjectStoreUri uri then
    Attempt.mapError (PipelineFault.at "OBJECT_STORE_SINK_FAILED" "sink") (exportDatasetToObjectStoreUri L uri ds)
  else
    fileSink L "PARQUET_SINK_IO_FAILED" "PARQUET_SINK_WRITE_FAILED" (handoffPath uri)
      (exportDatasetToParquet L (handoffPath uri) ds)

def exportDatasetToHandoffUri (uri : String) (ds : DataSet) : Attempt World PipelineFault ℕ := do
  exportDatasetToHandoff L uri ds
  return ds.rowCount

/-! ### Delta and Snowflake -/

def deltaTableUri (warehouse : String) (ns : Option String) (table : String) : String :=
  let base := String.ofList (warehouse.toList.rdropWhile (· = '/'))
  let tablePath := String.ofList (table.toList.dropWhile (· = '/'))
  match ns.filter (· ≠ "") with
  | some n =>
    let nsPath := RustStd.replace n '.' "/"
    s!"{base}/{nsPath}/{tablePath}/"
  | none => s!"{base}/{tablePath}/"

def parquetPartUri (tableUri : String) : String :=
  if endsWith tableUri "/" then s!"{tableUri}part-rdp-000.parquet" else s!"{tableUri}/part-rdp-000.parquet"

def writeDatasetToDeltaTable (tableUri : String) (ds : DataSet) : Attempt World Fault ℕ := do
  exportDatasetToObjectStoreUri L (parquetPartUri tableUri) ds
  return ds.rowCount

def writeDatasetToSnowflakeStage (stageUri : String) (ds : DataSet) : Attempt World Fault ℕ := do
  exportDatasetToObjectStoreUri L stageUri ds
  return ds.rowCount

/-- no driver is linked: the copy is refused, for one of two reasons -/
def copyIntoTableFromStage : Except IngestionError Unit :=
  if L.snowflakeLogin then .error (.schemaMismatch
    ("SNOWFLAKE_USER/PASSWORD are set but in-tree COPY INTO is not linked yet; " ++
      "run COPY FROM the staged Parquet in Snowflake SQL or add snowflake driver in a future release"))
  else .error (.schemaMismatch
    "COPY INTO skipped: set SNOWFLAKE_USER and SNOWFLAKE_PASSWORD to enable (driver not linked in this build)")

end Writers

/-! ## The sinks -/

section Sinks

variable {World P O M Bytes : Type} (L : Linked World P O M Bytes)

/-- the plan under an optional query; a blank query is none -/
def queried (base : DataFrame) (sql : Option String) (stage : String) : PipelineResult DataFrame :=
  match sql with
  | none => .ok base
  | some s =>
    let t := RustStd.trim s
    if t = "" then .ok base else (L.query base t).mapError (PipelineFault.at "TRANSFORM_SQL_FAILED" stage)

def materialize (branch : DataFrame) : PipelineResult DataSet :=
  (branch.collect L.engine L.displayType).mapError (PipelineFault.at "SINK_MATERIALIZATION_FAILED" "sink")

/-- a call whose failure is the sink's result; a panic ends the run -/
def reported {α : Type} (result : Except IngestionError α → SinkResult) (x : Attempt World Fault α) :
    Attempt World PipelineFault SinkResult := do
  match ← Attempt.caught x with
  | .ok a => return result (.ok a)
  | .error (.error e) => return result (.error e)
  | .error .panic => .fail .panic

def localFileSink (kind ioCode writeCode path : String) (write : Attempt World Fault Unit) (ds : DataSet) :
    Attempt World PipelineFault SinkResult := do
  fileSink L ioCode writeCode path write
  return ⟨kind, "ok", [("path", .text path), ("row_count", .count ds.rowCount)]⟩

def tableSink {Server R : Type} (kind failed notBuilt reason : String) (database : Option (Database World Server R))
    (sink : Server → String → String → DataSet → Bool → Bool → Attempt (Table R) SinkError ℕ) (load : TableLoad)
    (ds : DataSet) : Attempt World PipelineFault SinkResult :=
  match database with
  | none => return ⟨kind, "skipped", [("error_code", .text notBuilt), ("reason", .text reason)]⟩
  | some db => do
    let result ← Attempt.caught (Attempt.on (db.table load.url load.table)
      (sink db.server load.url load.table ds load.createTableIfMissing load.truncateBeforeLoad))
    match result with
    | .ok rowCount => return ⟨kind, "ok", [("table", .text load.table), ("row_count", .count rowCount)]⟩
    | .error e =>
      return ⟨kind, "error", [("error_code", .text failed), ("table", .text load.table), ("error", .sinkError e)]⟩

def postgresqlTableSink := tableSink "postgresql" "POSTGRES_SINK_FAILED" "POSTGRES_SINK_NOT_BUILT"
  "rebuild rdp_jvm_sys with --features sink_postgres for libpq COPY from Polars-collected rows" L.postgres
  postgresCopySink

def oracleTableSink := tableSink "oracle" "ORACLE_SINK_FAILED" "ORACLE_SINK_NOT_BUILT"
  "rebuild rdp_jvm_sys with --features sink_oracle for OCI row load" L.oracle oracleRowSink

def mssqlTableSink := tableSink "mssql" "MSSQL_SINK_FAILED" "MSSQL_SINK_NOT_BUILT"
  "rebuild rdp_jvm_sys with --features sink_mssql for TDS row load" L.mssql mssqlRowSink

/-- the place of a table in a warehouse, which a sink may demand -/
def requirePlace (place : Option String) (message : String) : Attempt World PipelineFault String :=
  match place with
  | some w => return w
  | none => .fail (fault "ORCHESTRATION_VALIDATION" message "sink")

def icebergPending (catalogUri : String) (warehouse ns : Option String) (table : String) : SinkResult :=
  ⟨"iceberg", "connector_pending", [("error_code", .text "ICEBERG_CONNECTOR_PENDING"), ("table", .text table),
    ("catalog_uri", .text catalogUri), ("warehouse", .optional warehouse), ("namespace", .optional ns),
    ("detail", .text ("Apache Iceberg REST/thrift catalog client is not linked in this rdp_jvm_sys build; " ++
      "use kind parquet_file for on-disk staging from Rust until the Iceberg connector is enabled."))]⟩

/-- the sink itself, once its plan is collected -/
def writeSink (ds : DataSet) : SinkSpec → Attempt World PipelineFault SinkResult
  | .parquetFile path _ =>
    localFileSink L "parquet_file" "PARQUET_SINK_IO_FAILED" "PARQUET_SINK_WRITE_FAILED" path
      (exportDatasetToParquet L path ds) ds
  | .xmlFile path _ =>
    localFileSink L "xml_file" "XML_SINK_IO_FAILED" "XML_SINK_WRITE_FAILED" path (exportDatasetToXml L path ds) ds
  | .postgresql load _ => postgresqlTableSink L load ds
  | .oracle load _ => oracleTableSink L load ds
  | .mssql load _ => mssqlTableSink L load ds
  | .deltaLake warehouse catalogUri ns table _ => do
    let wh ← requirePlace warehouse "delta_lake sink requires warehouse (s3://, abfss://, or file://)"
    let tableUri := deltaTableUri wh ns table
    reported (fun
      | .ok rowCount => ⟨"delta_lake", "ok", [("table", .text table), ("table_uri", .text tableUri),
          ("warehouse", .optional warehouse), ("catalog_uri", .optional catalogUri), ("namespace", .optional ns),
          ("row_count", .count rowCount)]⟩
      | .error e => ⟨"delta_lake", "error", [("error_code", .text "DELTA_LAKE_SINK_FAILED"),
          ("table_uri", .text tableUri), ("error", .ingestion "" e "")]⟩)
      (writeDatasetToDeltaTable L tableUri ds)
  | .iceberg catalogUri warehouse ns table _ => return icebergPending catalogUri warehouse ns table
  | .snowflake accountUrl _ _ _ table stageUri _ _ => do
    let stage ← requirePlace stageUri "snowflake sink requires stage_uri (s3://, gs://, abfss://, or file://)"
    let stageParquet := if endsWith stage "/" then s!"{stage}load.parquet" else s!"{stage}.parquet"
    reported (fun
      | .ok rowCount => ⟨"snowflake", "ok", [("account_url", .text accountUrl), ("table", .text table),
          ("stage_uri", .text stageParquet), ("row_count", .count rowCount)] ++
          match copyIntoTableFromStage L with
          | .ok () => [("copy_status", .text "ok"), ("copy_detail", .json .null)]
          | .error e => [("copy_status", .text "skipped"), ("copy_detail", .ingestion "stage write ok; COPY INTO skipped (" e
            "). Set SNOWFLAKE_USER/PASSWORD and feature snowflake for automatic COPY.")]⟩
      | .error e => ⟨"snowflake", "error", [("error_code", .text "SNOWFLAKE_SINK_FAILED"), ("error", .ingestion "" e "")]⟩)
      (writeDatasetToSnowflakeStage L stageParquet ds)
  | .databricks workspaceUrl catalogUri warehouse ns table _ => do
    let wh ← requirePlace warehouse "databricks sink requires warehouse (abfss:// or s3://)"
    let tableUri := deltaTableUri wh ns table
    reported (fun
      | .ok rowCount => ⟨"databricks", "ok", [("workspace_url", .text workspaceUrl),
          ("catalog_uri", .optional catalogUri), ("table_uri", .text tableUri), ("row_count", .count rowCount)]⟩
      | .error e => ⟨"databricks", "error", [("error_code", .text "DATABRICKS_SINK_FAILED"),
          ("table_uri", .text tableUri), ("error", .ingestion "" e "")]⟩)
      (writeDatasetToDeltaTable L tableUri ds)
  | .spark master appName handoffUri _ => do
    match ← Attempt.caught (exportDatasetToHandoffUri L handoffUri ds) with
    | .ok rowCount => return ⟨"spark", "ok", [("master", .optional master), ("app_name", .optional appName),
        ("handoff_uri", .text handoffUri), ("row_count", .count rowCount),
        ("detail", .text ("Parquet written by Rust at handoff_uri; " ++
          "Spark driver reads with spark.read.parquet (no JVM connector in rdp_jvm_sys)."))]⟩
    | .error .panic => .fail .panic
    | .error e => return ⟨"spark", "error", [("error_code", .text "SPARK_HANDOFF_FAILED"),
        ("handoff_uri", .text handoffUri), ("error", .pipeline e)]⟩
  | .objectStore uri format _ =>
    let target := if endsWith uri "/" then s!"{uri}data.parquet" else uri
    reported (fun
      | .ok () => ⟨"object_store", "ok", [("uri", .text target), ("scheme", .text (objectStoreScheme target)),
          ("format", .optional format), ("row_count", .count ds.rowCount)]⟩
      | .error e => ⟨"object_store", "error", [("error_code", .text "OBJECT_STORE_SINK_FAILED"), ("uri", .text target),
          ("error", .ingestion "" e "")]⟩)
      (exportDatasetToObjectStoreUri L target ds)

/-- the report of a sink with no connector, which does not collect its plan -/
def pendingSink : SinkSpec → Option SinkResult
  | .deltaLake warehouse catalogUri ns table _ =>
    if deltaLakeWarehouseSupportsLocalStaging warehouse then none
    else some ⟨"delta_lake", "connector_pending", [("error_code", .text "DELTA_LAKE_CONNECTOR_PENDING"),
      ("table", .text table), ("catalog_uri", .optional catalogUri), ("warehouse", .optional warehouse),
      ("namespace", .optional ns),
      ("detail", .text ("Delta Lake catalog commit (ACID log, REST/thrift catalog) is not linked for cloud " ++
        "warehouses in this rdp_jvm_sys build; use warehouse file:// for local Parquet staging from Rust or kind " ++
        "parquet_file for on-disk demos."))]⟩
  | .iceberg catalogUri warehouse ns table _ => some (icebergPending catalogUri warehouse ns table)
  | _ => none

def runSink (base : DataFrame) (sink : SinkSpec) : Attempt World PipelineFault SinkResult := do
  let branch ← Attempt.ofExcept (queried L base sink.sql "sink_sql")
  match pendingSink sink with
  | some result => return result
  | none => do
    let ds ← Attempt.ofExcept (materialize L branch)
    writeSink L ds sink

end Sinks

/-! ## The run -/

/-- what the run has before its first sink -/
structure Prepared where
  request : RunPipelineRequest
  declared : Option Json
  deadline : Option ℕ
  ingested : PipelineSources
  base : DataFrame

structure PipelineReport where
  paths : List String
  ingestedRowCount : ℕ
  orderedBatchPaths : List String
  lastPath : Option String
  pipelineSpecVersion : ℕ
  idempotencyKey : Option String
  elapsedMs : ℕ
  timeoutMs : Option ℕ
  maxIngestedRows : Option ℕ
  sinkResults : List SinkResult
  objectStoreSourceResults : List SourceResult
  fileTransferSourceResults : List SourceResult
  dbSourceResults : List SourceResult
  declaredStagingSchemas : Option Json

def parsePayload : Except String RunPipelineEnvelope → PipelineResult (RunPipelineRequest × Option Json)
  | .error e => .error (fault "ORCHESTRATION_JSON_INVALID" e "parse")
  | .ok (.v1 request) => .ok (request, none)
  | .ok (.legacy spec) => match legacyStudentEtlToV1 spec with
    | .error e => .error (fault "ORCHESTRATION_VALIDATION" e "parse")
    | .ok (request, declared) => .ok (request, some declared)

section Run

variable {World P O M Bytes : Type} (L : Linked World P O M Bytes)

/-- everything before the first sink -/
def prepareRequest (C : Connectors) (clock : Clock) (req : RunPipelineRequest) (declared : Option Json) :
    PipelineResult Prepared := do
  checkRequest req
  let deadline := pipelineDeadline req.orchestration clock.timeoutStart
  checkDeadline deadline clock.parse "parse"
  let opts ← (parseIngestionOptions (if req.sources.options.isNull then .object [] else req.sources.options) none).mapError
    fun e => fault "ORCHESTRATION_VALIDATION" e "parse"
  let ingested ← ingestPipelineSources C req.sources.paths req.sources.objectStoreUris
    req.sources.fileTransferUris req.sources.dbReads req.sources.schema opts
  checkDeadline deadline clock.ingest "ingest"
  checkRowBudget req.orchestration ingested.dataset.rowCount
  let frame ← (DataFrame.fromDataset L.engine ingested.dataset).mapError
    (PipelineFault.at "DATAFRAME_MATERIALIZATION_FAILED" "transform")
  checkDeadline deadline clock.transform "transform"
  let base ← queried L frame req.transform.join "transform"
  pure ⟨req, declared, deadline, ingested, base⟩

/-- the payload is what serde makes of the document -/
def prepare (C : Connectors) (clock : Clock) (payload : Except String RunPipelineEnvelope) : PipelineResult Prepared := do
  let (req, declared) ← parsePayload payload
  prepareRequest L C clock req declared

/-- one turn of the sink loop: the deadline, then the sink -/
def timedSink (clock : Clock) (deadline : Option ℕ) (base : DataFrame) (s : SinkSpec × ℕ) :
    Attempt World PipelineFault SinkResult := do
  Attempt.ofExcept (checkDeadline deadline (clock.sink s.2) "sink")
  runSink L base s.1

def report (clock : Clock) (p : Prepared) (results : List SinkResult) : PipelineReport where
  paths := p.request.sources.paths
  ingestedRowCount := p.ingested.dataset.rowCount
  orderedBatchPaths := p.ingested.metadata.paths
  lastPath := p.ingested.metadata.lastPath
  pipelineSpecVersion := p.request.pipelineSpecVersion
  idempotencyKey := p.request.orchestration.bind OrchestrationSpec.idempotencyKey
  elapsedMs := (clock.finish - clock.start) / 10 ^ 6 % 2 ^ 64
  timeoutMs := p.request.orchestration.bind OrchestrationSpec.timeoutMs
  maxIngestedRows := p.request.orchestration.bind OrchestrationSpec.maxIngestedRows
  sinkResults := results
  objectStoreSourceResults := p.ingested.objectStore
  fileTransferSourceResults := p.ingested.fileTransfer
  dbSourceResults := p.ingested.db
  declaredStagingSchemas := p.declared

def runPipelineImpl (clock : Clock) (payload : Except String RunPipelineEnvelope) :
    Attempt World PipelineFault PipelineReport := do
  let p ← Attempt.reads fun w => prepare L (L.connectors w) clock payload
  let results ← Attempt.collect (timedSink L clock p.deadline p.base) p.request.sinks.zipIdx
  return report clock p results

end Run

end RustDataProcessing.JvmSys
