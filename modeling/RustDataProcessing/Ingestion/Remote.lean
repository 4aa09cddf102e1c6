/-
Files behind a URI (`src/ingestion/object_store.rs`, `src/ingestion/file_transfer.rs`): the file is copied to a local path
and read like a local file.

The stores and servers themselves are outside the repository (`Remote`). The format comes from the path the URI names,
by a shorter table than that of local files, and the local copy is read with it.

- `ingestRemote_ok`: what such a call returns when the copy can be read.
-/
import Mathlib.Tactic
import RustDataProcessing.Lib.Traverse
import RustDataProcessing.Ingestion.Unified

namespace RustDataProcessing.Ingestion

/-- an object store or a file server: the path in a URI, and the local copy made under a suffix -/
structure Remote where
  resolve : String → IngestionResult String
  download : String → String → IngestionResult String

/-! ## The source -/

/-- `infer_format_from_object_path`, `infer_format_from_remote_path` -/
def inferFormatFromRemotePath (what path : String) (options : IngestionOptions) : IngestionResult IngestionFormat :=
  match options.format with
  | some f => .ok f
  | none =>
    let ext := RustStd.toAsciiLowercase ((RustStd.extension path).getD "")
    if ext = "csv" then .ok .csv
    else if ext = "json" ∨ ext = "ndjson" then .ok .json
    else if ext = "parquet" then .ok .parquet
    else if ext = "xml" then .ok .xml
    else .error (.schemaMismatch s!"cannot infer ingest format from {what} `{path}`; set sources.options.format")

def downloadSuffix (unsupported : String) : IngestionFormat → IngestionResult String
  | .csv => .ok ".csv"
  | .json => .ok ".json"
  | .parquet => .ok ".parquet"
  | .xml => .ok ".xml"
  | .excel => .error (.schemaMismatch unsupported)

/-- the local copy of a file, and its format -/
def fetchRemote (remote : Remote) (what unsupported uri : String) (options : IngestionOptions) :
    IngestionResult (String × IngestionFormat) := do
  let path ← remote.resolve uri
  let fmt ← inferFormatFromRemotePath what path options
  let suffix ← downloadSuffix unsupported fmt
  let copy ← remote.download uri suffix
  pure (copy, fmt)

def ingestRemote (R : Readers) (remote : Remote) (what unsupported uri : String) (schema : Schema)
    (options : IngestionOptions) : IngestionResult DataSet := do
  let (copy, fmt) ← fetchRemote remote what unsupported uri options
  (ingestFromPath R copy schema { options with format := some fmt }).result

def ingestFromObjectStoreUri (R : Readers) (store : Remote) (uri : String) (schema : Schema)
    (options : IngestionOptions) : IngestionResult DataSet :=
  ingestRemote R store "object path" "excel ingest from object store is not supported" uri schema options

def fileTransferScheme (uri : String) : Option String :=
  let lower := (RustStd.toAsciiLowercase uri).toList
  if "sftp://".toList.isPrefixOf lower then some "sftp"
  else if "ftps://".toList.isPrefixOf lower then some "ftps"
  else if "ftp://".toList.isPrefixOf lower then some "ftp"
  else none

def ingestFromFileTransferUri (R : Readers) (server : Remote) (uri : String) (schema : Schema)
    (options : IngestionOptions) : IngestionResult DataSet :=
  match fileTransferScheme uri with
  | none =>
    .error (.schemaMismatch s!"not a file-transfer URI (expected sftp://, ftp://, or ftps://): `{uri}`")
  | some _ =>
    ingestRemote R server "remote path" "excel ingest from file-transfer URIs is not supported" uri schema options

/-! ## What it returns -/

/-- one file on its own: read in full, filtered, cut off -/
theorem ingestFromPath_ok {R : Readers} {path : String} {schema : Schema} {options : IngestionOptions} {ds : DataSet}
    (hv : validateWatermarkConfig schema options = .ok ()) (hread : readFile R schema options path = .ok ds) :
    (ingestFromPath R path schema options).result =
      .ok ⟨schema, limitRows options.maxRows (ds.rows.filter (aboveFloor schema options))⟩ := by
  have hconf := readFile_conforms hread
  obtain ⟨fmt, hfmt, hread⟩ := Traverse.bind_eq_ok hread
  simp only [ingestFromPath, result_bind, result_quiet, hv, hfmt, Except.bind]
  rw [hread]
  change (applyWatermarkAfterIngest ds schema options).bind _ = _
  rw [applyWatermarkAfterIngest_ok hconf hv]
  exact congrArg Except.ok (applyMaxRows_eq _ _)

/-- the file behind a URI, read in full and on its own -/
def readRemote (R : Readers) (remote : Remote) (what unsupported uri : String) (schema : Schema)
    (options : IngestionOptions) : IngestionResult DataSet := do
  let (copy, fmt) ← fetchRemote remote what unsupported uri options
  readFile R schema { options with format := some fmt } copy

theorem readRemote_conforms {R : Readers} {remote : Remote} {what unsupported uri : String} {schema : Schema}
    {options : IngestionOptions} {ds : DataSet} (h : readRemote R remote what unsupported uri schema options = .ok ds) :
    ds.Conforms schema := by
  obtain ⟨⟨copy, fmt⟩, -, hread⟩ := Traverse.bind_eq_ok h
  exact readFile_conforms hread

/-- **A readable remote file** is filtered and cut off like a local one -/
theorem ingestRemote_ok {R : Readers} {remote : Remote} {what unsupported uri : String} {schema : Schema}
    {options : IngestionOptions} {ds : DataSet} (hv : validateWatermarkConfig schema options = .ok ())
    (h : readRemote R remote what unsupported uri schema options = .ok ds) :
    ingestRemote R remote what unsupported uri schema options =
      .ok ⟨schema, limitRows options.maxRows (ds.rows.filter (aboveFloor schema options))⟩ := by
  obtain ⟨⟨copy, fmt⟩, hfetch, hread⟩ := Traverse.bind_eq_ok h
  unfold ingestRemote
  rw [hfetch]
  exact @ingestFromPath_ok _ _ _ { options with format := some fmt } _ hv hread

end RustDataProcessing.Ingestion
