/-
The two CSV readers (`src/ingestion/csv.rs`).

`ingestCsvFromReader` takes the headers and records of a `csv::Reader` and parses every cell with the field's type.
`ingestCsvFromPath` has the engine read the file, which types the columns by their leading rows, and converts the frame.

A file is a `CsvTable`: a header line and lines of as many cells, in characters that need no quoting. What the engine
makes of a table is a parameter (`CsvEngine`), and `ReadsTables` states what is assumed of it.
-/
import Mathlib.Tactic
import RustDataProcessing.Ingestion.PolarsBridge

namespace RustDataProcessing.Ingestion

open Polars

/-! ## Typed cells -/

def parseBool (s : String) : Except String Bool :=
  let lower := RustStd.toAsciiLowercase s
  if lower ∈ ["true", "t", "1", "yes", "y"] then .ok true
  else if lower ∈ ["false", "f", "0", "no", "n"] then .ok false
  else .error "expected bool (true/false/1/0/yes/no)"

def parseTypedValue (row : ℕ) (column : String) (dataType : DataType) (raw : String) : IngestionResult Value :=
  let trimmed := RustStd.trim raw
  if trimmed = "" then .ok .null
  else match dataType with
    | .utf8 => .ok (.utf8 trimmed)
    | .int64 => match RustStd.parseI64 trimmed with
      | .ok v => .ok (.int64 v)
      | .error e => .error (.parseError row column (.text raw) e.text)
    | .float64 => match RustStd.parseF64 trimmed with
      | .ok v => .ok (.float64 v)
      | .error e => .error (.parseError row column (.text raw) e.text)
    | .bool => match parseBool trimmed with
      | .ok v => .ok (.bool v)
      | .error message => .error (.parseError row column (.text raw) message)

/-! ## From a `csv::Reader` -/

/-- what the reader yields: the header record, then one result for each record -/
structure CsvReader where
  headers : Except CsvError (List String)
  records : List (Except CsvError (List String))

/-- `?` on a reader's result -/
def csvResult {α : Type} : Except CsvError α → IngestionResult α
  | .ok a => .ok a
  | .error e => .error (.error (.csv e))

@[simp] theorem csvResult_ok_bind {α β : Type} (a : α) (f : α → IngestionResult β) :
    (csvResult (.ok a) >>= f) = f a := rfl

def columnIndex (headers : List String) (field : Field) : IngestionResult ℕ :=
  match headers.findIdx? (· = field.name) with
  | some idx => .ok idx
  | none => .error (.schemaMismatch
      s!"missing required column '{field.name}'. headers={RustStd.debugTexts headers}")

def ingestCsvFromReader (rdr : CsvReader) (schema : Schema) : IngestionResult DataSet := do
  let headers ← csvResult rdr.headers
  let colIdxs ← schema.fields.mapM (columnIndex headers)
  let rows ← rdr.records.zipIdx.mapM fun (result, rowIdx0) => do
    let userRow := rowIdx0 + 2
    let record ← csvResult result
    (schema.fields.zip colIdxs).mapM fun (field, csvIdx) =>
      parseTypedValue userRow field.name field.dataType (record.getD csvIdx "")
  pure ⟨schema, rows⟩

/-! ## Tables -/

/-- a header line and lines of cells; no line is blank, since a blank line is no record -/
structure CsvTable where
  header : List String
  rows : List (List String)
  rect : ∀ r ∈ rows, r.length = header.length
  noBlank : ∀ r ∈ header :: rows, r ≠ [] ∧ r ≠ [""]
  unquoted : ∀ r ∈ header :: rows, ∀ c ∈ r, ∀ ch ∈ c.toList, ch ∉ [',', '"', '\n', '\r']

/-- the reader over a table's text -/
def CsvTable.reader (t : CsvTable) : CsvReader := ⟨.ok t.header, t.rows.map .ok⟩

/-- the cells of a column -/
def CsvTable.column (t : CsvTable) (j : ℕ) : List String := t.rows.map fun r => r.getD j ""

/-! ## The engine's reader -/

/-- the types the engine infers for a column -/
inductive CsvType where
  | integer
  | float
  | boolean
  | string
deriving DecidableEq, Repr

def CsvType.dtype : CsvType → PType
  | .integer => .int64
  | .float => .float64
  | .boolean => .boolean
  | .string => .string

/-- how the engine reads a table: the type of a column from its leading cells, a cell with its column's type (none when
it does not parse), and the names it gives the columns -/
structure CsvRules where
  leadingRows : ℕ
  inferType : List String → CsvType
  readCell : CsvType → String → Option AnyValue
  columnNames : List String → List String

namespace CsvRules

variable (R : CsvRules) (t : CsvTable)

def columnType (j : ℕ) : CsvType := R.inferType ((t.column j).take R.leadingRows)

/-- every cell of the file parses with its column's type -/
def Readable : Prop := ∀ j < t.header.length, ∀ c ∈ t.column j, (R.readCell (R.columnType t j) c).isSome

def series (j : ℕ) : Series :=
  ⟨(R.columnNames t.header).getD j "", (R.columnType t j).dtype,
    (t.column j).map fun c => (R.readCell (R.columnType t j) c).getD .null⟩

def frame : DataFrame :=
  ⟨t.rows.length, (List.range t.header.length).map (R.series t), by simp [series, CsvTable.column]⟩

end CsvRules

/-- `finish` and `collect` of the lazy reader; a lazy frame is given by what collecting it returns -/
structure CsvEngine extends Engine, CsvRules where
  finish : CsvTable → Except PolarsError (Except PolarsError DataFrame)

/-- the assumptions on the engine: its rules describe its reader, the cells it reads are scalars, and its casts are not
strict -/
structure CsvEngine.ReadsTables (E : CsvEngine) : Prop where
  cast : E.NonStrict
  scalar : ∀ ty c v, E.readCell ty c = some v → v.isScalar
  reads : ∀ t, E.Readable t → E.finish t = .ok (.ok (E.frame t))
  refuses : ∀ t, ¬ E.Readable t → ∃ e, E.finish t = .ok (.error e)

def ingestCsvFromPath (E : CsvEngine) (file : CsvTable) (schema : Schema) : IngestionResult DataSet :=
  match E.finish file with
  | .error e => .error (.error (polarsErrorToIngestion "failed to read csv with polars" e))
  | .ok (.error e) => .error (.error (polarsErrorToIngestion "failed to collect csv with polars" e))
  | .ok (.ok df) => dataframeToDataset E.toEngine df schema "column" 2

end RustDataProcessing.Ingestion
