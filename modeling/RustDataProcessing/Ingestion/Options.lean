/-
Formats, sheet selection and the options of path ingestion (`src/ingestion/unified.rs`). The observer itself is outside
the model: `observer` says whether one is set, and the calls made to it are recorded where they are made.
-/
import Mathlib.Tactic
import RustDataProcessing.Lib.RustStd
import RustDataProcessing.Types
import RustDataProcessing.Error

namespace RustDataProcessing.Ingestion

inductive IngestionFormat where
  | csv
  | json
  | parquet
  | excel
  | xml
deriving DecidableEq, Repr

def IngestionFormat.fromExtension (ext : String) : Option IngestionFormat :=
  let ext := RustStd.toAsciiLowercase ext
  if ext = "csv" then some .csv
  else if ext = "json" ∨ ext = "ndjson" then some .json
  else if ext = "parquet" ∨ ext = "pq" then some .parquet
  else if ext = "xlsx" ∨ ext = "xls" ∨ ext = "xlsm" ∨ ext = "xlsb" ∨ ext = "ods" then some .excel
  else if ext = "xml" then some .xml
  else none

inductive ExcelSheetSelection where
  | first
  | sheet (name : String)
  | allSheets
  | sheets (names : List String)
deriving DecidableEq, Repr

structure IngestionOptions where
  format : Option IngestionFormat := none
  excelSheetSelection : ExcelSheetSelection := .first
  observer : Bool := false
  alertAtOrAbove : IngestionSeverity := .critical
  watermarkColumn : Option String := none
  watermarkExclusiveAbove : Option Value := none
  maxRows : Option ℕ := none
deriving DecidableEq, Repr

end RustDataProcessing.Ingestion
