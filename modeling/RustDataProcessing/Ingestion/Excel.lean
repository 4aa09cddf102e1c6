/-
Spreadsheets (`src/ingestion/excel.rs`): one sheet.

The first row with a cell that is not empty is the header. Every field of the schema is looked up in it by the trimmed
text of its cells, and the rows below are converted cell by cell: an empty cell is a null, a number stands for a truth
value when it is not zero, a text is parsed. Schema inference scans the same rows and keeps one state for each column.

What the spreadsheet library makes of a file is outside the repository: a cell is `Data`, where a date and an error are
given by the texts the source prints of them, and `display` is the text `Data` itself prints as.

- `ingestSheetRange_returns`: which sheets can be read, and the rows they give: one for each row below the header.
-/
import Mathlib.Tactic
import RustDataProcessing.Lib.Display
import RustDataProcessing.Ingestion.Csv

namespace RustDataProcessing.Ingestion.Excel

/-! ## Cells -/

/-- a cell of a sheet (`calamine::Data`) -/
inductive Data where
  | int (i : Int64)
  | float (f : Binary64)
  | string (s : String)
  | bool (b : Bool)
  | dateTime (text : String)
  | dateTimeIso (s : String)
  | durationIso (s : String)
  | error (debug : String)
  | empty
deriving DecidableEq, Repr

/-- the rows of a sheet (`calamine::Range`) -/
abbrev Range := List (List Data)

/-- `*f as i64` -/
def castI64 (f : Binary64) : Int64 := RustStd.saturateI64 (f.truncate.getD 0)

def cellToHeaderString : Data → String
  | .string s => s
  | .int i => RustStd.displayI64 i
  | .float f => if f.isIntegral then RustStd.displayI64 (castI64 f) else RustStd.displayF64 f
  | .bool b => if b then "true" else "false"
  | .dateTime text => text
  | .dateTimeIso s => s
  | .durationIso s => s
  | .error debug => debug
  | .empty => ""

def parseBoolStr (s : String) : Except String Bool := parseBool (RustStd.trim s)

section Cells

variable (display : Data → String)

def cellToString : Data → String
  | .string s => s
  | c => display c

def parseBoolCell (row : ℕ) (column : String) : Data → IngestionResult Bool
  | .bool b => .ok b
  | .int i => .ok (i ≠ 0)
  | .float f => .ok (f.magnitude ≠ 0)
  | .string s => match parseBoolStr s with
    | .ok b => .ok b
    | .error message => .error (.parseError row column (.text s) message)
  | c => .error (.parseError row column (.text (display c)) "expected bool")

def parseI64Cell (row : ℕ) (column : String) : Data → IngestionResult Int64
  | .int i => .ok i
  | .float f =>
    if f.isIntegral then .ok (castI64 f)
    else .error (.parseError row column (.text (display (.float f))) "expected integer (got non-integer float)")
  | .string s => match RustStd.parseI64 (RustStd.trim s) with
    | .ok n => .ok n
    | .error e => .error (.parseError row column (.text s) e.text)
  | c => .error (.parseError row column (.text (display c)) "expected integer")

def parseF64Cell (row : ℕ) (column : String) : Data → IngestionResult Binary64
  | .float f => .ok f
  | .int i => .ok (.ofInt i.toInt)
  | .string s => match RustStd.parseF64 (RustStd.trim s) with
    | .ok x => .ok x
    | .error e => .error (.parseError row column (.text s) e.text)
  | c => .error (.parseError row column (.text (display c)) "expected number")

def convertCell (row : ℕ) (column : String) (dataType : DataType) (c : Data) : IngestionResult Value :=
  if c = .empty then .ok .null
  else match dataType with
    | .utf8 => .ok (.utf8 (cellToString display c))
    | .bool => (parseBoolCell display row column c).map .bool
    | .int64 => (parseI64Cell display row column c).map .int64
    | .float64 => (parseF64Cell display row column c).map .float64

end Cells

/-! ## The header -/

def isNonEmptyRow (row : List Data) : Bool := row.any fun c => c ≠ .empty

def findHeaderRow (range : Range) : IngestionResult (ℕ × List String) :=
  match range.findIdx? isNonEmptyRow with
  | some idx0 => .ok (idx0, (range.getD idx0 []).map cellToHeaderString)
  | none => .error (.schemaMismatch "sheet has no non-empty rows (no header row found)")

def headerColumn (headerCells : List String) (f : Field) : IngestionResult ℕ :=
  match headerCells.findIdx? fun h => RustStd.trim h = f.name with
  | some idx => .ok idx
  | none => .error (.schemaMismatch
      s!"missing required column '{f.name}'. headers={RustStd.debugTexts headerCells}")

def buildHeaderProjection (range : Range) (schema : Schema) : IngestionResult (ℕ × List ℕ × List String) := do
  let (headerRowIdx, headerCells) ← findHeaderRow range
  let colIdxs ← schema.fields.mapM (headerColumn headerCells)
  pure (headerRowIdx, colIdxs, headerCells)

def wrapSchemaErrWithSheet (sheet : String) : Fault → Fault
  | .error (.schemaMismatch message) => .schemaMismatch s!"sheet '{sheet}': {message}"
  | other => other

/-! ## Rows -/

def ingestSheetRange (display : Data → String) (sheet : String) (range : Range) (schema : Schema) :
    IngestionResult (List Row) := do
  let (headerRowIdx, colIdxs, _) ← (buildHeaderProjection range schema).mapError (wrapSchemaErrWithSheet sheet)
  (range.zipIdx.filter fun r => headerRowIdx < r.2).mapM fun (row, idx0) =>
    let userRow := idx0 + 1
    (schema.fields.zip colIdxs).mapM fun (field, colIdx) =>
      convertCell display userRow s!"{sheet}:{field.name}" field.dataType (row.getD colIdx .empty)

/-! ## What a sheet returns -/

/-- the rows below the header -/
def sheetRecords (range : Range) : List (List Data) :=
  match range.findIdx? isNonEmptyRow with
  | some idx0 => range.drop (idx0 + 1)
  | none => []

/-- the column a field is read from -/
def sheetColumn (range : Range) (f : Field) : Option ℕ := do
  let idx0 ← range.findIdx? isNonEmptyRow
  ((range.getD idx0 []).map cellToHeaderString).findIdx? fun h => RustStd.trim h = f.name

/-- what a cell is in a type; row and column are only in the error -/
def dataValue (display : Data → String) (dataType : DataType) (c : Data) : Option Value :=
  (convertCell display 0 "" dataType c).toOption

/-- the cell of a field in a row below the header -/
def sheetCell (display : Data → String) (range : Range) (row : List Data) (f : Field) : Option Value := do
  let colIdx ← sheetColumn range f
  dataValue display f.dataType (row.getD colIdx .empty)

/-- the sheets that can be read: there is a header, it names every field, and every cell of a field can be converted -/
structure SheetAccepts (display : Data → String) (range : Range) (schema : Schema) : Prop where
  header : (range.findIdx? isNonEmptyRow).isSome = true
  columns : ∀ f ∈ schema.fields, (sheetColumn range f).isSome = true
  cells : ∀ row ∈ sheetRecords range, ∀ f ∈ schema.fields, (sheetCell display range row f).isSome = true

def sheetRows (display : Data → String) (range : Range) (schema : Schema) : List Row :=
  (sheetRecords range).map fun row => schema.fields.map fun f => (sheetCell display range row f).getD .null

theorem convertCell_toOption (display : Data → String) (row : ℕ) (column : String) (dt : DataType) (c : Data) :
    (convertCell display row column dt c).toOption = dataValue display dt c := by
  unfold dataValue convertCell
  split_ifs with hempty
  · rfl
  · cases dt with
    | utf8 => rfl
    | bool =>
      cases c with
      | string s => simp only [parseBoolCell]; cases parseBoolStr s <;> rfl
      | _ => rfl
    | int64 =>
      cases c with
      | string s => simp only [parseI64Cell]; cases RustStd.parseI64 (RustStd.trim s) <;> rfl
      | float f => simp only [parseI64Cell]; cases f.isIntegral <;> rfl
      | _ => rfl
    | float64 =>
      cases c with
      | string s => simp only [parseF64Cell]; cases RustStd.parseF64 (RustStd.trim s) <;> rfl
      | _ => rfl

theorem convertCell_returns (display : Data → String) (row : ℕ) (column : String) (dt : DataType) (c : Data) :
    Traverse.Returns (convertCell display row column dt c) ((dataValue display dt c).isSome = true)
      ((dataValue display dt c).getD .null) := by
  rw [← convertCell_toOption display row column]
  exact Traverse.Returns.of_toOption _ _

theorem headerColumn_returns {range : Range} {idx0 : ℕ} (h : range.findIdx? isNonEmptyRow = some idx0) (f : Field) :
    Traverse.Returns (headerColumn ((range.getD idx0 []).map cellToHeaderString) f) ((sheetColumn range f).isSome = true)
      ((sheetColumn range f).getD 0) := by
  have hcol : sheetColumn range f =
      ((range.getD idx0 []).map cellToHeaderString).findIdx? fun h => RustStd.trim h = f.name := by
    rw [sheetColumn, h]
    rfl
  rw [hcol, headerColumn]
  cases ((range.getD idx0 []).map cellToHeaderString).findIdx? fun h => RustStd.trim h = f.name with
  | none => exact Or.inr ⟨nofun, _, rfl⟩
  | some j => exact Or.inl ⟨rfl, rfl⟩

/-- the loop passes over the rows up to the header -/
theorem filter_zipIdx {α : Type} (l : List α) (i : ℕ) :
    (l.zipIdx.filter fun r => i < r.2) = (l.drop (i + 1)).zipIdx (i + 1) := by
  have hsplit : l.zipIdx = (l.take (i + 1)).zipIdx ++ (l.drop (i + 1)).zipIdx (l.take (i + 1)).length := by
    conv_lhs => rw [← List.take_append_drop (i + 1) l, List.zipIdx_append, Nat.zero_add]
  have htake : ((l.take (i + 1)).zipIdx.filter fun r => i < r.2) = [] := by
    rw [List.filter_eq_nil_iff]
    intro r hr
    have := (List.mem_zipIdx' hr).1
    simp only [List.length_take] at this
    rw [decide_eq_true_eq]
    omega
  rw [hsplit, List.filter_append, htake, List.nil_append]
  rcases Nat.lt_or_ge i l.length with hlt | hge
  · rw [List.length_take, Nat.min_eq_left hlt, List.filter_eq_self]
    intro r hr
    have := List.le_snd_of_mem_zipIdx hr
    rw [decide_eq_true_eq]
    omega
  · rw [List.drop_eq_nil_of_le (by omega)]
    rfl

/-- one row below the header -/
theorem sheetRow_returns (display : Data → String) (sheet : String) (range : Range) (schema : Schema) (userRow : ℕ)
    (row : List Data) (hcols : ∀ f ∈ schema.fields, (sheetColumn range f).isSome = true) :
    Traverse.Returns
      ((schema.fields.zip (schema.fields.map fun f => (sheetColumn range f).getD 0)).mapM fun p =>
        convertCell display userRow s!"{sheet}:{p.1.name}" p.1.dataType (row.getD p.2 .empty))
      (∀ f ∈ schema.fields, (sheetCell display range row f).isSome = true)
      (schema.fields.map fun f => (sheetCell display range row f).getD .null) := by
  rw [← List.map_prod_left_eq_zip, List.mapM_map]
  refine Traverse.Returns.mapM fun f hf => ?_
  obtain ⟨j, hj⟩ := Option.isSome_iff_exists.1 (hcols f hf)
  have hcell : sheetCell display range row f = dataValue display f.dataType (row.getD j .empty) := by
    rw [sheetCell, hj]
    rfl
  simp only [Function.comp_def, hcell, hj, Option.getD_some]
  exact convertCell_returns display userRow _ f.dataType _

/-- **What a sheet returns**: one row for each row below its header, if it can be read -/
theorem ingestSheetRange_returns (display : Data → String) (sheet : String) (range : Range) (schema : Schema) :
    Traverse.Returns (ingestSheetRange display sheet range schema) (SheetAccepts display range schema)
      (sheetRows display range schema) := by
  unfold ingestSheetRange buildHeaderProjection findHeaderRow
  cases hidx : range.findIdx? isNonEmptyRow with
  | none =>
    refine Or.inr ⟨fun h => ?_, _, rfl⟩
    have := h.header
    rw [hidx] at this
    cases this
  | some idx0 =>
    have hrecords : sheetRecords range = range.drop (idx0 + 1) := by rw [sheetRecords, hidx]
    have hcols := Traverse.Returns.mapM fun f (_ : f ∈ schema.fields) => headerColumn_returns hidx f
    have hprojection : Traverse.Returns
        ((do
          let colIdxs ← schema.fields.mapM (headerColumn ((range.getD idx0 []).map cellToHeaderString))
          pure (idx0, colIdxs, (range.getD idx0 []).map cellToHeaderString) :
            IngestionResult (ℕ × List ℕ × List String)).mapError (wrapSchemaErrWithSheet sheet))
        ((∀ f ∈ schema.fields, (sheetColumn range f).isSome = true) ∧ True)
        (idx0, schema.fields.map fun f => (sheetColumn range f).getD 0, (range.getD idx0 []).map cellToHeaderString) := by
      refine Traverse.Returns.mapError (Traverse.Returns.bind hcols fun _ => ?_) _
      exact Traverse.Returns.ok _
    have hrows : ∀ (_ : ∀ f ∈ schema.fields, (sheetColumn range f).isSome = true), Traverse.Returns
        ((range.zipIdx.filter fun r => idx0 < r.2).mapM fun r =>
          (schema.fields.zip (schema.fields.map fun f => (sheetColumn range f).getD 0)).mapM fun p =>
            convertCell display (r.2 + 1) s!"{sheet}:{p.1.name}" p.1.dataType (r.1.getD p.2 .empty))
        (∀ row ∈ sheetRecords range, ∀ f ∈ schema.fields, (sheetCell display range row f).isSome = true)
        (sheetRows display range schema) := by
      intro hcols
      rw [filter_zipIdx, ← hrecords]
      refine (Traverse.Returns.mapM fun r _ => sheetRow_returns display sheet range schema (r.2 + 1) r.1 hcols).congr ?_ ?_
      · conv_rhs => rw [← List.zipIdx_map_fst (idx0 + 1) (sheetRecords range), List.forall_mem_map]
      · rw [sheetRows]
        conv_rhs => rw [← List.zipIdx_map_fst (idx0 + 1) (sheetRecords range), List.map_map]
        rfl
    refine (hprojection.bind fun h => hrows h.1).congr ?_ rfl
    constructor
    · rintro ⟨⟨h1, -⟩, h2⟩
      exact ⟨by rw [hidx]; rfl, h1, h2⟩
    · intro h
      exact ⟨⟨h.columns, trivial⟩, h.cells⟩

/-! ## Inference -/

inductive InferState where
  | unknown
  | bool
  | int
  | float
  | utf8
deriving DecidableEq, Repr

namespace InferState

/-- the state a single cell stands for -/
def next : Data → InferState
  | .bool _ => bool
  | .int _ => int
  | .float f => if f.isIntegral then int else float
  | _ => utf8

def observe (st : InferState) (c : Data) : InferState :=
  if c = .empty then st
  else match st, next c with
    | unknown, x => x
    | utf8, _ => utf8
    | _, utf8 => utf8
    | bool, bool => bool
    | int, int => int
    | float, float => float
    | int, float => float
    | float, int => float
    | _, _ => utf8

def finishType : InferState → DataType
  | bool => .bool
  | int => .int64
  | float => .float64
  | utf8 => .utf8
  | unknown => .utf8

/-- the states of all columns, after one more row -/
def observeRow (states : List InferState) (row : List Data) : List InferState :=
  states.zipIdx.map fun s => match row[s.2]? with
    | some c => observe s.1 c
    | none => s.1

end InferState

def inferSchemaFromSheetRange (sheet : String) (range : Range) : IngestionResult Schema := do
  let (headerRowIdx, headerCells) ← findHeaderRow range
  let states := (range.drop (headerRowIdx + 1)).foldl InferState.observeRow
    (List.replicate headerCells.length InferState.unknown)
  let fields := ((headerCells.zip states).map fun p => (⟨RustStd.trim p.1, p.2.finishType⟩ : Field)).filter
    fun f => f.name ≠ ""
  if fields = [] then .error (.schemaMismatch s!"sheet '{sheet}': no header columns found")
  else pure ⟨fields⟩

end RustDataProcessing.Ingestion.Excel
