/-
The order of the columns in a source (`src/ingestion/csv.rs`, `src/ingestion/excel.rs`).

Both readers look every field of the schema up in the header and read the cells of a row in the schema's order. So a table
with its columns in another order, and with further ones between them, gives the same dataset or the same error; only the
message of a missing column quotes the headers. A CSV header is looked up as it is, a cell of a sheet's header by its
trimmed text.

- `column_order_irrelevant`: both readers, for headers with distinct names.
- `untrimmed_headers_collide`: header texts that differ in white space name one column of a sheet.
-/
import Mathlib.Tactic
import RustDataProcessing.Lib.Columns
import RustDataProcessing.Lib.Related
import RustDataProcessing.Ingestion.Excel

namespace RustDataProcessing.Ingestion

open Columns (Table Rearranged)
open Traverse (Related)

/-! ## Rows -/

section Rows

variable {α : Type}

/-- a column of one table and a column of another with the same cells -/
def SameColumn (blank : α) (rows rows' : List (List α)) (i i' : ℕ) : Prop :=
  List.Forall₂ (fun r r' => r.getD i blank = r'.getD i' blank) rows rows'

/-- errors that are the same, up to the headers in the message of a missing column -/
inductive SameError (missing missing' : Field → Fault) : Fault → Fault → Prop where
  | same (e : Fault) : SameError missing missing' e e
  | missing (f : Field) : SameError missing missing' (missing f) (missing' f)

variable {blank : α} {rows rows' : List (List α)} {S : Fault → Fault → Prop}

/-- the loop over the rows, with a loop over the fields in it -/
theorem rows_related (hS : ∀ e, S e e) (fields : List Field) (call : ℕ → Field → α → IngestionResult Value)
    (hlength : rows.length = rows'.length) {idxs idxs' : List ℕ}
    (h : List.Forall₂ (SameColumn blank rows rows') idxs idxs') (n : ℕ) :
    Related Eq S ((rows.zipIdx n).mapM fun p => (fields.zip idxs).mapM fun q => call p.2 q.1 (p.1.getD q.2 blank))
      ((rows'.zipIdx n).mapM fun p => (fields.zip idxs').mapM fun q => call p.2 q.1 (p.1.getD q.2 blank)) := by
  have heq : ∀ {β : Type} (l l' : List β), List.Forall₂ Eq l l' → l = l' := by
    intro β l l' hl
    rwa [List.forall₂_eq_eq_eq] at hl
  have hrows := Traverse.forall₂_zipIdx (Traverse.forall₂_swap hlength h) n
  apply (Related.mapM (hrows.imp fun p p' hp => ?_)).mono heq fun _ _ he => he
  obtain ⟨hcells, hrow⟩ := hp
  apply (Related.mapM ((Traverse.forall₂_zip fields hcells).imp fun q q' hq => ?_)).mono heq fun _ _ he => he
  obtain ⟨hfield, hcell⟩ := hq
  rw [hrow, hfield, hcell]
  exact Related.refl hS _

end Rows

/-! ## CSV -/

/-- the reader over a table -/
def csvReader (t : Table String) : CsvReader := ⟨.ok t.header, t.rows.map .ok⟩

def csvMissing (t : Table String) (f : Field) : Fault :=
  .schemaMismatch s!"missing required column '{f.name}'. headers={RustStd.debugTexts t.header}"

theorem ingestCsv_eq (t : Table String) (schema : Schema) :
    ingestCsvFromReader (csvReader t) schema = (do
      let colIdxs ← schema.fields.mapM (columnIndex t.header)
      let rows ← t.rows.zipIdx.mapM fun p => (schema.fields.zip colIdxs).mapM fun q =>
        parseTypedValue (p.2 + 2) q.1.name q.1.dataType (p.1.getD q.2 "")
      pure ⟨schema, rows⟩) := by
  simp only [ingestCsvFromReader, csvReader, csvResult_ok_bind, List.zipIdx_map, List.mapM_map]
  rfl

theorem columnIndex_related {names : List String} {t t' : Table String} (h : Rearranged "" id names t t')
    (hdistinct : t.header.Nodup) {f : Field} (hf : f.name ∈ names) :
    Related (SameColumn "" t.rows t'.rows) (SameError (csvMissing t) (csvMissing t')) (columnIndex t.header f)
      (columnIndex t'.header f) := by
  have hfind : ∀ header : List String, Columns.find id header f.name = header.findIdx? (· = f.name) := fun _ => rfl
  have hcases := h.find (by simpa using hdistinct) hf
  rw [hfind, hfind] at hcases
  rcases hcases with ⟨hnone, hnone'⟩ | ⟨i, i', hsome, hsome', hcells⟩
  · rw [columnIndex, columnIndex, hnone, hnone']
    exact .error (.missing f)
  · rw [columnIndex, columnIndex, hsome, hsome']
    exact .ok hcells

theorem ingestCsv_related {schema : Schema} {t t' : Table String}
    (h : Rearranged "" id (schema.fields.map Field.name) t t') (hdistinct : t.header.Nodup) :
    Related Eq (SameError (csvMissing t) (csvMissing t')) (ingestCsvFromReader (csvReader t) schema)
      (ingestCsvFromReader (csvReader t') schema) := by
  rw [ingestCsv_eq, ingestCsv_eq]
  have hcols := Related.mapM (List.forall₂_same.2 fun f (hf : f ∈ schema.fields) =>
    columnIndex_related h hdistinct (List.mem_map_of_mem hf))
  apply hcols.bind
  intro idxs idxs' hidxs
  apply (rows_related .same schema.fields
    (fun k f c => parseTypedValue (k + 2) f.name f.dataType c) h.height hidxs 0).bind
  rintro rows _ rfl
  exact .ok rfl

/-! ## Sheets -/

open Excel (Data isNonEmptyRow cellToHeaderString)

/-- the name a header cell gives its column -/
def headerName (c : Data) : String := RustStd.trim (cellToHeaderString c)

/-- a sheet with its header in the first row that is not empty -/
structure Sheet where
  above : List (List Data)
  table : Table Data
  blank : ∀ r ∈ above, isNonEmptyRow r = false
  header : isNonEmptyRow table.header = true

namespace Sheet

def range (s : Sheet) : Excel.Range := s.above ++ s.table.header :: s.table.rows

def headerCells (s : Sheet) : List String := s.table.header.map cellToHeaderString

def missingColumn (s : Sheet) (f : Field) : Fault :=
  .schemaMismatch s!"missing required column '{f.name}'. headers={RustStd.debugTexts s.headerCells}"

def missing (sheet : String) (s : Sheet) (f : Field) : Fault := Excel.wrapSchemaErrWithSheet sheet (s.missingColumn f)

theorem findIdx_range (s : Sheet) : s.range.findIdx? isNonEmptyRow = some s.above.length := by
  have habove : s.above.findIdx? isNonEmptyRow = none := by
    simpa [List.findIdx?_eq_none_iff] using s.blank
  simp [range, List.findIdx?_append, habove, List.findIdx?_cons, s.header]

theorem ingest_eq (display : Data → String) (sheet : String) (s : Sheet) (schema : Schema) :
    Excel.ingestSheetRange display sheet s.range schema = (do
      let colIdxs ← (schema.fields.mapM (Excel.headerColumn s.headerCells)).mapError (Excel.wrapSchemaErrWithSheet sheet)
      (s.table.rows.zipIdx (s.above.length + 1)).mapM fun p => (schema.fields.zip colIdxs).mapM fun q =>
        Excel.convertCell display (p.2 + 1) s!"{sheet}:{q.1.name}" q.1.dataType (p.1.getD q.2 .empty)) := by
  have hheader : s.range.getD s.above.length [] = s.table.header := by
    simp [range, List.getD_eq_getElem?_getD]
  have hbelow : (s.range.zipIdx.filter fun r => s.above.length < r.2) = s.table.rows.zipIdx (s.above.length + 1) := by
    rw [Excel.filter_zipIdx]
    congr 1
    simp [range, List.drop_append]
  unfold Excel.ingestSheetRange Excel.buildHeaderProjection Excel.findHeaderRow
  rw [s.findIdx_range]
  simp only [hheader]
  change (Except.mapError _ ((schema.fields.mapM (Excel.headerColumn s.headerCells)) >>= _) >>= _) = _
  cases schema.fields.mapM (Excel.headerColumn s.headerCells) with
  | error e => rfl
  | ok colIdxs =>
    rw [← hbelow]
    rfl

theorem headerColumn_related {names : List String} {s s' : Sheet}
    (h : Rearranged .empty headerName names s.table s'.table) (hdistinct : (s.table.header.map headerName).Nodup)
    {f : Field} (hf : f.name ∈ names) :
    Related (SameColumn .empty s.table.rows s'.table.rows)
      (SameError s.missingColumn s'.missingColumn) (Excel.headerColumn s.headerCells f)
      (Excel.headerColumn s'.headerCells f) := by
  have hfind : ∀ s : Sheet, Columns.find headerName s.table.header f.name =
      s.headerCells.findIdx? fun t => RustStd.trim t = f.name := by
    intro s
    simp only [Columns.find, headerCells, List.findIdx?_map, Function.comp_def]
    rfl
  have hcases := h.find hdistinct hf
  rw [hfind, hfind] at hcases
  rcases hcases with ⟨hnone, hnone'⟩ | ⟨i, i', hsome, hsome', hcells⟩
  · rw [Excel.headerColumn, Excel.headerColumn, hnone, hnone']
    exact .error (.missing f)
  · rw [Excel.headerColumn, Excel.headerColumn, hsome, hsome']
    exact .ok hcells

theorem ingest_related (display : Data → String) (sheet : String) {schema : Schema} {s s' : Sheet}
    (h : Rearranged .empty headerName (schema.fields.map Field.name) s.table s'.table)
    (habove : s.above.length = s'.above.length) (hdistinct : (s.table.header.map headerName).Nodup) :
    Related Eq (SameError (s.missing sheet) (s'.missing sheet)) (Excel.ingestSheetRange display sheet s.range schema)
      (Excel.ingestSheetRange display sheet s'.range schema) := by
  rw [ingest_eq, ingest_eq, ← habove]
  have hcols := Related.mapM (List.forall₂_same.2 fun f (hf : f ∈ schema.fields) =>
    headerColumn_related h hdistinct (List.mem_map_of_mem hf))
  refine (hcols.mapError fun e e' he => ?_).bind fun idxs idxs' hidxs => ?_
  · cases he with
    | same => exact .same _
    | missing f => exact .missing f
  · exact rows_related .same schema.fields
      (fun k f c => Excel.convertCell display (k + 1) s!"{sheet}:{f.name}" f.dataType c) h.height hidxs _

end Sheet

/-- **The order of the columns does not matter**: with the columns in another order and further ones between them, a CSV
table whose headers are distinct, and a sheet whose headers are distinct when trimmed, give the same dataset or the same
error, up to the headers quoted when a column is missing -/
theorem column_order_irrelevant :
    (∀ (schema : Schema) (t t' : Table String), t.header.Nodup →
      Rearranged "" id (schema.fields.map Field.name) t t' →
      Related Eq (SameError (csvMissing t) (csvMissing t')) (ingestCsvFromReader (csvReader t) schema)
        (ingestCsvFromReader (csvReader t') schema)) ∧
    ∀ (display : Data → String) (sheet : String) (schema : Schema) (s s' : Sheet), s.above.length = s'.above.length →
      (s.table.header.map headerName).Nodup →
      Rearranged .empty headerName (schema.fields.map Field.name) s.table s'.table →
      Related Eq (SameError (s.missing sheet) (s'.missing sheet)) (Excel.ingestSheetRange display sheet s.range schema)
        (Excel.ingestSheetRange display sheet s'.range schema) :=
  ⟨fun _ _ _ hdistinct h => ingestCsv_related h hdistinct,
    fun display sheet _ _ _ habove hdistinct h => Sheet.ingest_related display sheet h habove hdistinct⟩

def idColumn : Schema := ⟨[⟨"id", .int64⟩]⟩

def idName : Table String := ⟨["id", "name"], [["1", "Ada"]], by decide⟩

def nameId : Table String := ⟨["name", "id", "age"], [["Ada", "1", "36"]], by decide⟩

/-- a sheet of texts, all of them below the header -/
def sheetOf (t : Table String) (h : t.header ≠ []) : Sheet where
  above := []
  table := ⟨t.header.map .string, t.rows.map fun r => r.map .string, by simpa using t.rect⟩
  blank := by simp
  header := by
    obtain ⟨c, cs, hcs⟩ := List.exists_cons_of_ne_nil h
    simp [isNonEmptyRow, hcs]

theorem reordered_people :
    Related Eq (SameError (csvMissing idName) (csvMissing nameId)) (ingestCsvFromReader (csvReader idName) idColumn)
      (ingestCsvFromReader (csvReader nameId) idColumn) ∧
    Related Eq (SameError ((sheetOf idName (by decide)).missing "S") ((sheetOf nameId (by decide)).missing "S"))
      (Excel.ingestSheetRange (fun _ => "") "S" (sheetOf idName (by decide)).range idColumn)
      (Excel.ingestSheetRange (fun _ => "") "S" (sheetOf nameId (by decide)).range idColumn) :=
  ⟨column_order_irrelevant.1 _ _ _ (by decide) ⟨rfl, [("age", ["36"])], by decide, by decide⟩,
    column_order_irrelevant.2 _ _ _ _ _ rfl (by decide) ⟨rfl, [(.string "age", [.string "36"])], by decide, by decide⟩⟩

/-- two headers that differ in white space only -/
def spacedIds : Sheet := sheetOf ⟨[" id", "id"], [["1", "2"]], by decide⟩ (by decide)

def idsSpaced : Sheet := sheetOf ⟨["id", " id"], [["2", "1"]], by decide⟩ (by decide)

def onlyId : Sheet := sheetOf ⟨["id"], [["2"]], by decide⟩ (by decide)

/-- **Untrimmed headers collide**: with the headers "id" and " id", distinct as texts, the first of the two columns is read;
and a further column " id" is read when it stands before the column "id" -/
theorem untrimmed_headers_collide :
    (spacedIds.table.header.map cellToHeaderString).Nodup ∧
    Rearranged .empty cellToHeaderString (idColumn.fields.map Field.name) spacedIds.table idsSpaced.table ∧
    Rearranged .empty cellToHeaderString (idColumn.fields.map Field.name) onlyId.table spacedIds.table ∧
    Excel.ingestSheetRange (fun _ => "") "S" spacedIds.range idColumn = .ok [[.int64 1]] ∧
    Excel.ingestSheetRange (fun _ => "") "S" idsSpaced.range idColumn = .ok [[.int64 2]] ∧
    Excel.ingestSheetRange (fun _ => "") "S" onlyId.range idColumn = .ok [[.int64 2]] := by
  refine ⟨by decide, ⟨rfl, [], by decide, by decide⟩, ⟨rfl, [(.string " id", [.string "1"])], by decide, by decide⟩, ?_⟩
  exact ⟨rfl, rfl, rfl⟩

end RustDataProcessing.Ingestion
