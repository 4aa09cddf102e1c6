/-
Workbooks (`src/ingestion/excel.rs`, and the two Excel dispatches of `src/ingestion/unified.rs`): which sheets are read.

The selection becomes an optional list of sheet names. For ingestion no list means all sheets, one after the other;
inference looks at the first sheet of the list only. A call is recorded with the sheets it asks the workbook for
(`SheetReads`), whether they can be read or not.

The selection `First` passes no list.
- `dispatch_first`: so ingestion reads the first sheet, and goes on to the next ones if it can be read.
- `first_is_first_iff`: `First` does what its name says exactly when the first sheet cannot be read, or the workbook has
  no other sheet.
- `second_sheet_ingested`: on a workbook with two sheets both are returned, under a schema inferred of one.
-/
import Mathlib.Tactic
import RustDataProcessing.Ingestion.Records
import RustDataProcessing.Ingestion.Unified

namespace RustDataProcessing.Ingestion

open Excel (Data Range)

namespace Excel

/-! ## Sheets read -/

/-- an open workbook: the names of its sheets in order, and the rows of a sheet by its name -/
structure Workbook where
  sheetNames : List String
  worksheetRange : String → Except String Range

/-- what `open_workbook_auto` returns for a file -/
abbrev WorkbookFile := Except String Workbook

/-- a result, with the sheets asked for on the way to it -/
structure SheetReads (α : Type) where
  sheets : List String
  result : IngestionResult α

def SheetReads.bind {α β : Type} (x : SheetReads α) (f : α → SheetReads β) : SheetReads β :=
  match x.result with
  | .error e => ⟨x.sheets, .error e⟩
  | .ok a => ⟨x.sheets ++ (f a).sheets, (f a).result⟩

instance : Monad SheetReads where
  pure a := ⟨[], .ok a⟩
  bind := SheetReads.bind

/-- a result that reads no sheet -/
def unread {α : Type} (r : IngestionResult α) : SheetReads α := ⟨[], r⟩

/-- `?` on a result of the spreadsheet library -/
def excelResult {α : Type} : Except String α → IngestionResult α
  | .ok a => .ok a
  | .error text => .error (.error (.excel text))

def readSheet (wb : Workbook) (sheet : String) : SheetReads Range := ⟨[sheet], excelResult (wb.worksheetRange sheet)⟩

/-! ## The source -/

section Source

variable (display : Data → String)

/-- the sheet loop -/
def ingestSheets (wb : Workbook) (schema : Schema) : List String → SheetReads (List Row)
  | [] => pure []
  | sheet :: sheets => do
    let range ← readSheet wb sheet
    let sheetRows ← unread (ingestSheetRange display sheet range schema)
    let rest ← ingestSheets wb schema sheets
    pure (sheetRows ++ rest)

/-- the sheets of a call: those named, or all -/
def sheetsOf (wb : Workbook) : Option (List String) → IngestionResult (List String)
  | some names => if names = [] then .error (.schemaMismatch "workbook has no sheets") else .ok names
  | none => if wb.sheetNames = [] then .error (.schemaMismatch "workbook has no sheets") else .ok wb.sheetNames

def ingestExcelWorkbookFromPath (file : WorkbookFile) (sheetNames : Option (List String)) (schema : Schema) :
    SheetReads DataSet := do
  let wb ← unread (excelResult file)
  let sheets ← unread (sheetsOf wb sheetNames)
  let allRows ← ingestSheets display wb schema sheets
  pure ⟨schema, allRows⟩

def ingestExcelFromPath (file : WorkbookFile) (sheetName : Option String) (schema : Schema) : SheetReads DataSet :=
  ingestExcelWorkbookFromPath display file (sheetName.map fun s => [s]) schema

def inferExcelSchemaWorkbookFromPath (file : WorkbookFile) (sheetNames : Option (List String)) : SheetReads Schema := do
  let wb ← unread (excelResult file)
  let sheets ← unread (sheetsOf wb sheetNames)
  let sheet ← unread (index sheets 0)
  let range ← readSheet wb sheet
  unread ((inferSchemaFromSheetRange sheet range).mapError (wrapSchemaErrWithSheet sheet))

def inferExcelSchemaFromPath (file : WorkbookFile) (sheetName : Option String) : SheetReads Schema :=
  inferExcelSchemaWorkbookFromPath file (sheetName.map fun s => [s])

def ingestExcelDispatch (file : WorkbookFile) (schema : Schema) : ExcelSheetSelection → SheetReads DataSet
  | .first => ingestExcelFromPath display file none schema
  | .sheet name => ingestExcelFromPath display file (some name) schema
  | .allSheets => ingestExcelWorkbookFromPath display file none schema
  | .sheets names => ingestExcelWorkbookFromPath display file (some names) schema

def inferExcelSchemaDispatch (file : WorkbookFile) : ExcelSheetSelection → SheetReads Schema
  | .first => inferExcelSchemaFromPath file none
  | .sheet name => inferExcelSchemaFromPath file (some name)
  | .allSheets => inferExcelSchemaWorkbookFromPath file none
  | .sheets names => inferExcelSchemaWorkbookFromPath file (some names)

end Source

/-! ## The sheet loop -/

@[simp] theorem result_bind {α β : Type} (x : SheetReads α) (f : α → SheetReads β) :
    (x >>= f).result = x.result.bind fun a => (f a).result := by
  change (SheetReads.bind x f).result = _
  unfold SheetReads.bind
  cases x.result <;> rfl

@[simp] theorem result_unread {α : Type} (r : IngestionResult α) : (unread r).result = r := rfl

@[simp] theorem unread_ok_bind {α β : Type} (a : α) (f : α → SheetReads β) : (unread (.ok a) >>= f) = f a := by
  change SheetReads.bind _ f = _
  simp [SheetReads.bind, unread]

@[simp] theorem unread_error_bind {α β : Type} (e : Fault) (f : α → SheetReads β) :
    (unread (.error e) >>= f) = ⟨[], .error e⟩ := rfl

section Loop

variable {display : Data → String} {wb : Workbook} {schema : Schema}

/-- the sheet can be read, and gives these rows -/
def SheetGives (display : Data → String) (wb : Workbook) (schema : Schema) (sheet : String) (rows : List Row) : Prop :=
  ∃ range, wb.worksheetRange sheet = .ok range ∧ SheetAccepts display range schema ∧
    rows = sheetRows display range schema

theorem SheetGives.unique {sheet : String} {rows rows' : List Row} (h : SheetGives display wb schema sheet rows)
    (h' : SheetGives display wb schema sheet rows') : rows = rows' := by
  obtain ⟨range, hrange, -, rfl⟩ := h
  obtain ⟨range', hrange', -, rfl⟩ := h'
  rw [hrange] at hrange'
  rw [Except.ok.inj hrange']

/-- a sheet that can be read is read, and the loop goes on -/
theorem ingestSheets_cons {sheet : String} {rows : List Row} (h : SheetGives display wb schema sheet rows)
    (sheets : List String) :
    ingestSheets display wb schema (sheet :: sheets) =
      ⟨sheet :: (ingestSheets display wb schema sheets).sheets,
        (ingestSheets display wb schema sheets).result.map fun rest => rows ++ rest⟩ := by
  obtain ⟨range, hrange, haccepts, rfl⟩ := h
  have hrows : ingestSheetRange display sheet range schema = .ok (sheetRows display range schema) := by
    rcases ingestSheetRange_returns display sheet range schema with ⟨-, hok⟩ | ⟨hnot, -⟩
    · exact hok
    · exact absurd haccepts hnot
  have hread : readSheet wb sheet = ⟨[sheet], .ok range⟩ := by rw [readSheet, hrange, excelResult]
  rw [ingestSheets, hread]
  simp only [bind, SheetReads.bind, hrows, unread]
  cases hrest : (ingestSheets display wb schema sheets).result with
  | error e => simp [Except.map]
  | ok rest => simp [pure, Except.map]

/-- a sheet that cannot be read ends the loop -/
theorem ingestSheets_stops {sheet : String} (h : ∀ rows, ¬ SheetGives display wb schema sheet rows) :
    ∃ e, ∀ sheets, ingestSheets display wb schema (sheet :: sheets) = ⟨[sheet], .error e⟩ := by
  cases hrange : wb.worksheetRange sheet with
  | error text =>
    have hread : readSheet wb sheet = ⟨[sheet], .error (.error (.excel text))⟩ := by rw [readSheet, hrange, excelResult]
    refine ⟨.error (.excel text), fun sheets => ?_⟩
    rw [ingestSheets, hread]
    rfl
  | ok range =>
    have hread : readSheet wb sheet = ⟨[sheet], .ok range⟩ := by rw [readSheet, hrange, excelResult]
    rcases ingestSheetRange_returns display sheet range schema with ⟨haccepts, -⟩ | ⟨-, e, he⟩
    · exact absurd ⟨range, hrange, haccepts, rfl⟩ (h _)
    · refine ⟨e, fun sheets => ?_⟩
      rw [ingestSheets, hread]
      simp only [bind, SheetReads.bind, he, unread]
      rfl

/-- a sheet on its own -/
theorem ingestSheets_single {sheet : String} {rows : List Row} (h : SheetGives display wb schema sheet rows) :
    ingestSheets display wb schema [sheet] = ⟨[sheet], .ok rows⟩ := by
  rw [ingestSheets_cons h]
  change (⟨[sheet], .ok (rows ++ [])⟩ : SheetReads (List Row)) = _
  rw [List.append_nil]

/-- the same sheet, over and over -/
theorem ingestSheets_same {first : String} {rows : List Row} (h : SheetGives display wb schema first rows)
    {sheets : List String} (hsame : ∀ sheet ∈ sheets, sheet = first) :
    ingestSheets display wb schema sheets = ⟨sheets, .ok (sheets.map fun _ => rows).flatten⟩ := by
  induction sheets with
  | nil => rfl
  | cons sheet sheets ih =>
    obtain ⟨rfl, hrest⟩ := List.forall_mem_cons.1 hsame
    rw [ingestSheets_cons h, ih hrest]
    rfl

/-- when only that sheet is read, the list has no other -/
theorem same_of_reads {first : String} {rows : List Row} (h : SheetGives display wb schema first rows)
    {sheets : List String} (hreads : ∀ sheet ∈ (ingestSheets display wb schema sheets).sheets, sheet = first) :
    ∀ sheet ∈ sheets, sheet = first := by
  induction sheets with
  | nil => simp
  | cons sheet sheets ih =>
    have hsheet : sheet = first := by
      apply hreads
      by_cases hgives : ∃ rows, SheetGives display wb schema sheet rows
      · obtain ⟨rows', hrows'⟩ := hgives
        rw [ingestSheets_cons hrows']
        exact List.mem_cons_self
      · rw [not_exists] at hgives
        obtain ⟨e, he⟩ := ingestSheets_stops hgives
        rw [he]
        exact List.mem_cons_self
    subst hsheet
    rw [ingestSheets_cons h, List.forall_mem_cons] at hreads
    exact List.forall_mem_cons.2 ⟨rfl, ih hreads.2⟩

end Loop

/-! ## The reader of path ingestion -/

theorem SheetGives.conforms {display : Data → String} {wb : Workbook} {schema : Schema} {sheet : String} {rows : List Row}
    (h : SheetGives display wb schema sheet rows) : ∀ row ∈ rows, Row.Conforms row schema := by
  obtain ⟨range, -, haccepts, rfl⟩ := h
  have hrows : sheetDataset display sheet range schema = .ok ⟨schema, sheetRows display range schema⟩ := by
    unfold sheetDataset
    rcases ingestSheetRange_returns display sheet range schema with ⟨-, hok⟩ | ⟨hnot, -⟩
    · rw [hok]
      rfl
    · exact absurd haccepts hnot
  exact ((sheetDataset_faithful display sheet range schema).conforms _ hrows).rows

theorem ingestSheets_conforms {display : Data → String} {wb : Workbook} {schema : Schema} {sheets : List String}
    {rows : List Row} (h : (ingestSheets display wb schema sheets).result = .ok rows) :
    ∀ row ∈ rows, Row.Conforms row schema := by
  induction sheets generalizing rows with
  | nil =>
    obtain rfl := Except.ok.inj h
    simp
  | cons sheet sheets ih =>
    by_cases hgives : ∃ rows, SheetGives display wb schema sheet rows
    · obtain ⟨rows', hrows'⟩ := hgives
      rw [ingestSheets_cons hrows'] at h
      cases hrest : (ingestSheets display wb schema sheets).result with
      | error e => rw [hrest] at h; cases h
      | ok rest =>
        rw [hrest] at h
        obtain rfl := Except.ok.inj h
        intro row hrow
        rcases List.mem_append.1 hrow with hrow | hrow
        · exact hrows'.conforms row hrow
        · exact ih hrest row hrow
    · rw [not_exists] at hgives
      obtain ⟨e, he⟩ := ingestSheets_stops hgives
      rw [he] at h
      cases h

theorem workbook_conforms {display : Data → String} {file : WorkbookFile} {sheetNames : Option (List String)}
    {schema : Schema} {ds : DataSet} (h : (ingestExcelWorkbookFromPath display file sheetNames schema).result = .ok ds) :
    ds.Conforms schema := by
  simp only [ingestExcelWorkbookFromPath, result_bind, result_unread] at h
  obtain ⟨wb, -, h⟩ := Traverse.bind_eq_ok h
  obtain ⟨sheets, -, h⟩ := Traverse.bind_eq_ok h
  obtain ⟨rows, hrows, h⟩ := Traverse.bind_eq_ok h
  obtain rfl := Except.ok.inj h
  exact ⟨rfl, ingestSheets_conforms hrows⟩

/-- spreadsheet files, as a reader of path ingestion -/
def excelReader (display : Data → String) (files : String → WorkbookFile) (sel : ExcelSheetSelection) : Reader where
  read path schema := (ingestExcelDispatch display (files path) schema sel).result
  conforms path schema ds h := by
    cases sel <;> exact workbook_conforms h

end Excel

/-! ## The selection `First` -/

section First

open Excel (WorkbookFile Workbook SheetReads SheetAccepts SheetGives ingestSheets ingestExcelDispatch
  inferExcelSchemaDispatch excelReader sheetRecords sheetRows unread)

variable (display : Data → String) (R : Readers) (files : String → WorkbookFile) (path : String) (schema : Schema)

def firstSheet : WorkbookFile → Option String
  | .ok wb => wb.sheetNames.head?
  | .error _ => none

/-- ingestion of a spreadsheet file, with a selection -/
def ingestSelected (options : IngestionOptions) (sel : ExcelSheetSelection) : IngestionResult DataSet :=
  (ingestFromPath { R with excel := excelReader display files } path schema
    { options with excelSheetSelection := sel }).result

/-- `First` returns what the first sheet returns when it is selected by name, and reads the sheets inference reads -/
structure FirstIsFirst : Prop where
  same : ∀ first, firstSheet (files path) = some first → ∀ options,
    ingestSelected display R files path schema options .first =
      ingestSelected display R files path schema options (.sheet first)
  sheets : ∀ sheet, sheet ∈ (inferExcelSchemaDispatch (files path) .first).sheets ↔
    sheet ∈ (ingestExcelDispatch display (files path) schema .first).sheets

/-- the first sheet cannot be read, or there is no other; a further sheet of the same name is the same rows again -/
def FirstAlone (file : WorkbookFile) : Prop :=
  ∀ wb first rest, file = .ok wb → wb.sheetNames = first :: rest →
    (¬ ∃ range, wb.worksheetRange first = .ok range ∧ SheetAccepts display range schema) ∨
      ∀ sheet ∈ rest, sheet = first ∧ ∀ range, wb.worksheetRange first = .ok range → sheetRecords range = []

variable {display R files path schema}

/-- the sheets of the workbook, one after the other, or the first alone -/
theorem dispatch_first {wb : Workbook} {first : String} {rest : List String} (hnames : wb.sheetNames = first :: rest) :
    ingestExcelDispatch display (.ok wb) schema .first =
      ⟨(ingestSheets display wb schema (first :: rest)).sheets,
        (ingestSheets display wb schema (first :: rest)).result.map fun rows => ⟨schema, rows⟩⟩ := by
  simp only [ingestExcelDispatch, Excel.ingestExcelFromPath, Excel.ingestExcelWorkbookFromPath, Option.map_none,
    Excel.excelResult, Excel.unread_ok_bind, Excel.sheetsOf, hnames, if_neg (List.cons_ne_nil first rest)]
  simp only [bind, SheetReads.bind]
  cases (ingestSheets display wb schema (first :: rest)).result <;> simp [Except.map, pure]

theorem dispatch_sheet {wb : Workbook} {first : String} :
    ingestExcelDispatch display (.ok wb) schema (.sheet first) =
      ⟨(ingestSheets display wb schema [first]).sheets,
        (ingestSheets display wb schema [first]).result.map fun rows => ⟨schema, rows⟩⟩ := by
  simp only [ingestExcelDispatch, Excel.ingestExcelFromPath, Excel.ingestExcelWorkbookFromPath, Option.map_some,
    Excel.excelResult, Excel.unread_ok_bind, Excel.sheetsOf, if_neg (List.cons_ne_nil first [])]
  simp only [bind, SheetReads.bind]
  cases (ingestSheets display wb schema [first]).result <;> simp [Except.map, pure]

/-- inference reads the first sheet -/
theorem inferred_sheets {wb : Workbook} {first : String} {rest : List String} (hnames : wb.sheetNames = first :: rest) :
    (inferExcelSchemaDispatch (.ok wb) .first).sheets = [first] := by
  simp only [inferExcelSchemaDispatch, Excel.inferExcelSchemaFromPath, Excel.inferExcelSchemaWorkbookFromPath,
    Option.map_none, Excel.excelResult, Excel.unread_ok_bind, Excel.sheetsOf, hnames,
    if_neg (List.cons_ne_nil first rest), index, List.getElem?_cons_zero]
  simp only [bind, SheetReads.bind, Excel.readSheet]
  cases Excel.excelResult (wb.worksheetRange first) <;> simp [Excel.unread]

/-- path ingestion with two selections, when the dispatch returns the same for both -/
theorem ingestSelected_congr {sel sel' : ExcelSheetSelection}
    (h : (ingestExcelDispatch display (files path) schema sel).result =
      (ingestExcelDispatch display (files path) schema sel').result) (options : IngestionOptions) :
    ingestSelected display R files path schema options sel = ingestSelected display R files path schema options sel' := by
  have hvalidate : ∀ sel, validateWatermarkConfig schema { options with excelSheetSelection := sel } =
      validateWatermarkConfig schema options := fun _ => rfl
  have hformat : ∀ sel, formatFor path { options with excelSheetSelection := sel } = formatFor path options := fun _ => rfl
  unfold ingestSelected ingestFromPath
  simp only [result_bind, result_quiet, hvalidate, hformat]
  congr 1
  funext _
  congr 1
  funext fmt
  cases fmt with
  | excel =>
    simp only [Readers.reader]
    change ((ingestExcelDispatch display (files path) schema sel).result >>= _) =
      ((ingestExcelDispatch display (files path) schema sel').result >>= _)
    rw [h]
    rfl
  | _ => rfl

/-- without filter and limit, path ingestion is the dispatch -/
theorem ingestSelected_plain (sel : ExcelSheetSelection) :
    ingestSelected display R files path schema { format := some .excel } sel =
      (ingestExcelDispatch display (files path) schema sel).result := by
  unfold ingestSelected ingestFromPath
  simp only [result_bind, result_quiet, Readers.reader]
  change ((ingestExcelDispatch display (files path) schema sel).result >>= fun ds => Except.ok ds) = _
  cases (ingestExcelDispatch display (files path) schema sel).result <;> rfl

/-- a sheet that is read again and again gives what it gives once exactly when it is read once or gives no row -/
theorem repeated_eq_iff {rows : List Row} {rest : List String} :
    (((rest.map fun _ => rows).flatten = [])) ↔ rest = [] ∨ rows = [] := by
  cases rest with
  | nil => simp
  | cons sheet rest =>
    simp only [List.map_cons, List.flatten_cons, List.append_eq_nil_iff, reduceCtorEq, false_or]
    constructor
    · rintro ⟨h, -⟩
      exact h
    · rintro rfl
      simp

theorem SheetGives.nil_iff {wb : Workbook} {first : String} {rows : List Row}
    (h : SheetGives display wb schema first rows) :
    rows = [] ↔ ∀ range, wb.worksheetRange first = .ok range → sheetRecords range = [] := by
  obtain ⟨range, hrange, -, rfl⟩ := h
  constructor
  · intro h range' hrange'
    rw [hrange] at hrange'
    obtain rfl := Except.ok.inj hrange'
    exact List.map_eq_nil_iff.1 h
  · intro h
    rw [sheetRows, h range hrange]
    rfl

section Workbook

variable {wb : Workbook} {first : String} {rest : List String} (hfile : files path = .ok wb)
  (hnames : wb.sheetNames = first :: rest)

include hfile hnames

/-- a first sheet that cannot be read is an error either way -/
theorem firstIsFirst_of_unreadable (hnot : ∀ rows, ¬ SheetGives display wb schema first rows) :
    FirstIsFirst display R files path schema := by
  obtain ⟨e, he⟩ := Excel.ingestSheets_stops hnot
  constructor
  · intro first' hfirst' options
    apply ingestSelected_congr
    rw [hfile, firstSheet, hnames] at hfirst'
    obtain rfl := Option.some.inj hfirst'
    rw [hfile, dispatch_first hnames, dispatch_sheet, he, he]
  · intro sheet
    rw [hfile, dispatch_first hnames, inferred_sheets hnames, he]

/-- only the first sheet is read, so every sheet of the workbook is that one; and its rows are returned once -/
theorem alone_of_firstIsFirst {rows : List Row} (hgives : SheetGives display wb schema first rows)
    (h : FirstIsFirst display R files path schema) : ∀ sheet ∈ rest, sheet = first ∧ rows = [] := by
  have hreads : ∀ sheet ∈ (ingestSheets display wb schema (first :: rest)).sheets, sheet = first := by
    intro sheet hsheet
    have hmem := (h.sheets sheet).2
    rw [hfile, dispatch_first hnames, inferred_sheets hnames] at hmem
    exact List.mem_singleton.1 (hmem hsheet)
  have hsame : ∀ sheet ∈ rest, sheet = first := (List.forall_mem_cons.1 (Excel.same_of_reads hgives hreads)).2
  have heq := h.same first (by rw [hfile, firstSheet, hnames]; rfl) { format := some .excel }
  rw [ingestSelected_plain, ingestSelected_plain, hfile, dispatch_first hnames, dispatch_sheet,
    Excel.ingestSheets_cons hgives, Excel.ingestSheets_same hgives hsame, Excel.ingestSheets_single hgives] at heq
  have hrest : (rest.map fun _ => rows).flatten = [] := by simpa [Except.map] using heq
  intro sheet hsheet
  exact ⟨hsame sheet hsheet, (repeated_eq_iff.1 hrest).resolve_left (List.ne_nil_of_mem hsheet)⟩

theorem firstIsFirst_of_alone {rows : List Row} (hgives : SheetGives display wb schema first rows)
    (halone : ∀ sheet ∈ rest, sheet = first ∧ rows = []) : FirstIsFirst display R files path schema := by
  have hsame : ∀ sheet ∈ rest, sheet = first := fun sheet hsheet => (halone sheet hsheet).1
  have hrest : (rest.map fun _ => rows).flatten = [] := by
    rw [repeated_eq_iff]
    by_cases hnil : rest = []
    · exact Or.inl hnil
    · obtain ⟨sheet, hsheet⟩ := List.exists_mem_of_ne_nil rest hnil
      exact Or.inr (halone sheet hsheet).2
  constructor
  · intro first' hfirst' options
    apply ingestSelected_congr
    rw [hfile, firstSheet, hnames] at hfirst'
    obtain rfl := Option.some.inj hfirst'
    rw [hfile, dispatch_first hnames, dispatch_sheet, Excel.ingestSheets_cons hgives,
      Excel.ingestSheets_same hgives hsame, Excel.ingestSheets_single hgives, hrest]
    simp [Except.map]
  · intro sheet
    rw [hfile, dispatch_first hnames, inferred_sheets hnames, Excel.ingestSheets_cons hgives,
      Excel.ingestSheets_same hgives hsame, List.mem_singleton, List.mem_cons]
    constructor
    · exact Or.inl
    · rintro (rfl | hsheet)
      · rfl
      · exact hsame sheet hsheet

end Workbook

/-- without a first sheet there is nothing to compare, and nothing is read -/
theorem firstIsFirst_of_none (h : firstSheet (files path) = none) : FirstIsFirst display R files path schema := by
  constructor
  · intro first hfirst
    rw [h] at hfirst
    cases hfirst
  · intro sheet
    cases hfile : files path with
    | error text => exact Iff.rfl
    | ok wb =>
      rw [hfile, firstSheet, List.head?_eq_none_iff] at h
      simp only [ingestExcelDispatch, Excel.ingestExcelFromPath, Excel.ingestExcelWorkbookFromPath, Option.map_none,
        Excel.excelResult, Excel.unread_ok_bind, Excel.sheetsOf, h, if_true, Excel.unread_error_bind,
        inferExcelSchemaDispatch, Excel.inferExcelSchemaFromPath, Excel.inferExcelSchemaWorkbookFromPath]

/-- **`First` is the first sheet** exactly when that sheet cannot be read, or stands alone -/
theorem first_is_first_iff (display : Data → String) (R : Readers) (files : String → WorkbookFile) (path : String)
    (schema : Schema) : FirstIsFirst display R files path schema ↔ FirstAlone display schema (files path) := by
  cases hfirst : firstSheet (files path) with
  | none =>
    refine iff_of_true (firstIsFirst_of_none hfirst) fun wb first rest hfile hnames => ?_
    rw [hfile, firstSheet, hnames] at hfirst
    cases hfirst
  | some first =>
    cases hfile : files path with
    | error text =>
      rw [hfile] at hfirst
      cases hfirst
    | ok wb =>
      rw [hfile, firstSheet] at hfirst
      obtain ⟨rest, hnames⟩ := List.head?_eq_some_iff.1 hfirst
      have halone : FirstAlone display schema (.ok wb) ↔
          (¬ ∃ range, wb.worksheetRange first = .ok range ∧ SheetAccepts display range schema) ∨
            ∀ sheet ∈ rest, sheet = first ∧ ∀ range, wb.worksheetRange first = .ok range → sheetRecords range = [] := by
        constructor
        · exact fun h => h wb first rest rfl hnames
        · intro h wb' first' rest' hwb hnames'
          obtain rfl := Except.ok.inj hwb
          rw [hnames] at hnames'
          obtain ⟨rfl, rfl⟩ := List.cons.inj hnames'
          exact h
      rw [halone]
      by_cases hreadable : ∃ range, wb.worksheetRange first = .ok range ∧ SheetAccepts display range schema
      · obtain ⟨range, hrange, haccepts⟩ := hreadable
        have hgives : SheetGives display wb schema first (sheetRows display range schema) := ⟨range, hrange, haccepts, rfl⟩
        rw [← SheetGives.nil_iff hgives]
        constructor
        · intro h
          exact Or.inr (alone_of_firstIsFirst hfile hnames hgives h)
        · intro h
          exact firstIsFirst_of_alone hfile hnames hgives (h.resolve_left fun hnot => hnot ⟨range, hrange, haccepts⟩)
      · refine iff_of_true (firstIsFirst_of_unreadable hfile hnames ?_) (Or.inl hreadable)
        rintro rows ⟨range, hrange, haccepts, -⟩
        exact hreadable ⟨range, hrange, haccepts⟩

/-- two sheets of one column, with one row each -/
def twoSheets : Workbook where
  sheetNames := ["a", "b"]
  worksheetRange
    | "a" => .ok [[.string "id"], [.int 1]]
    | "b" => .ok [[.string "id"], [.int 2]]
    | _ => .error "worksheet not found"

/-- the rows of both sheets are returned, where the first sheet has one -/
theorem second_sheet_ingested :
    ¬ ∀ (display : Data → String) (R : Readers) (files : String → WorkbookFile) (path : String) (schema : Schema),
      FirstIsFirst display R files path schema := by
  intro h
  have hunread : Reader := ⟨fun _ _ => .error .panic, fun _ _ _ h => by cases h⟩
  have hfirst := h (fun _ => "") ⟨hunread, hunread, hunread, fun _ => hunread, hunread⟩ (fun _ => .ok twoSheets) "book.xlsx"
    ⟨[⟨"id", .int64⟩]⟩
  have hsame := hfirst.same "a" rfl { format := some .excel }
  rw [ingestSelected_plain, ingestSelected_plain] at hsame
  have hall : (ingestExcelDispatch (fun _ => "") (.ok twoSheets) ⟨[⟨"id", .int64⟩]⟩ .first).result.toOption =
    some ⟨⟨[⟨"id", .int64⟩]⟩, [[.int64 1], [.int64 2]]⟩ := by decide
  have hone : (ingestExcelDispatch (fun _ => "") (.ok twoSheets) ⟨[⟨"id", .int64⟩]⟩ (.sheet "a")).result.toOption =
    some ⟨⟨[⟨"id", .int64⟩]⟩, [[.int64 1]]⟩ := by decide
  rw [hsame, hone] at hall
  revert hall
  decide

end First

end RustDataProcessing.Ingestion
