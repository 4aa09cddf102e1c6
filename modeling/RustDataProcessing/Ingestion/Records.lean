/-
What a reader that returns has read: the readers over text (`csv.rs`, `json.rs`, `xml.rs`, `excel.rs`), side by side.

Each reader has its own notion of a record (a line, a JSON object, a row below the header, an element) and of the cell a
field has in it. A reader is faithful when the dataset it returns conforms to the schema and has one row for each record,
in order, made of the records' cells; a cell that cannot be converted fails the whole call (`Faithful`).

- `readers_faithful`: all four are faithful.
- `text_means_the_same_iff`: one text under one type is the same cell in CSV, XML and a spreadsheet exactly when it is not
  blank, has no blanks around it if it is text, and is not one of the one-letter spellings of a truth value.
- `blank_cell_differs`: a blank cell is null in a CSV file and text in a spreadsheet.
-/
import Mathlib.Tactic
import RustDataProcessing.Ingestion.CsvAgreement
import RustDataProcessing.Ingestion.Excel
import RustDataProcessing.Ingestion.JsonReader
import RustDataProcessing.Ingestion.XmlRecords

open Xml (Event Codec)

namespace RustDataProcessing.Ingestion

open Traverse (Returns)

/-! ## Faithful readers -/

structure Faithful {R : Type} (cell : R → Field → Option Value) (records : List R) (schema : Schema)
    (out : IngestionResult DataSet) : Prop where
  conforms : ∀ ds, out = .ok ds → ds.Conforms schema
  rows : ∀ ds, out = .ok ds →
    List.Forall₂ (fun r row => List.Forall₂ (fun f v => cell r f = some v) schema.fields row) records ds.rows
  fails : (∃ r ∈ records, ∃ f ∈ schema.fields, cell r f = none) → ∃ e, out = .error (.error e)

section Records

variable {R : Type} {cell : R → Field → Option Value} {records : List R} {schema : Schema}

/-- a reader that returns rows of the records alone is faithful -/
theorem Faithful.of_rows {out : IngestionResult DataSet} (hans : Answers out)
    (hrows : ∀ ds, out = .ok ds → ds.schema = schema ∧
      List.Forall₂ (fun r row => List.Forall₂ (fun f v => cell r f = some v) schema.fields row) records ds.rows)
    (hfits : ∀ r f v, cell r f = some v → v.fits f.dataType) : Faithful cell records schema out where
  conforms ds hds := by
    obtain ⟨hschema, hall⟩ := hrows ds hds
    refine ⟨hschema, fun row hrow => ?_⟩
    obtain ⟨r, -, hrow⟩ := Traverse.exists_of_mem hall.flip hrow
    exact (hrow.imp fun f v hv => hfits r f v hv).flip
  rows ds hds := (hrows ds hds).2
  fails := by
    rintro ⟨r, hr, f, hf, hnone⟩
    apply hans.err_of_not_ok
    intro ds hds
    obtain ⟨row, -, hrow⟩ := Traverse.exists_of_mem (hrows ds hds).2 hr
    obtain ⟨v, -, hv⟩ := Traverse.exists_of_mem hrow hf
    rw [hnone] at hv
    cases hv

/-- the rows of the records, when every cell can be converted -/
def recordRows (cell : R → Field → Option Value) (records : List R) (schema : Schema) : List Row :=
  records.map fun r => schema.fields.map fun f => (cell r f).getD .null

/-- a reader that returns the records' rows when it can convert every cell is faithful -/
theorem Faithful.of_returns {out : IngestionResult DataSet} {P : Prop} (hans : Answers out)
    (hout : Returns out P ⟨schema, recordRows cell records schema⟩)
    (hP : P → ∀ r ∈ records, ∀ f ∈ schema.fields, (cell r f).isSome = true)
    (hfits : ∀ r f v, cell r f = some v → v.fits f.dataType) : Faithful cell records schema out := by
  refine Faithful.of_rows hans (fun ds hds => ?_) hfits
  obtain ⟨h, rfl⟩ := hout.of_ok hds
  refine ⟨rfl, ?_⟩
  rw [recordRows, List.forall₂_map_right_iff, List.forall₂_same]
  intro r hr
  rw [List.forall₂_map_right_iff, List.forall₂_same]
  intro f hf
  obtain ⟨v, hv⟩ := Option.isSome_iff_exists.1 (hP h r hr f hf)
  rw [hv, Option.getD_some]

end Records

/-! ## CSV -/

/-- a record's cell of a field: what its text is in the field's type -/
def csvCell (headers : Except CsvError (List String)) (result : Except CsvError (List String)) (f : Field) :
    Option Value := do
  let idx ← (← headers.toOption).findIdx? (· = f.name)
  let record ← result.toOption
  (parseTypedValue 0 f.name f.dataType (record.getD idx "")).toOption

theorem parseTypedValue_answers (row : ℕ) (column : String) (dt : DataType) (raw : String) :
    Answers (parseTypedValue row column dt raw) := by
  unfold parseTypedValue
  dsimp only
  split_ifs
  · exact Answers.ok _
  · cases dt <;> dsimp only
    · split <;> first | exact Answers.ok _ | exact Answers.error _
    · split <;> first | exact Answers.ok _ | exact Answers.error _
    · split <;> first | exact Answers.ok _ | exact Answers.error _
    · exact Answers.ok _

theorem csvResult_answers {α : Type} (x : Except CsvError α) : Answers (csvResult x) := by
  cases x with
  | error e => exact Answers.error _
  | ok a => exact Answers.ok a

theorem columnIndex_answers (headers : List String) (f : Field) : Answers (columnIndex headers f) := by
  unfold columnIndex
  split
  · exact Answers.ok _
  · exact Answers.error _

theorem ingestCsvFromReader_answers (rdr : CsvReader) (schema : Schema) : Answers (ingestCsvFromReader rdr schema) := by
  refine (csvResult_answers _).bind fun headers _ => ?_
  refine (Answers.mapM fun f _ => columnIndex_answers headers f).bind fun colIdxs _ => ?_
  refine Answers.bind ?_ fun rows _ => Answers.ok _
  refine Answers.mapM fun p _ => (csvResult_answers _).bind fun record _ => ?_
  exact Answers.mapM fun c _ => parseTypedValue_answers _ _ _ _

theorem typedText_hasType {dt : DataType} {s : String} {v : Value} (h : typedText dt s = some v) :
    v.hasType dt = true := by
  cases dt with
  | utf8 =>
    rw [typedText] at h
    rw [← Option.some.inj h]
    rfl
  | int64 =>
    rw [typedText, Option.map_eq_some_iff] at h
    obtain ⟨n, -, rfl⟩ := h
    rfl
  | float64 =>
    rw [typedText, Option.map_eq_some_iff] at h
    obtain ⟨x, -, rfl⟩ := h
    rfl
  | bool =>
    rw [typedText, Option.map_eq_some_iff] at h
    obtain ⟨b, -, rfl⟩ := h
    rfl

theorem parseTypedValue_fits {row : ℕ} {column : String} {dt : DataType} {raw : String} {v : Value}
    (h : parseTypedValue row column dt raw = .ok v) : v.fits dt := by
  obtain ⟨hparses, rfl⟩ := (parseTypedValue_returns row column dt raw).of_ok h
  unfold readerValue
  split_ifs with hblank
  · exact Or.inl rfl
  · obtain ⟨v, hv⟩ := Option.isSome_iff_exists.1 (hparses.resolve_left hblank)
    rw [hv, Option.getD_some]
    exact Or.inr (typedText_hasType hv)

theorem csvCell_fits {headers result : Except CsvError (List String)} {f : Field} {v : Value}
    (h : csvCell headers result f = some v) : v.fits f.dataType := by
  unfold csvCell at h
  obtain ⟨hs, -, h⟩ := Option.bind_eq_some_iff.1 h
  obtain ⟨idx, -, h⟩ := Option.bind_eq_some_iff.1 h
  obtain ⟨record, -, h⟩ := Option.bind_eq_some_iff.1 h
  exact parseTypedValue_fits (Traverse.ok_of_toOption h)

/-- one record, once the columns are known -/
theorem csvRecord_returns {headers : List String} (result : Except CsvError (List String)) (schema : Schema) (userRow : ℕ)
    (hcols : ∀ f ∈ schema.fields, (headers.findIdx? (· = f.name)).isSome = true) :
    Returns
      (csvResult result >>= fun record =>
        (schema.fields.zip (schema.fields.map fun f => (headers.findIdx? (· = f.name)).getD 0)).mapM fun p =>
          parseTypedValue userRow p.1.name p.1.dataType (record.getD p.2 ""))
      (result.toOption.isSome = true ∧ ∀ f ∈ schema.fields, (csvCell (.ok headers) result f).isSome = true)
      (schema.fields.map fun f => (csvCell (.ok headers) result f).getD .null) := by
  cases result with
  | error e => exact Or.inr ⟨by simp [Except.toOption], _, rfl⟩
  | ok record =>
    rw [csvResult_ok_bind, ← List.map_prod_left_eq_zip, List.mapM_map]
    refine Returns.congr (Returns.mapM (P := fun f => (csvCell (.ok headers) (.ok record) f).isSome = true)
      (g := fun f => (csvCell (.ok headers) (.ok record) f).getD .null) fun f hf => ?_) (by simp [Except.toOption]) rfl
    obtain ⟨j, hj⟩ := Option.isSome_iff_exists.1 (hcols f hf)
    have hcell : csvCell (.ok headers) (.ok record) f =
        (parseTypedValue userRow f.name f.dataType (record.getD j "")).toOption := by
      rw [(parseTypedValue_returns userRow f.name f.dataType _).toOption_eq (parseTypedValue_returns 0 f.name f.dataType _)]
      simp [csvCell, Except.toOption, hj]
    simp only [Function.comp_def, hcell, hj, Option.getD_some]
    exact Returns.of_toOption _ _

theorem ingestCsvFromReader_faithful (rdr : CsvReader) (schema : Schema) :
    Faithful (csvCell rdr.headers) rdr.records schema (ingestCsvFromReader rdr schema) := by
  have hans := ingestCsvFromReader_answers rdr schema
  obtain ⟨headers, records⟩ := rdr
  cases headers with
  | error e =>
    have hout : Returns (ingestCsvFromReader ⟨.error e, records⟩ schema) False
        ⟨schema, recordRows (csvCell (.error e)) records schema⟩ := Or.inr ⟨not_false, _, rfl⟩
    exact Faithful.of_returns hans hout (fun h => h.elim) fun _ _ _ => csvCell_fits
  | ok headers =>
    have hcols : Returns (schema.fields.mapM (columnIndex headers))
        (∀ f ∈ schema.fields, (headers.findIdx? (· = f.name)).isSome = true)
        (schema.fields.map fun f => (headers.findIdx? (· = f.name)).getD 0) := by
      refine Returns.mapM fun f _ => ?_
      unfold columnIndex
      cases headers.findIdx? (· = f.name) with
      | none => exact Or.inr ⟨nofun, _, rfl⟩
      | some j => exact Or.inl ⟨rfl, rfl⟩
    have hrows := fun hcols => Returns.mapM fun (p : Except CsvError (List String) × ℕ) (_ : p ∈ records.zipIdx) =>
      @csvRecord_returns headers p.1 schema (p.2 + 2) hcols
    have hvalues : (records.zipIdx.map fun p => schema.fields.map fun f => (csvCell (.ok headers) p.1 f).getD .null) =
        recordRows (csvCell (.ok headers)) records schema := by
      rw [recordRows]
      conv_rhs => rw [← List.zipIdx_map_fst 0 records, List.map_map]
      rfl
    have hout : Returns (ingestCsvFromReader ⟨.ok headers, records⟩ schema) _
        ⟨schema, recordRows (csvCell (.ok headers)) records schema⟩ :=
      hcols.bind fun h => ((hrows h).congr Iff.rfl hvalues).bind fun _ => Returns.ok _
    refine Faithful.of_returns hans hout ?_ fun _ _ _ => csvCell_fits
    rintro ⟨-, h, -⟩ r hr
    rw [← List.zipIdx_map_fst 0 records] at hr
    obtain ⟨p, hp, rfl⟩ := List.mem_map.1 hr
    exact (h p hp).2

/-! ## JSON -/

/-- the documents of a text: the items of an array, one object, or one document a line -/
def jsonRecords (P : JsonParser) (input : String) : IngestionResult (List Json) :=
  let trimmed := RustStd.trim input
  if trimmed = "" then .error (.schemaMismatch "json input is empty")
  else match P.fromStr trimmed with
    | .ok (.array items) => .ok items
    | .ok (.object members) => .ok [.object members]
    | .ok _ => .error (.schemaMismatch "json must be an object, an array of objects, or NDJSON")
    | .error _ => parseLines P trimmed

/-- the reader parses the text into documents, and then walks them -/
theorem ingestJsonFromStr_eq (P : JsonParser) (input : String) (schema : Schema) :
    ingestJsonFromStr P input schema = jsonRecords P input >>= fun values => ingestJsonValues values schema := by
  unfold ingestJsonFromStr jsonRecords
  dsimp only
  split_ifs with hempty
  · rfl
  · cases P.fromStr (RustStd.trim input) with
    | error e => rfl
    | ok doc => cases doc <;> rfl

/-- an object's cell of a field: what the value at its path is in the field's type -/
def jsonCell (doc : Json) (f : Field) : Option Value := do
  let obj ← doc.asObject
  let v ← getByDotPath obj f.name
  (convertJsonValue 0 f.name f.dataType v).toOption

theorem convertJsonValue_answers (row : ℕ) (column : String) (dt : DataType) (v : Json) :
    Answers (convertJsonValue row column dt v) := by
  unfold convertJsonValue
  dsimp only
  split_ifs with hnull
  · exact Answers.ok _
  · cases dt <;> dsimp only
    · split
      · exact Answers.ok _
      · split
        · split_ifs
          · exact Answers.ok _
          · exact Answers.error _
        · exact Answers.error _
    · split <;> first | exact Answers.ok _ | exact Answers.error _
    · split <;> first | exact Answers.ok _ | exact Answers.error _
    · split <;> first | exact Answers.ok _ | exact Answers.error _

theorem recordValue_answers (rowNum : ℕ) (obj : Record) (f : Field) : Answers (recordValue rowNum obj f) := by
  unfold recordValue
  split
  · exact Answers.error _
  · exact convertJsonValue_answers _ _ _ _

theorem ingestJsonValues_answers (values : List Json) (schema : Schema) : Answers (ingestJsonValues values schema) := by
  refine Answers.bind (Answers.mapM fun p _ => ?_) fun rows _ => Answers.ok _
  dsimp only
  split
  · exact Answers.error _
  · exact Answers.mapM fun f _ => recordValue_answers _ _ f

theorem jsonRecords_answers (P : JsonParser) (input : String) : Answers (jsonRecords P input) := by
  unfold jsonRecords
  dsimp only
  split_ifs with hempty
  · exact Answers.error _
  · split
    · exact Answers.ok _
    · exact Answers.ok _
    · exact Answers.error _
    · refine Answers.mapM fun p _ => ?_
      dsimp only
      split
      · exact Answers.ok _
      · exact Answers.error _

theorem typedJson_hasType {dt : DataType} {j : Json} {v : Value} (h : typedJson dt j = some v) : v.hasType dt = true := by
  cases dt <;> rw [typedJson, Option.map_eq_some_iff] at h <;> obtain ⟨a, -, rfl⟩ := h <;> rfl

theorem convertJsonValue_fits {row : ℕ} {column : String} {dt : DataType} {j : Json} {v : Value}
    (h : convertJsonValue row column dt j = .ok v) : v.fits dt := by
  obtain ⟨hconv, rfl⟩ := (convertJsonValue_returns row column dt j).of_ok h
  unfold jsonValue
  split_ifs with hnull
  · exact Or.inl rfl
  · obtain ⟨v, hv⟩ := Option.isSome_iff_exists.1 (hconv.resolve_left hnull)
    rw [hv, Option.getD_some]
    exact Or.inr (typedJson_hasType hv)

theorem jsonCell_fits {doc : Json} {f : Field} {v : Value} (h : jsonCell doc f = some v) : v.fits f.dataType := by
  unfold jsonCell at h
  obtain ⟨obj, -, h⟩ := Option.bind_eq_some_iff.1 h
  obtain ⟨j, -, h⟩ := Option.bind_eq_some_iff.1 h
  exact convertJsonValue_fits (Traverse.ok_of_toOption h)

theorem recordValue_toOption (rowNum : ℕ) (obj : Record) (f : Field) :
    (recordValue rowNum obj f).toOption = jsonCell (.object obj) f := by
  unfold recordValue
  cases hpath : getByDotPath obj f.name with
  | none => simp [jsonCell, Json.asObject, hpath, Except.toOption]
  | some j =>
    have hcell : jsonCell (.object obj) f = (convertJsonValue 0 f.name f.dataType j).toOption := by
      simp [jsonCell, Json.asObject, hpath]
    rw [hcell]
    exact (convertJsonValue_returns rowNum f.name f.dataType j).toOption_eq (convertJsonValue_returns 0 f.name f.dataType j)

/-- one document -/
theorem jsonRecord_returns (rowNum : ℕ) (doc : Json) (schema : Schema) :
    Returns
      (match doc.asObject with
        | none => .error (.schemaMismatch s!"row {rowNum} is not a json object")
        | some obj => schema.fields.mapM (recordValue rowNum obj) : IngestionResult Row)
      (doc.isObject = true ∧ ∀ f ∈ schema.fields, (jsonCell doc f).isSome = true)
      (schema.fields.map fun f => (jsonCell doc f).getD .null) := by
  cases doc with
  | object obj =>
    refine Returns.congr (Returns.mapM (P := fun f => (jsonCell (.object obj) f).isSome = true)
      (g := fun f => (jsonCell (.object obj) f).getD .null) fun f _ => ?_) (by simp [Json.isObject]) rfl
    rw [← recordValue_toOption rowNum]
    exact Returns.of_toOption _ _
  | _ => exact Or.inr ⟨by simp [Json.isObject], _, rfl⟩

theorem ingestJsonValues_faithful (docs : List Json) (schema : Schema) :
    Faithful jsonCell docs schema (ingestJsonValues docs schema) ∧
      ∀ ds, ingestJsonValues docs schema = .ok ds → ∀ doc ∈ docs, doc.isObject = true := by
  have hrows := Returns.mapM fun (p : Json × ℕ) (_ : p ∈ docs.zipIdx) => jsonRecord_returns (p.2 + 1) p.1 schema
  have hvalues : (docs.zipIdx.map fun p => schema.fields.map fun f => (jsonCell p.1 f).getD .null) =
      recordRows jsonCell docs schema := by
    rw [recordRows]
    conv_rhs => rw [← List.zipIdx_map_fst 0 docs, List.map_map]
    rfl
  have hdocs : (∀ p ∈ docs.zipIdx, p.1.isObject = true ∧ ∀ f ∈ schema.fields, (jsonCell p.1 f).isSome = true) ↔
      ∀ doc ∈ docs, doc.isObject = true ∧ ∀ f ∈ schema.fields, (jsonCell doc f).isSome = true := by
    conv_rhs => rw [← List.zipIdx_map_fst 0 docs, List.forall_mem_map]
  have hout : Returns (ingestJsonValues docs schema) _ ⟨schema, recordRows jsonCell docs schema⟩ :=
    (hrows.congr hdocs hvalues).bind fun _ => Returns.ok _
  refine ⟨Faithful.of_returns (ingestJsonValues_answers docs schema) hout ?_ fun _ _ _ => jsonCell_fits, ?_⟩
  · intro h doc hdoc
    exact (h.1 doc hdoc).2
  · intro ds hds doc hdoc
    exact ((hout.of_ok hds).1.1 doc hdoc).1

/-! ## Spreadsheets -/

theorem convertCell_answers (display : Excel.Data → String) (row : ℕ) (column : String) (dt : DataType) (c : Excel.Data) :
    Answers (Excel.convertCell display row column dt c) := by
  unfold Excel.convertCell
  split_ifs with hempty
  · exact Answers.ok _
  · cases dt with
    | utf8 => exact Answers.ok _
    | bool =>
      apply Answers.map
      cases c with
      | string s =>
        simp only [Excel.parseBoolCell]
        cases Excel.parseBoolStr s with
        | ok b => exact Answers.ok b
        | error e => exact Answers.error _
      | bool b => exact Answers.ok _
      | int i => exact Answers.ok _
      | float f => exact Answers.ok _
      | _ => exact Answers.error _
    | int64 =>
      apply Answers.map
      cases c with
      | string s =>
        simp only [Excel.parseI64Cell]
        cases RustStd.parseI64 (RustStd.trim s) with
        | ok n => exact Answers.ok n
        | error e => exact Answers.error _
      | int i => exact Answers.ok _
      | float f =>
        simp only [Excel.parseI64Cell]
        split_ifs
        · exact Answers.ok _
        · exact Answers.error _
      | _ => exact Answers.error _
    | float64 =>
      apply Answers.map
      cases c with
      | string s =>
        simp only [Excel.parseF64Cell]
        cases RustStd.parseF64 (RustStd.trim s) with
        | ok x => exact Answers.ok x
        | error e => exact Answers.error _
      | int i => exact Answers.ok _
      | float f => exact Answers.ok _
      | _ => exact Answers.error _

theorem buildHeaderProjection_answers (range : Excel.Range) (schema : Schema) :
    Answers (Excel.buildHeaderProjection range schema) := by
  refine Answers.bind ?_ fun h _ => Answers.bind (Answers.mapM fun f _ => ?_) fun cols _ => Answers.ok _
  · unfold Excel.findHeaderRow
    split
    · exact Answers.ok _
    · exact Answers.error _
  · unfold Excel.headerColumn
    split
    · exact Answers.ok _
    · exact Answers.error _

theorem wrapSchemaErr_answers {α : Type} {x : IngestionResult α} (sheet : String) (h : Answers x) :
    Answers (x.mapError (Excel.wrapSchemaErrWithSheet sheet)) := by
  rcases x with (e | _) | a
  · cases e <;> exact Answers.error _
  · exact absurd rfl h
  · exact Answers.ok a

theorem ingestSheetRange_answers (display : Excel.Data → String) (sheet : String) (range : Excel.Range) (schema : Schema) :
    Answers (Excel.ingestSheetRange display sheet range schema) := by
  refine Answers.bind (wrapSchemaErr_answers sheet (buildHeaderProjection_answers range schema)) fun h _ => ?_
  refine Answers.mapM fun r _ => Answers.mapM fun p _ => ?_
  exact convertCell_answers _ _ _ _ _

theorem fits_of_map {α : Type} {x : IngestionResult α} {val : α → Value} {dt : DataType} {v : Value}
    (hval : ∀ a, (val a).hasType dt = true) (h : x.map val = .ok v) : v.fits dt := by
  cases x with
  | error e => cases h
  | ok a =>
    rw [← Except.ok.inj h]
    exact Or.inr (hval a)

theorem dataValue_fits {display : Excel.Data → String} {dt : DataType} {c : Excel.Data} {v : Value}
    (h : Excel.dataValue display dt c = some v) : v.fits dt := by
  have hconv := Traverse.ok_of_toOption h
  unfold Excel.convertCell at hconv
  split_ifs at hconv with hempty
  · exact Or.inl (Except.ok.inj hconv).symm
  · cases dt with
    | utf8 =>
      rw [← Except.ok.inj hconv]
      exact Or.inr rfl
    | bool => exact fits_of_map (fun _ => rfl) hconv
    | int64 => exact fits_of_map (fun _ => rfl) hconv
    | float64 => exact fits_of_map (fun _ => rfl) hconv

theorem sheetCell_fits {display : Excel.Data → String} {range : Excel.Range} {row : List Excel.Data} {f : Field} {v : Value}
    (h : Excel.sheetCell display range row f = some v) : v.fits f.dataType := by
  obtain ⟨colIdx, -, h⟩ := Option.bind_eq_some_iff.1 h
  exact dataValue_fits h

/-- the rows of a sheet, as a dataset -/
def sheetDataset (display : Excel.Data → String) (sheet : String) (range : Excel.Range) (schema : Schema) :
    IngestionResult DataSet :=
  (Excel.ingestSheetRange display sheet range schema).map fun rows => ⟨schema, rows⟩

theorem sheetDataset_faithful (display : Excel.Data → String) (sheet : String) (range : Excel.Range) (schema : Schema) :
    Faithful (Excel.sheetCell display range) (Excel.sheetRecords range) schema (sheetDataset display sheet range schema) := by
  have hout : Returns (sheetDataset display sheet range schema) (Excel.SheetAccepts display range schema)
      ⟨schema, recordRows (Excel.sheetCell display range) (Excel.sheetRecords range) schema⟩ := by
    unfold sheetDataset
    rcases Excel.ingestSheetRange_returns display sheet range schema with ⟨h, hrows⟩ | ⟨h, e, he⟩
    · rw [hrows]
      exact Or.inl ⟨h, rfl⟩
    · rw [he]
      exact Or.inr ⟨h, e, rfl⟩
  refine Faithful.of_returns ((ingestSheetRange_answers display sheet range schema).map _) hout (fun h => h.cells) ?_
  exact fun _ _ _ => sheetCell_fits

/-! ## XML -/

section XmlReader

open RustDataProcessing.Ingestion.Xml (XmlState xmlStep xmlLoop xmlLoop_cons parseTextToValue ingestXmlFromPath xmlRecords
  parsedEvents xmlCell)

theorem parseTextToValue_fits {raw : String} {dt : DataType} {v : Value} (h : parseTextToValue raw dt = .ok v) :
    v.fits dt := by
  unfold parseTextToValue at h
  dsimp only at h
  by_cases hblank : RustStd.trim raw = ""
  · rw [if_pos hblank] at h
    exact Or.inl (Except.ok.inj h).symm
  · rw [if_neg hblank] at h
    right
    cases dt <;> dsimp only at h
    · split at h
      · rw [← Except.ok.inj h]; rfl
      · cases h
    · split at h
      · rw [← Except.ok.inj h]; rfl
      · cases h
    · split_ifs at h <;> rw [← Except.ok.inj h] <;> rfl
    · rw [← Except.ok.inj h]; rfl

theorem parseTextToValue_answers (raw : String) (dt : DataType) : Answers (parseTextToValue raw dt) := by
  unfold parseTextToValue
  dsimp only
  by_cases hblank : RustStd.trim raw = ""
  · rw [if_pos hblank]
    exact Answers.ok _
  · rw [if_neg hblank]
    cases dt <;> dsimp only
    · split
      · exact Answers.ok _
      · exact Answers.error _
    · split
      · exact Answers.ok _
      · exact Answers.error _
    · split_ifs
      · exact Answers.ok _
      · exact Answers.ok _
      · exact Answers.error _
    · exact Answers.ok _

theorem xmlCell_fits {x : Codec} {record : List (String × String)} {f : Field} {v : Value}
    (h : xmlCell x record f = some v) : v.fits f.dataType := by
  obtain ⟨text, -, h⟩ := Option.bind_eq_some_iff.1 h
  exact parseTextToValue_fits (Traverse.ok_of_toOption h)

theorem xmlStep_answers (x : Codec) (schema : Schema) (st : XmlState) (e : Event) : Answers (xmlStep x schema st e) := by
  cases e with
  | endTag name =>
    simp only [xmlStep]
    split_ifs
    · apply Answers.map
      exact Answers.mapM fun f _ => parseTextToValue_answers _ _
    · exact Answers.ok _
    · exact Answers.ok _
  | startTag name =>
    simp only [xmlStep]
    split_ifs <;> exact Answers.ok _
  | text s =>
    simp only [xmlStep]
    split
    · exact Answers.ok _
    · split
      · exact Answers.error _
      · exact Answers.ok _
  | _ => exact Answers.ok _

theorem xmlLoop_answers (x : Codec) (schema : Schema) (events : List (Except String Event)) (st : XmlState) :
    Answers (xmlLoop x schema events st) := by
  induction events generalizing st with
  | nil => exact Answers.ok _
  | cons e events ih =>
    rcases e with e | e
    · exact Answers.error _
    · by_cases heof : e = .eof
      · subst heof
        exact Answers.ok _
      · rw [xmlLoop_cons heof]
        exact (xmlStep_answers x schema st e).bind fun st' _ => ih st'

theorem ingestXmlFromPath_faithful (x : Codec) (events : List (Except String Event)) (schema : Schema) :
    Faithful (xmlCell x) (xmlRecords (parsedEvents events)) schema (ingestXmlFromPath x events schema) := by
  refine Faithful.of_rows ((xmlLoop_answers _ _ _ _).map _) (fun ds hds => ?_) fun _ _ _ => xmlCell_fits
  obtain ⟨rows, hloop, rfl⟩ := Traverse.map_eq_ok hds
  have hrows := Xml.xmlLoop_reads (Xml.Reads.start x schema) hloop
  rw [List.append_nil] at hrows
  exact ⟨rfl, hrows⟩

end XmlReader

/-! ## All four -/

/-- **A reader returns what it has read, or nothing** -/
theorem readers_faithful :
    (∀ (rdr : CsvReader) (schema : Schema),
      Faithful (csvCell rdr.headers) rdr.records schema (ingestCsvFromReader rdr schema)) ∧
    (∀ (P : JsonParser) (input : String) (schema : Schema),
      ((∃ e, jsonRecords P input = .error (.error e)) ∧ ∃ e, ingestJsonFromStr P input schema = .error (.error e)) ∨
      ∃ docs, jsonRecords P input = .ok docs ∧ Faithful jsonCell docs schema (ingestJsonFromStr P input schema) ∧
        ∀ ds, ingestJsonFromStr P input schema = .ok ds → ∀ doc ∈ docs, doc.isObject = true) ∧
    (∀ (display : Excel.Data → String) (sheet : String) (range : Excel.Range) (schema : Schema),
      Faithful (Excel.sheetCell display range) (Excel.sheetRecords range) schema
        (sheetDataset display sheet range schema)) ∧
    ∀ (x : Codec) (events : List (Except String Event)) (schema : Schema),
      Faithful (Xml.xmlCell x) (Xml.xmlRecords (Xml.parsedEvents events)) schema (Xml.ingestXmlFromPath x events schema) := by
  refine ⟨ingestCsvFromReader_faithful, ?_, sheetDataset_faithful, ingestXmlFromPath_faithful⟩
  intro P input schema
  rw [ingestJsonFromStr_eq]
  cases hdocs : jsonRecords P input with
  | error e =>
    left
    have hans := jsonRecords_answers P input
    rw [hdocs] at hans
    rcases e with e | _
    · exact ⟨⟨e, rfl⟩, e, rfl⟩
    · exact absurd rfl hans
  | ok docs =>
    right
    obtain ⟨hfaithful, hobjects⟩ := ingestJsonValues_faithful docs schema
    exact ⟨docs, rfl, hfaithful, hobjects⟩

/-! ## One text in three formats -/

section Text

variable (display : Excel.Data → String) (row : ℕ) (column : String)

/-- a text cell is the same value in all three formats, or an error in all three, and null when it is blank -/
def MeansTheSame (dt : DataType) (s : String) : Prop :=
  (Traverse.Agree (parseTypedValue row column dt s) (Xml.parseTextToValue s dt) ∧
    Traverse.Agree (parseTypedValue row column dt s) (Excel.convertCell display row column dt (.string s))) ∧
  (RustStd.trim s = "" → parseTypedValue row column dt s = .ok .null ∧ Xml.parseTextToValue s dt = .ok .null ∧
    Excel.convertCell display row column dt (.string s) = .ok .null)

/-- not blank, without blanks around it if it is text, and no one-letter truth value -/
def CommonText (dt : DataType) (s : String) : Prop :=
  RustStd.trim s ≠ "" ∧ (dt = .utf8 → RustStd.trim s = s) ∧
    (dt = .bool → RustStd.toAsciiLowercase (RustStd.trim s) ∉ ["t", "y", "f", "n"])

/-- a text cell of a sheet is never null -/
theorem sheetText_ne_null (dt : DataType) (s : String) :
    Excel.convertCell display row column dt (.string s) ≠ .ok .null := by
  unfold Excel.convertCell
  rw [if_neg (by simp)]
  cases dt with
  | utf8 => simp
  | bool => cases Excel.parseBoolCell display row column (.string s) <;> simp [Except.map]
  | int64 => cases Excel.parseI64Cell display row column (.string s) <;> simp [Except.map]
  | float64 => cases Excel.parseF64Cell display row column (.string s) <;> simp [Except.map]

/-- the spellings of a truth value that are one letter -/
def isShort (t : String) : Bool := RustStd.toAsciiLowercase t ∈ ["t", "y", "f", "n"]

theorem csvText_eq {dt : DataType} {s : String} (h : RustStd.trim s ≠ "") :
    (parseTypedValue row column dt s).toOption = typedText dt (RustStd.trim s) := by
  unfold parseTypedValue
  dsimp only
  rw [if_neg h]
  cases dt with
  | utf8 => rfl
  | int64 => cases hp : RustStd.parseI64 (RustStd.trim s) <;> simp [typedText, hp, Except.toOption]
  | float64 => cases hp : RustStd.parseF64 (RustStd.trim s) <;> simp [typedText, hp, Except.toOption]
  | bool => cases hp : parseBool (RustStd.trim s) <;> simp [typedText, hp, Except.toOption]

/-- a sheet keeps a text as it is, and parses the others like a CSV file -/
theorem sheetText_eq (dt : DataType) (s : String) :
    (Excel.convertCell display row column dt (.string s)).toOption =
      if dt = .utf8 then some (.utf8 s) else typedText dt (RustStd.trim s) := by
  unfold Excel.convertCell
  rw [if_neg (by simp)]
  cases dt with
  | utf8 => rfl
  | int64 =>
    cases hp : RustStd.parseI64 (RustStd.trim s) <;> simp [Excel.parseI64Cell, typedText, hp, Except.toOption, Except.map]
  | float64 =>
    cases hp : RustStd.parseF64 (RustStd.trim s) <;> simp [Excel.parseF64Cell, typedText, hp, Except.toOption, Except.map]
  | bool =>
    cases hp : parseBool (RustStd.trim s) <;>
      simp [Excel.parseBoolCell, Excel.parseBoolStr, typedText, hp, Except.toOption, Except.map]

/-- an element's text is parsed like a CSV cell, but one letter is no truth value -/
theorem xmlText_eq {dt : DataType} {s : String} (h : RustStd.trim s ≠ "") :
    (Xml.parseTextToValue s dt).toOption =
      if dt = .bool ∧ isShort (RustStd.trim s) = true then none else typedText dt (RustStd.trim s) := by
  unfold Xml.parseTextToValue
  dsimp only
  rw [if_neg h]
  cases dt with
  | utf8 => rfl
  | int64 => cases hp : RustStd.parseI64 (RustStd.trim s) <;> simp [typedText, hp, Except.toOption]
  | float64 => cases hp : RustStd.parseF64 (RustStd.trim s) <;> simp [typedText, hp, Except.toOption]
  | bool =>
    by_cases hshort : isShort (RustStd.trim s) = true
    · have hmem : RustStd.toAsciiLowercase (RustStd.trim s) ∈ ["t", "y", "f", "n"] := by simpa [isShort] using hshort
      simp only [List.mem_cons, List.not_mem_nil, or_false] at hmem
      simp only [hshort, and_self, if_true]
      rcases hmem with hl | hl | hl | hl <;> rw [hl] <;> rfl
    · simp only [hshort, and_false, if_false, Bool.false_eq_true]
      have hmem : RustStd.toAsciiLowercase (RustStd.trim s) ∉ ["t", "y", "f", "n"] := by simpa [isShort] using hshort
      simp only [List.mem_cons, List.not_mem_nil, or_false, not_or] at hmem
      obtain ⟨ht, hy, hf, hn⟩ := hmem
      simp only [typedText, parseBool, List.mem_cons, List.not_mem_nil, or_false, ht, hy, hf, hn, false_or]
      split_ifs <;> rfl

/-- a one-letter spelling is a truth value -/
theorem typedText_short {t : String} (h : isShort t = true) : (typedText .bool t).isSome = true := by
  have hmem : RustStd.toAsciiLowercase t ∈ ["t", "y", "f", "n"] := by simpa [isShort] using h
  simp only [List.mem_cons, List.not_mem_nil, or_false] at hmem
  simp only [typedText, parseBool]
  rcases hmem with hl | hl | hl | hl <;> rw [hl] <;> rfl

/-- **One text, three formats**: it is the same cell in all exactly when it is spelled in the common way -/
theorem text_means_the_same_iff (dt : DataType) (s : String) :
    MeansTheSame display row column dt s ↔ CommonText dt s := by
  by_cases hblank : RustStd.trim s = ""
  · refine iff_of_false ?_ fun h => h.1 hblank
    intro h
    exact sheetText_ne_null display row column dt s (h.2 hblank).2.2
  · unfold MeansTheSame CommonText
    rw [Traverse.agree_iff_toOption, Traverse.agree_iff_toOption, csvText_eq row column hblank, xmlText_eq hblank,
      sheetText_eq display row column]
    constructor
    · rintro ⟨⟨hxml, hsheet⟩, -⟩
      refine ⟨hblank, ?_, ?_⟩
      · rintro rfl
        simpa [typedText] using hsheet
      · rintro rfl hshort
        have hs : isShort (RustStd.trim s) = true := by simpa [isShort] using hshort
        have hsome := typedText_short hs
        rw [if_pos ⟨rfl, hs⟩] at hxml
        rw [hxml] at hsome
        cases hsome
    · rintro ⟨-, hutf8, hbool⟩
      refine ⟨⟨?_, ?_⟩, fun h => absurd h hblank⟩
      · rw [if_neg]
        rintro ⟨rfl, hs⟩
        exact hbool rfl (by simpa [isShort] using hs)
      · split_ifs with hdt
        · subst hdt
          rw [hutf8 rfl, typedText]
        · rfl

end Text

/-- a blank cell is null in a CSV file and its text in a sheet -/
theorem blank_cell_differs :
    ¬ ∀ (display : Excel.Data → String) (row : ℕ) (column : String) (dt : DataType) (s : String),
      MeansTheSame display row column dt s := by
  intro h
  have hblank := (h (fun _ => "") 2 "name" .utf8 " ").2 (by decide)
  have hsheet : Excel.convertCell (fun _ => "") 2 "name" .utf8 (.string " ") = .ok (.utf8 " ") := rfl
  rw [hsheet] at hblank
  cases Except.ok.inj hblank.2.2

end RustDataProcessing.Ingestion
