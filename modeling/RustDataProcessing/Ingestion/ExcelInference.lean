/-
Schema inference from a spreadsheet (`src/ingestion/excel.rs`, `infer_schema_from_sheet_range`), against the reader that
is given the schema.

The states of the inference are ordered by what they accept, from `unknown` up to `utf8`. Observing a cell is the join with
the state of the cell, so a column ends in the least upper bound of its cells (`foldl_observe`), whatever their order; and
each cell converts to the type of every state above its own (`dataValue_isSome`).

- `inference_sound`: on a sheet whose header names its columns, the inferred schema reads every row below the header, and
  stays the same when these rows come in another order.
-/
import Mathlib.Tactic
import RustDataProcessing.Ingestion.Excel

namespace RustDataProcessing.Ingestion.Excel

namespace InferState

/-! ## States and their joins -/

/-- the state of two states together -/
def join : InferState → InferState → InferState
  | unknown, x => x
  | x, unknown => x
  | bool, bool => bool
  | int, int => int
  | float, float => float
  | int, float => float
  | float, int => float
  | _, _ => utf8

instance : SemilatticeSup InferState := by
  letI : Max InferState := ⟨join⟩
  refine SemilatticeSup.mk' ?_ ?_ ?_
  · intro a b
    cases a <;> cases b <;> rfl
  · intro a b c
    cases a <;> cases b <;> cases c <;> rfl
  · intro a
    cases a <;> rfl

instance : OrderBot InferState where
  bot := unknown
  bot_le a := sup_eq_right.1 (by cases a <;> rfl)

theorem bot_eq_unknown : (⊥ : InferState) = unknown := rfl

theorem sup_eq_join (a b : InferState) : a ⊔ b = join a b := rfl

theorem next_ne_unknown (c : Data) : next c ≠ unknown := by
  cases c with
  | float f => cases hf : f.isIntegral <;> simp [next, hf]
  | _ => simp [next]

theorem observe_eq (st : InferState) {c : Data} (h : c ≠ .empty) : observe st c = st ⊔ next c := by
  have hnext := next_ne_unknown c
  unfold observe
  rw [if_neg h, sup_eq_join]
  cases st <;> cases hst : next c <;> first | rfl | exact absurd hst hnext

/-- the states of the cells that are not empty -/
def cellStates (cells : List Data) : Multiset InferState := ((cells.filter fun c => c ≠ .empty).map next : List InferState)

/-- **A column** ends in the least state above its cells -/
theorem foldl_observe (st : InferState) (cells : List Data) : cells.foldl observe st = st ⊔ (cellStates cells).sup := by
  induction cells generalizing st with
  | nil => simp [cellStates]
  | cons c cells ih =>
    rw [List.foldl_cons, ih]
    by_cases hc : c = .empty
    · simp [observe, cellStates, hc]
    · simp [observe_eq st hc, cellStates, hc, sup_assoc]

theorem next_le {cells : List Data} {c : Data} (hc : c ∈ cells) (hne : c ≠ .empty) : next c ≤ (cellStates cells).sup := by
  refine Multiset.le_sup ?_
  rw [cellStates, Multiset.mem_coe]
  exact List.mem_map_of_mem (List.mem_filter.2 ⟨hc, by simpa using hne⟩)

theorem cellStates_perm {cells cells' : List Data} (h : cells.Perm cells') : cellStates cells = cellStates cells' := by
  rw [cellStates, cellStates, Multiset.coe_eq_coe]
  exact (h.filter _).map _

/-- a cell converts to the type of each state above its own -/
theorem dataValue_isSome (display : Data → String) {c : Data} {st : InferState} (h : c = .empty ∨ next c ≤ st) :
    (dataValue display st.finishType c).isSome = true := by
  rcases h with rfl | h
  · rfl
  · have hjoin : join (next c) st = st := sup_eq_right.2 h
    cases c with
    | float f =>
      cases hf : f.isIntegral <;> cases st <;>
        simp_all [next, join, finishType, dataValue, convertCell, parseI64Cell, parseF64Cell, Except.toOption, Except.map]
    | _ =>
      cases st <;>
        simp_all [next, join, finishType, dataValue, convertCell, parseBoolCell, parseI64Cell, parseF64Cell,
          Except.toOption, Except.map]

end InferState

/-! ## Columns -/

/-- the cells of a column, in rows that may end before it -/
def columnCells (rows : List (List Data)) (i : ℕ) : List Data := rows.filterMap fun row => row[i]?

open InferState

/-- the loop over the rows is, for each column, a loop over its cells -/
theorem foldl_observeRow (rows : List (List Data)) (states : List InferState) :
    rows.foldl observeRow states = states.zipIdx.map fun s => (columnCells rows s.2).foldl observe s.1 := by
  induction rows generalizing states with
  | nil => simp [columnCells]
  | cons row rows ih =>
    rw [List.foldl_cons, ih]
    apply List.ext_getElem
    · simp [observeRow]
    · intro i hi hi'
      simp only [observeRow, List.getElem_map, List.getElem_zipIdx, Nat.zero_add, columnCells]
      cases hcell : row[i]? with
      | none => simp [hcell]
      | some c => simp [hcell]

/-- the type of a column -/
def columnType (rows : List (List Data)) (i : ℕ) : DataType := ((cellStates (columnCells rows i)).sup).finishType

/-- the schema of a header and the rows below it -/
def inferredSchema (headerCells : List String) (rows : List (List Data)) : Schema :=
  ⟨headerCells.zipIdx.map fun h => ⟨RustStd.trim h.1, columnType rows h.2⟩⟩

/-- a header whose cells name the columns -/
structure NamesColumns (headerCells : List String) : Prop where
  nonempty : ∀ h ∈ headerCells, RustStd.trim h ≠ ""
  distinct : (headerCells.map RustStd.trim).Nodup

theorem findHeaderRow_eq_ok {range : Range} {idx0 : ℕ} {headerCells : List String}
    (h : findHeaderRow range = .ok (idx0, headerCells)) :
    range.findIdx? isNonEmptyRow = some idx0 ∧ headerCells = (range.getD idx0 []).map cellToHeaderString := by
  unfold findHeaderRow at h
  split at h
  · rename_i idx hidx
    cases h
    exact ⟨hidx, rfl⟩
  · cases h

theorem header_ne_nil {range : Range} {idx0 : ℕ} {headerCells : List String}
    (h : findHeaderRow range = .ok (idx0, headerCells)) : headerCells ≠ [] := by
  obtain ⟨hidx, rfl⟩ := findHeaderRow_eq_ok h
  obtain ⟨hlt, hrow, -⟩ := List.findIdx?_eq_some_iff_getElem.1 hidx
  intro hnil
  rw [List.map_eq_nil_iff, List.getD_eq_getElem?_getD, List.getElem?_eq_getElem hlt, Option.getD_some] at hnil
  rw [hnil] at hrow
  cases hrow

/-- what is inferred -/
theorem inferSchema_eq (sheet : String) {range : Range} {idx0 : ℕ} {headerCells : List String}
    (h : findHeaderRow range = .ok (idx0, headerCells)) (hnames : NamesColumns headerCells) :
    inferSchemaFromSheetRange sheet range = .ok (inferredSchema headerCells (range.drop (idx0 + 1))) := by
  have hfields : (headerCells.zip ((range.drop (idx0 + 1)).foldl observeRow
      (List.replicate headerCells.length unknown))).map (fun p => (⟨RustStd.trim p.1, p.2.finishType⟩ : Field)) =
      headerCells.zipIdx.map fun h => ⟨RustStd.trim h.1, columnType (range.drop (idx0 + 1)) h.2⟩ := by
    rw [foldl_observeRow]
    apply List.ext_getElem
    · simp
    · intro i hi hi'
      simp [foldl_observe, ← bot_eq_unknown, columnType]
  have hkept : (headerCells.zipIdx.map fun h =>
      (⟨RustStd.trim h.1, columnType (range.drop (idx0 + 1)) h.2⟩ : Field)).filter (fun f => f.name ≠ "") =
        headerCells.zipIdx.map fun h => ⟨RustStd.trim h.1, columnType (range.drop (idx0 + 1)) h.2⟩ := by
    apply List.filter_eq_self.2
    intro f hf
    obtain ⟨⟨text, i⟩, hmem, rfl⟩ := List.mem_map.1 hf
    simpa using hnames.nonempty text (List.fst_mem_of_mem_zipIdx hmem)
  rw [inferSchemaFromSheetRange, h]
  change (if _ = [] then _ else _) = _
  simp only [hfields, hkept]
  rw [if_neg]
  · rfl
  · simpa using header_ne_nil h

/-- a named column is found at its own place -/
theorem sheetColumn_inferred {range : Range} {idx0 : ℕ} {headerCells : List String}
    (h : findHeaderRow range = .ok (idx0, headerCells)) (hnames : NamesColumns headerCells) {i : ℕ} {text : String}
    (hi : headerCells[i]? = some text) (dataType : DataType) :
    sheetColumn range ⟨RustStd.trim text, dataType⟩ = some i := by
  obtain ⟨hidx, hcells⟩ := findHeaderRow_eq_ok h
  obtain ⟨hlt, htext⟩ := List.getElem?_eq_some_iff.1 hi
  have hfirst : headerCells.findIdx? (fun t => RustStd.trim t = RustStd.trim text) = some i := by
    refine List.findIdx?_eq_some_iff_getElem.2 ⟨hlt, by simp [htext], fun j hj heq => ?_⟩
    have hjlt : j < headerCells.length := hj.trans hlt
    have hsame : j = i := by
      apply (List.getElem?_inj (by simpa using hjlt) hnames.distinct).1
      simpa [hjlt, hi] using heq
    omega
  rw [sheetColumn, hidx, ← hfirst, hcells]
  rfl

/-- every cell below the header converts to the type of its column -/
theorem sheetCell_isSome (display : Data → String) {range : Range} {idx0 : ℕ} {headerCells : List String}
    (h : findHeaderRow range = .ok (idx0, headerCells)) (hnames : NamesColumns headerCells) {i : ℕ} {text : String}
    (hi : headerCells[i]? = some text) {row : List Data} (hrow : row ∈ range.drop (idx0 + 1)) :
    (sheetCell display range row ⟨RustStd.trim text, columnType (range.drop (idx0 + 1)) i⟩).isSome = true := by
  rw [sheetCell, sheetColumn_inferred h hnames hi]
  apply dataValue_isSome
  rw [List.getD_eq_getElem?_getD]
  cases hcell : row[i]? with
  | none => exact .inl rfl
  | some c =>
    rw [Option.getD_some]
    by_cases hempty : c = .empty
    · exact .inl hempty
    · exact .inr (next_le (List.mem_filterMap.2 ⟨row, hrow, hcell⟩) hempty)

theorem sheetAccepts_inferred (display : Data → String) {range : Range} {idx0 : ℕ} {headerCells : List String}
    (h : findHeaderRow range = .ok (idx0, headerCells)) (hnames : NamesColumns headerCells) :
    SheetAccepts display range (inferredSchema headerCells (range.drop (idx0 + 1))) := by
  have hidx := (findHeaderRow_eq_ok h).1
  have hrecords : sheetRecords range = range.drop (idx0 + 1) := by rw [sheetRecords, hidx]
  constructor
  · rw [hidx]
    rfl
  · intro f hf
    obtain ⟨⟨text, i⟩, hmem, rfl⟩ := List.mem_map.1 hf
    rw [sheetColumn_inferred h hnames (List.mem_zipIdx_iff_getElem?.1 hmem)]
    rfl
  · intro row hrow f hf
    obtain ⟨⟨text, i⟩, hmem, rfl⟩ := List.mem_map.1 hf
    exact sheetCell_isSome display h hnames (List.mem_zipIdx_iff_getElem?.1 hmem) (hrecords ▸ hrow)

/-- the header is found again when the rows below it are others -/
theorem findHeaderRow_append {range : Range} {idx0 : ℕ} {headerCells : List String}
    (h : findHeaderRow range = .ok (idx0, headerCells)) (below : Range) :
    findHeaderRow (range.take (idx0 + 1) ++ below) = .ok (idx0, headerCells) := by
  obtain ⟨hidx, rfl⟩ := findHeaderRow_eq_ok h
  have hlt : idx0 < range.length := (List.findIdx?_eq_some_iff_getElem.1 hidx).1
  have hfound : (range.take (idx0 + 1) ++ below).findIdx? isNonEmptyRow = some idx0 := by
    simp [List.findIdx?_append, List.findIdx?_take, hidx]
  have hsame : (range.take (idx0 + 1) ++ below).getD idx0 [] = range.getD idx0 [] := by
    have hshort : idx0 < (range.take (idx0 + 1)).length := by simp [hlt]
    simp [List.getD_eq_getElem?_getD, List.getElem?_append_left hshort]
  rw [findHeaderRow, hfound, ← hsame]

/-- the schema depends on the cells of each column alone, in any order -/
theorem inferredSchema_perm (headerCells : List String) {rows rows' : List (List Data)}
    (h : ∀ i, (columnCells rows i).Perm (columnCells rows' i)) :
    inferredSchema headerCells rows = inferredSchema headerCells rows' := by
  have htype : ∀ i, columnType rows i = columnType rows' i := by
    intro i
    rw [columnType, columnType, cellStates_perm (h i)]
  simp [inferredSchema, htype]

/-- **Inference is sound**: the schema inferred from a sheet whose header names its columns has a field for each header
cell, of the cell's name and of its column's type. It reads the sheet, with one row for each row below the header. It is
inferred again when the rows below come in another order, and even when each column has an order of its own -/
theorem inference_sound (display : Data → String) (sheet : String) {range : Range} {idx0 : ℕ} {headerCells : List String}
    (h : findHeaderRow range = .ok (idx0, headerCells)) (hnames : NamesColumns headerCells) :
    ∃ schema, inferSchemaFromSheetRange sheet range = .ok schema ∧
      schema = inferredSchema headerCells (range.drop (idx0 + 1)) ∧
      (∃ rows, ingestSheetRange display sheet range schema = .ok rows ∧ rows.length = range.length - (idx0 + 1)) ∧
      (∀ below : Range, below.Perm (range.drop (idx0 + 1)) →
        inferSchemaFromSheetRange sheet (range.take (idx0 + 1) ++ below) = .ok schema) ∧
      ∀ below : Range, (∀ i, (columnCells below i).Perm (columnCells (range.drop (idx0 + 1)) i)) →
        inferSchemaFromSheetRange sheet (range.take (idx0 + 1) ++ below) = .ok schema := by
  have hlt : idx0 < range.length := (List.findIdx?_eq_some_iff_getElem.1 (findHeaderRow_eq_ok h).1).1
  have hcolumns : ∀ below : Range, (∀ i, (columnCells below i).Perm (columnCells (range.drop (idx0 + 1)) i)) →
      inferSchemaFromSheetRange sheet (range.take (idx0 + 1) ++ below) =
        .ok (inferredSchema headerCells (range.drop (idx0 + 1))) := by
    intro below hperm
    have hbelow : (range.take (idx0 + 1) ++ below).drop (idx0 + 1) = below := by
      apply List.drop_left'
      simpa using hlt
    rw [inferSchema_eq sheet (findHeaderRow_append h below) hnames, hbelow, inferredSchema_perm headerCells hperm]
  have hrows := (ingestSheetRange_returns display sheet range _).eq_ok (sheetAccepts_inferred display h hnames)
  refine ⟨_, inferSchema_eq sheet h hnames, rfl, ⟨_, hrows, ?_⟩, fun below hperm => ?_, hcolumns⟩
  · simp [sheetRows, sheetRecords, (findHeaderRow_eq_ok h).1]
  · apply hcolumns
    intro i
    exact hperm.filterMap _

/-- a sheet of two columns, one cell of them blank -/
def scores : Range := [[.string " id ", .string "score"], [.int 1, .float ⟨0x4004000000000000⟩], [.int 2, .empty]]

theorem scores_inferred :
    ∃ schema, inferSchemaFromSheetRange "Sheet1" scores = .ok schema ∧
      schema = ⟨[⟨"id", .int64⟩, ⟨"score", .float64⟩]⟩ ∧
      (∃ rows, ingestSheetRange (fun _ => "") "Sheet1" scores schema = .ok rows ∧ rows.length = 3 - (0 + 1)) ∧
      (∀ below : Range, below.Perm (scores.drop (0 + 1)) →
        inferSchemaFromSheetRange "Sheet1" (scores.take (0 + 1) ++ below) = .ok schema) ∧
      ∀ below : Range, (∀ i, (columnCells below i).Perm (columnCells (scores.drop (0 + 1)) i)) →
        inferSchemaFromSheetRange "Sheet1" (scores.take (0 + 1) ++ below) = .ok schema := by
  have hheader : findHeaderRow scores = .ok (0, [" id ", "score"]) := rfl
  obtain ⟨schema, hinferred, hschema, hrest⟩ :=
    inference_sound (fun _ => "") "Sheet1" hheader ⟨by decide, by decide⟩
  have htypes : inferredSchema [" id ", "score"] (scores.drop (0 + 1)) = ⟨[⟨"id", .int64⟩, ⟨"score", .float64⟩]⟩ := by
    decide +kernel
  exact ⟨schema, hinferred, hschema.trans htypes, hrest⟩

end RustDataProcessing.Ingestion.Excel
