/-
From Arrow batches to a dataset: `transform::arrow` (`src/transform.rs`).

Both converters of the repository look a column up by the field's name and go through the rows; what they do with one
cell is their own (`batchToDataset` has it as a parameter). Here a column must have exactly the field's type, with text
columns in either of the two text layouts; a cell of the result is then the row's own cell (`typedCell_returns`).

- `recordBatchesToDataset_ok`: what a conversion that succeeds returns.
-/
import Mathlib.Tactic
import RustDataProcessing.Arrow
import RustDataProcessing.Error
import RustDataProcessing.Lib.Traverse

namespace RustDataProcessing

open Arrow (ArrowDataType ArrowArray RecordBatch Crate)
open Traverse (Returns)

/-! ## Both converters -/

/-- the columns of the schema's fields -/
def columnIndices (batch : RecordBatch) (schema : Schema) : IngestionResult (List ℕ) :=
  schema.fields.mapM fun f => match batch.schema.indexOf f.name with
    | some idx => .ok idx
    | none => .error (.schemaMismatch s!"missing required column '{f.name}'")

def batchToDataset (cell : ArrowArray → ℕ → Field → IngestionResult Value) (batch : RecordBatch) (schema : Schema) :
    IngestionResult DataSet := do
  let colIdx ← columnIndices batch schema
  let rows ← (List.range batch.numRows).mapM fun row =>
    (schema.fields.zip colIdx).mapM fun c => do
      let arr ← index batch.columns c.2
      cell arr row c.1
  pure ⟨schema, rows⟩

/-- the column a field is read from -/
def columnOf (batch : RecordBatch) (f : Field) : Option ArrowArray :=
  (batch.schema.indexOf f.name).bind (batch.columns[·]?)

theorem column_of_index {batch : RecordBatch} {name : String} {idx : ℕ} (h : batch.schema.indexOf name = some idx) :
    ∃ arr, batch.columns[idx]? = some arr := by
  obtain ⟨hi, -⟩ := List.findIdx?_eq_some_iff_getElem.1 h
  have hlen : batch.columns.length = batch.schema.fields.length := by
    simpa using congrArg List.length batch.typed
  exact ⟨_, List.getElem?_eq_getElem (by omega)⟩

theorem columnIndices_returns (batch : RecordBatch) (schema : Schema) :
    Returns (columnIndices batch schema) (∀ f ∈ schema.fields, (columnOf batch f).isSome)
      (schema.fields.map fun f => (batch.schema.indexOf f.name).getD 0) := by
  refine Returns.mapM fun f _ => ?_
  cases hidx : batch.schema.indexOf f.name with
  | none => exact Or.inr ⟨by simp [columnOf, hidx], _, rfl⟩
  | some idx =>
    obtain ⟨arr, harr⟩ := column_of_index hidx
    exact Or.inl ⟨by simp [columnOf, hidx, harr], rfl⟩

/-- what the cells of a row are, if each of its columns can be converted -/
def cellOf (own : ArrowArray → ℕ → Value) (batch : RecordBatch) (row : ℕ) (f : Field) : Value :=
  match columnOf batch f with
  | some arr => own arr row
  | none => .null

def gridOf (own : ArrowArray → ℕ → Value) (batch : RecordBatch) (schema : Schema) : List Row :=
  (List.range batch.numRows).map fun row => schema.fields.map (cellOf own batch row)

/-- what a row's conversion returns, once its columns are known -/
theorem row_returns {cell : ArrowArray → ℕ → Field → IngestionResult Value} {own : ArrowArray → ℕ → Value}
    {P : ArrowArray → Field → Prop} {batch : RecordBatch} {fields : List Field} {row : ℕ}
    (hcols : ∀ f ∈ fields, (columnOf batch f).isSome)
    (hcell : ∀ f ∈ fields, ∀ arr, columnOf batch f = some arr → Returns (cell arr row f) (P arr f) (own arr row)) :
    Returns ((fields.zip (fields.map fun f => (batch.schema.indexOf f.name).getD 0)).mapM fun c => do
        let arr ← index batch.columns c.2
        cell arr row c.1)
      (∀ f ∈ fields, ∀ arr, columnOf batch f = some arr → P arr f) (fields.map (cellOf own batch row)) := by
  rw [← List.map_prod_left_eq_zip, List.mapM_map]
  refine Returns.mapM fun f hf => ?_
  obtain ⟨arr, harr⟩ := Option.isSome_iff_exists.1 (hcols f hf)
  obtain ⟨idx, hidx, hget⟩ := Option.bind_eq_some_iff.1 harr
  have hindex : index batch.columns ((batch.schema.indexOf f.name).getD 0) = .ok arr := by
    simp [index, hidx, hget]
  have hown : cellOf own batch row f = own arr row := by simp [cellOf, harr]
  change Returns (index batch.columns _ >>= fun arr => cell arr row f) _ _
  rw [hindex, hown]
  refine (hcell f hf arr harr).congr ?_ rfl
  simp [harr]

/-- **A conversion** returns the cells its columns have -/
theorem batchToDataset_returns {cell : ArrowArray → ℕ → Field → IngestionResult Value} {own : ArrowArray → ℕ → Value}
    {P : ArrowArray → Field → Prop} {batch : RecordBatch} {schema : Schema}
    (hcell : ∀ row < batch.numRows, ∀ f ∈ schema.fields, ∀ arr, columnOf batch f = some arr →
      Returns (cell arr row f) (P arr f) (own arr row)) :
    Returns (batchToDataset cell batch schema)
      ((∀ f ∈ schema.fields, (columnOf batch f).isSome) ∧
        (batch.numRows ≠ 0 → ∀ f ∈ schema.fields, ∀ arr, columnOf batch f = some arr → P arr f))
      ⟨schema, gridOf own batch schema⟩ := by
  refine (Returns.bind (columnIndices_returns batch schema) fun hcols =>
    Returns.bind (Returns.mapM fun row hrow => row_returns hcols (hcell row (List.mem_range.1 hrow)))
      fun _ => Returns.ok (⟨schema, gridOf own batch schema⟩ : DataSet)).congr ?_ rfl
  rw [and_true]
  refine and_congr_right fun _ => ⟨fun h hn => h 0 (List.mem_range.2 (Nat.pos_of_ne_zero hn)), fun h row hrow => h ?_⟩
  have := List.mem_range.1 hrow
  omega

theorem row_conforms {cell : ArrowArray → ℕ → Field → IngestionResult Value}
    (hcell : ∀ arr row f v, cell arr row f = .ok v → v.fits f.dataType) {batch : RecordBatch} {row : ℕ}
    {fields : List Field} {colIdx : List ℕ} (hlen : fields.length = colIdx.length) {out : Row}
    (h : ((fields.zip colIdx).mapM fun c => do
        let arr ← index batch.columns c.2
        cell arr row c.1) = .ok out) : Row.Conforms out ⟨fields⟩ := by
  have hcells := Traverse.mapM_eq_ok_iff.1 h
  have hfields : (fields.zip colIdx).map Prod.fst = fields := List.map_fst_zip (by omega)
  unfold Row.Conforms
  conv => arg 3; rw [← hfields]
  rw [List.forall₂_map_right_iff]
  refine (List.Forall₂.imp (fun c v hv => ?_) hcells).flip
  obtain ⟨arr, -, hv⟩ := Traverse.bind_eq_ok hv
  exact hcell arr row c.1 v hv

/-- what a conversion returns conforms to the schema, if each cell has the field's type -/
theorem batchToDataset_conforms {cell : ArrowArray → ℕ → Field → IngestionResult Value}
    (hcell : ∀ arr row f v, cell arr row f = .ok v → v.fits f.dataType) {batch : RecordBatch} {schema : Schema}
    {ds : DataSet} (h : batchToDataset cell batch schema = .ok ds) : ds.Conforms schema := by
  obtain ⟨colIdx, hidx, h⟩ := Traverse.bind_eq_ok h
  obtain ⟨rows, hrows, h⟩ := Traverse.bind_eq_ok h
  obtain rfl := Except.ok.inj h
  refine ⟨rfl, fun out hout => ?_⟩
  have hflip := (Traverse.mapM_eq_ok_iff.1 hrows).flip
  obtain ⟨row, -, hrow⟩ := Traverse.exists_of_mem hflip hout
  exact row_conforms hcell (Traverse.mapM_eq_ok_iff.1 hidx).length_eq hrow

namespace Transform

/-! ## One batch -/

/-- a cell of the field's type -/
def typedCell (name : String) : (target : DataType) → (dt : ArrowDataType) → Option dt.Native → IngestionResult Value
  | .int64, .int64, v => .ok (v.elim .null .int64)
  | .int64, _, _ => .error (.schemaMismatch s!"arrow column '{name}' is not Int64")
  | .float64, .float64, v => .ok (v.elim .null .float64)
  | .float64, _, _ => .error (.schemaMismatch s!"arrow column '{name}' is not Float64")
  | .bool, .boolean, v => .ok (v.elim .null .bool)
  | .bool, _, _ => .error (.schemaMismatch s!"arrow column '{name}' is not Boolean")
  | .utf8, .utf8, v => .ok (v.elim .null .utf8)
  | .utf8, .largeUtf8, v => .ok (v.elim .null .utf8)
  | .utf8, _, _ => .error (.schemaMismatch s!"arrow column '{name}' is not Utf8/LargeUtf8")

/-- the types of a column that a field takes -/
def takes : DataType → ArrowDataType → Bool
  | .int64, .int64 | .float64, .float64 | .bool, .boolean | .utf8, .utf8 | .utf8, .largeUtf8 => true
  | _, _ => false

/-- the row's own cell -/
def ownValue : (dt : ArrowDataType) → Option dt.Native → Value
  | .int64, some v => .int64 v
  | .float64, some v => .float64 v
  | .boolean, some v => .bool v
  | .utf8, some v => .utf8 v
  | .largeUtf8, some v => .utf8 v
  | _, _ => .null

def ownCell (arr : ArrowArray) (row : ℕ) : Value := ownValue arr.dataType (arr.cell row)

theorem typedCell_returns (name : String) (target : DataType) (dt : ArrowDataType) (v : Option dt.Native) :
    Returns (typedCell name target dt v) (takes target dt = true) (ownValue dt v) := by
  cases target <;> cases dt <;>
    first
      | (exact Or.inr ⟨by simp [takes], _, rfl⟩)
      | (cases v <;> exact Or.inl ⟨rfl, rfl⟩)

def recordBatchToDataset (batch : RecordBatch) (schema : Schema) : IngestionResult DataSet :=
  batchToDataset (fun arr row f => typedCell f.name f.dataType arr.dataType (arr.cell row)) batch schema

/-! ## A list of batches -/

def recordBatchesToDataset (A : Crate) (batches : List RecordBatch) (schema : Schema) : IngestionResult DataSet :=
  match batches with
  | [] => .ok ⟨schema, []⟩
  | first :: rest =>
    if rest.any fun b => b.schema ≠ first.schema then
      .error (.schemaMismatch "record_batches_to_dataset: all batches must share the same Arrow schema")
    else do
      let merged ← match rest with
        | [] => pure first
        | _ => (A.concatBatches first.schema (first :: rest)).mapError fun e =>
          .error (.engine "arrow concat_batches failed" [⟨false, e⟩])
      recordBatchToDataset merged schema

/-! ## Rows of all batches -/

/-- the cells of a column, row by row -/
def valuesOf (batch : RecordBatch) (f : Field) : List Value :=
  (List.range batch.numRows).map fun row => cellOf ownCell batch row f

/-- rows of columns of one height -/
def grid (fields : List Field) (n : ℕ) (col : Field → List Value) : List Row :=
  (List.range n).map fun row => fields.map fun f => (col f).getD row .null

theorem gridOf_eq_grid (batch : RecordBatch) (schema : Schema) :
    gridOf ownCell batch schema = grid schema.fields batch.numRows (valuesOf batch) := by
  refine List.map_congr_left fun row hrow => List.map_congr_left fun f _ => ?_
  have hlt := List.mem_range.1 hrow
  simp [valuesOf, List.getElem?_range hlt]

theorem grid_append {fields : List Field} {n m : ℕ} {col₁ col₂ : Field → List Value}
    (h : ∀ f ∈ fields, (col₁ f).length = n) :
    grid fields (n + m) (fun f => col₁ f ++ col₂ f) = grid fields n col₁ ++ grid fields m col₂ := by
  unfold grid
  rw [List.range_add, List.map_append, List.map_map]
  congr 1
  · refine List.map_congr_left fun row hrow => List.map_congr_left fun f hf => ?_
    have hlt : row < (col₁ f).length := by rw [h f hf]; exact List.mem_range.1 hrow
    simp [List.getElem?_append_left hlt]
  · refine List.map_congr_left fun row _ => List.map_congr_left fun f hf => ?_
    have hlen := h f hf
    simp [List.getElem?_append_right (by omega : (col₁ f).length ≤ n + row), hlen]

/-- columns put one after the other are rows put one after the other -/
theorem grid_flatten (fields : List Field) (batches : List RecordBatch) :
    grid fields (batches.map RecordBatch.numRows).sum (fun f => (batches.map (valuesOf · f)).flatten) =
      (batches.map fun b => grid fields b.numRows (valuesOf b)).flatten := by
  induction batches with
  | nil => rfl
  | cons b batches ih =>
    simp only [List.map_cons, List.sum_cons, List.flatten_cons]
    rw [grid_append fun f _ => by simp [valuesOf], ih]

/-- the values of a column are its cells, converted -/
theorem valuesOf_eq {batch : RecordBatch} {f : Field} {arr : ArrowArray} (h : columnOf batch f = some arr) :
    valuesOf batch f = arr.cells.map (ownValue arr.dataType) := by
  obtain ⟨idx, -, hget⟩ := Option.bind_eq_some_iff.1 h
  have hlen := batch.sized arr (List.mem_of_getElem? hget)
  refine List.ext_getElem (by simp [valuesOf, hlen]) fun row hrow _ => ?_
  have hlt : row < arr.cells.length := by simpa [valuesOf, hlen] using hrow
  simp [valuesOf, cellOf, h, ownCell, ArrowArray.cell, hlt]

/-- each batch has its part of a column -/
theorem columnOf_part {sch : Arrow.ArrowSchema} {batches : List RecordBatch} {merged : RecordBatch}
    (hmerged : Arrow.Concatenated sch batches merged) (hsch : ∀ b ∈ batches, b.schema = sch) {f : Field}
    {arr : ArrowArray} (h : columnOf merged f = some arr) :
    ∃ parts : List (List (Option arr.dataType.Native)),
      List.Forall₂ (fun b cells => columnOf b f = some ⟨arr.dataType, cells⟩) batches parts ∧
      arr.cells = parts.flatten := by
  obtain ⟨idx, hidx, hget⟩ := Option.bind_eq_some_iff.1 h
  obtain ⟨parts, hparts, hcells⟩ := hmerged.columns idx arr hget
  refine ⟨parts, ?_, hcells⟩
  have hcols : batches.map (columnOf · f) = batches.map fun b => b.columns[idx]? := by
    refine List.map_congr_left fun b hb => ?_
    rw [hmerged.schema, ← hsch b hb] at hidx
    simp [columnOf, hidx]
  rw [← hcols] at hparts
  have heq : List.Forall₂ Eq (batches.map (columnOf · f)) (parts.map fun cells => some ⟨arr.dataType, cells⟩) := by
    rw [List.forall₂_eq_eq_eq]
    exact hparts
  rwa [List.forall₂_map_left_iff, List.forall₂_map_right_iff] at heq

theorem valuesOf_parts {f : Field} {dt : ArrowDataType} {batches : List RecordBatch}
    {parts : List (List (Option dt.Native))}
    (h : List.Forall₂ (fun b cells => columnOf b f = some ⟨dt, cells⟩) batches parts) :
    batches.map (valuesOf · f) = parts.map (List.map (ownValue dt)) := by
  induction h with
  | nil => rfl
  | cons hb _ ih => rw [List.map_cons, List.map_cons, valuesOf_eq hb, ih]

/-- the rows of a concatenation are the batches' rows -/
theorem gridOf_concatenated {sch : Arrow.ArrowSchema} {batches : List RecordBatch} {merged : RecordBatch}
    (hmerged : Arrow.Concatenated sch batches merged) (hsch : ∀ b ∈ batches, b.schema = sch) {schema : Schema}
    (hcols : ∀ f ∈ schema.fields, (columnOf merged f).isSome) :
    gridOf ownCell merged schema = (batches.map fun b => gridOf ownCell b schema).flatten := by
  have hvalues : ∀ f ∈ schema.fields, valuesOf merged f = (batches.map (valuesOf · f)).flatten := by
    intro f hf
    obtain ⟨arr, harr⟩ := Option.isSome_iff_exists.1 (hcols f hf)
    obtain ⟨parts, hparts, hcells⟩ := columnOf_part hmerged hsch harr
    rw [valuesOf_eq harr, hcells, List.map_flatten, valuesOf_parts hparts]
  simp only [gridOf_eq_grid]
  rw [← grid_flatten, hmerged.numRows]
  refine List.map_congr_left fun row _ => List.map_congr_left fun f hf => ?_
  rw [hvalues f hf]

/-! ## What a conversion returns -/

/-- every field has a column, of a type it takes unless there are no rows -/
structure Convertible (schema : Schema) (batch : RecordBatch) : Prop where
  columns : ∀ f ∈ schema.fields, (columnOf batch f).isSome
  takes : batch.numRows ≠ 0 → ∀ f ∈ schema.fields, ∀ arr, columnOf batch f = some arr →
    takes f.dataType arr.dataType = true

theorem recordBatchToDataset_returns (batch : RecordBatch) (schema : Schema) :
    Returns (recordBatchToDataset batch schema) (Convertible schema batch) ⟨schema, gridOf ownCell batch schema⟩ := by
  have hcell : ∀ row < batch.numRows, ∀ f ∈ schema.fields, ∀ arr, columnOf batch f = some arr →
      Returns (typedCell f.name f.dataType arr.dataType (arr.cell row)) (takes f.dataType arr.dataType = true)
        (ownCell arr row) := fun row _ f _ arr _ => typedCell_returns _ _ _ _
  refine (batchToDataset_returns hcell).congr ?_ rfl
  exact ⟨fun h => ⟨h.1, h.2⟩, fun h => ⟨h.columns, h.takes⟩⟩

theorem recordBatchToDataset_ok {batch : RecordBatch} {schema : Schema} {ds : DataSet}
    (h : recordBatchToDataset batch schema = .ok ds) :
    Convertible schema batch ∧ ds = ⟨schema, gridOf ownCell batch schema⟩ :=
  (recordBatchToDataset_returns batch schema).of_ok h

theorem concatenated_self (batch : RecordBatch) : Arrow.Concatenated batch.schema [batch] batch := by
  refine ⟨rfl, by simp, fun i arr harr => ⟨[arr.cells], by simp [harr], by simp⟩⟩

theorem Convertible.of_concatenated {sch : Arrow.ArrowSchema} {batches : List RecordBatch} {merged : RecordBatch}
    (hmerged : Arrow.Concatenated sch batches merged) (hsch : ∀ b ∈ batches, b.schema = sch) {schema : Schema}
    (h : Convertible schema merged) : ∀ b ∈ batches, Convertible schema b := by
  intro b hb
  have hpart : ∀ f ∈ schema.fields, ∃ arr cells, columnOf merged f = some arr ∧
      columnOf b f = some ⟨arr.dataType, cells⟩ := by
    intro f hf
    obtain ⟨arr, harr⟩ := Option.isSome_iff_exists.1 (h.columns f hf)
    obtain ⟨parts, hparts, -⟩ := columnOf_part hmerged hsch harr
    obtain ⟨cells, -, hcells⟩ := Traverse.exists_of_mem hparts hb
    exact ⟨arr, cells, harr, hcells⟩
  constructor
  · intro f hf
    obtain ⟨arr, cells, -, hcells⟩ := hpart f hf
    rw [hcells]
    rfl
  · intro hn f hf part hpart'
    obtain ⟨arr, cells, harr, hcells⟩ := hpart f hf
    obtain rfl := Option.some.inj (hcells.symm.trans hpart')
    refine h.takes ?_ f hf arr harr
    rw [hmerged.numRows]
    have := List.single_le_sum (fun n _ => Nat.zero_le n) _ (List.mem_map.2 ⟨b, hb, rfl⟩ : b.numRows ∈ batches.map _)
    omega

/-- **A conversion that succeeds** returns the rows' own cells, batch after batch -/
theorem recordBatchesToDataset_ok {A : Crate} {batches : List RecordBatch} {schema : Schema} {ds : DataSet}
    (h : recordBatchesToDataset A batches schema = .ok ds) :
    (∀ b ∈ batches, Convertible schema b) ∧
      ds = ⟨schema, (batches.map fun b => gridOf ownCell b schema).flatten⟩ := by
  cases batches with
  | nil => exact ⟨by simp, (Except.ok.inj h).symm⟩
  | cons first rest =>
    rw [recordBatchesToDataset] at h
    split_ifs at h with hany
    have hsch : ∀ b ∈ first :: rest, b.schema = first.schema := by
      intro b hb
      rcases List.mem_cons.1 hb with rfl | hb
      · rfl
      · by_contra hne
        exact hany (List.any_eq_true.2 ⟨b, hb, by simpa using hne⟩)
    obtain ⟨merged, hmerged, h⟩ : ∃ merged, Arrow.Concatenated first.schema (first :: rest) merged ∧
        recordBatchToDataset merged schema = .ok ds := by
      cases rest with
      | nil => exact ⟨first, concatenated_self first, h⟩
      | cons second rest =>
        cases hconcat : A.concatBatches first.schema (first :: second :: rest) with
        | error e =>
          dsimp only at h
          rw [hconcat] at h
          cases h
        | ok merged =>
          dsimp only at h
          rw [hconcat] at h
          exact ⟨merged, A.concatenated _ _ _ hconcat, h⟩
    obtain ⟨hconv, rfl⟩ := recordBatchToDataset_ok h
    exact ⟨hconv.of_concatenated hmerged hsch, by rw [gridOf_concatenated hmerged hsch hconv.columns]⟩

end Transform

end RustDataProcessing
