/-
Datasets as columns, and back: an Arrow batch (`dataset_to_record_batch` in `src/transform.rs`) and an engine frame
(`dataset_to_dataframe` in `src/ingestion/polars_bridge.rs`).

Both go through the schema's fields by position and look at each row's cell there; a row that is too short has a null.
Both come back by name.

- `datasetToRecordBatch_returns`: which datasets become a batch, and the batch.
- `columnar_bridges_lose_nothing`: a dataset of typed cells comes back from both with its rows padded and cut to the
  schema (`fitRow`); with a cell of another type, neither conversion returns.

Of the engine, only that it leaves a column of the type asked for as it is (`KeepsOwnType`).
-/
import Mathlib.Tactic
import RustDataProcessing.Transform
import RustDataProcessing.Ingestion.PolarsBridge

namespace RustDataProcessing

open Arrow (ArrowDataType ArrowArray ArrowSchema RecordBatch)
open Traverse (Returns)
open Ingestion (rowCell)

/-! ## Record batches -/

/-- `RecordBatch::try_new` -/
def Arrow.RecordBatch.tryNew (schema : ArrowSchema) : List ArrowArray → Except String RecordBatch
  | [] => .error "must either specify a row count or at least one column"
  | first :: rest =>
    if h : (first :: rest).map ArrowArray.dataType = schema.fields.map Arrow.ArrowField.dataType ∧
        ∀ arr ∈ first :: rest, arr.cells.length = first.cells.length then
      .ok ⟨schema, first :: rest, first.cells.length, h.1, h.2⟩
    else .error "the columns do not match the schema, or each other"

/-- the parts of a batch make the batch -/
theorem Arrow.RecordBatch.tryNew_eq (batch : RecordBatch) (h : batch.columns ≠ []) :
    RecordBatch.tryNew batch.schema batch.columns = .ok batch := by
  obtain ⟨schema, columns, numRows, typed, sized⟩ := batch
  cases columns with
  | nil => exact absurd rfl h
  | cons first rest =>
    have hfirst : first.cells.length = numRows := sized first List.mem_cons_self
    subst hfirst
    exact dif_pos ⟨typed, sized⟩

namespace Transform

def arrowType : DataType → ArrowDataType
  | .int64 => .int64
  | .float64 => .float64
  | .bool => .boolean
  | .utf8 => .utf8

/-- a value of the type as a cell of its column -/
def toNative : (dt : DataType) → Value → Option (arrowType dt).Native
  | .int64, .int64 v => some v
  | .float64, .float64 v => some v
  | .bool, .bool v => some v
  | .utf8, .utf8 v => some v
  | _, _ => none

/-- the error of a cell of another type does not say its row -/
def recordCell (field : Field) : Option Value → IngestionResult (Option (arrowType field.dataType).Native)
  | none => .ok none
  | some v =>
    if v.fits field.dataType then .ok (toNative field.dataType v)
    else .error (.parseError 1 field.name (.value v) s!"value does not match schema type {field.dataType.debug}")

def recordColumn (ds : DataSet) (colIdx : ℕ) (field : Field) : IngestionResult ArrowArray := do
  let v ← ds.rows.mapM fun row => recordCell field row[colIdx]?
  pure ⟨arrowType field.dataType, v⟩

def arrowSchema (schema : Schema) : ArrowSchema :=
  ⟨schema.fields.map fun f => ⟨f.name, arrowType f.dataType, true, []⟩, []⟩

def datasetToRecordBatch (ds : DataSet) : IngestionResult RecordBatch := do
  let cols ← ds.schema.fields.zipIdx.mapM fun f => recordColumn ds f.2 f.1
  (RecordBatch.tryNew (arrowSchema ds.schema) cols).mapError fun e =>
    .error (.engine "failed to build Arrow RecordBatch" [⟨false, e⟩])

/-- the column a field of the dataset becomes -/
def recordArray (ds : DataSet) (colIdx : ℕ) (field : Field) : ArrowArray :=
  ⟨arrowType field.dataType, ds.rows.map fun row => toNative field.dataType (rowCell colIdx row)⟩

def datasetBatch (ds : DataSet) : RecordBatch where
  schema := arrowSchema ds.schema
  columns := ds.schema.fields.zipIdx.map fun f => recordArray ds f.2 f.1
  numRows := ds.rowCount
  typed := by
    rw [List.map_map, arrowSchema, List.map_map]
    conv_rhs => rw [← List.zipIdx_map_fst 0 ds.schema.fields, List.map_map]
    rfl
  sized arr harr := by
    obtain ⟨f, -, rfl⟩ := List.mem_map.1 harr
    exact List.length_map _

theorem toNative_null (dt : DataType) : toNative dt .null = none := by cases dt <;> rfl

theorem recordCell_returns (field : Field) (o : Option Value) :
    Returns (recordCell field o) ((o.getD .null).fits field.dataType) (toNative field.dataType (o.getD .null)) := by
  rcases o with - | v
  · exact Or.inl ⟨Or.inl rfl, congrArg Except.ok (toNative_null field.dataType).symm⟩
  · by_cases hv : v.fits field.dataType
    · exact Or.inl ⟨hv, if_pos hv⟩
    · exact Or.inr ⟨hv, _, if_neg hv⟩

theorem recordColumn_returns (ds : DataSet) (colIdx : ℕ) (field : Field) :
    Returns (recordColumn ds colIdx field) (∀ row ∈ ds.rows, (rowCell colIdx row).fits field.dataType)
      (recordArray ds colIdx field) := by
  have hcells := Returns.mapM fun row (_ : row ∈ ds.rows) => recordCell_returns field row[colIdx]?
  exact (hcells.bind fun _ => Returns.ok (recordArray ds colIdx field)).congr (by rw [and_true]; rfl) rfl

/-- the cells of every column are nulls or values of its type -/
def AllTyped (ds : DataSet) : Prop :=
  ∀ (i : ℕ) (f : Field), ds.schema.fields[i]? = some f → ∀ row ∈ ds.rows, ∀ cell, row[i]? = some cell →
    cell.fits f.dataType

/-- a cell past the end of a row is a null -/
theorem allTyped_iff {ds : DataSet} :
    AllTyped ds ↔ ∀ f ∈ ds.schema.fields.zipIdx, ∀ row ∈ ds.rows, (rowCell f.2 row).fits f.1.dataType := by
  constructor
  · intro h f hf row hrow
    unfold rowCell
    cases hcell : row[f.2]? with
    | none => exact Or.inl rfl
    | some cell => exact h f.2 f.1 (List.mem_zipIdx_iff_getElem?.1 hf) row hrow cell hcell
  · intro h i f hf row hrow cell hcell
    have hfits := h (f, i) (List.mem_zipIdx_iff_getElem?.2 hf) row hrow
    rwa [rowCell, hcell] at hfits

/-- **From a dataset to a batch**: with a column, it converts exactly when its cells are typed -/
theorem datasetToRecordBatch_returns {ds : DataSet} (hne : ds.schema.fields ≠ []) :
    Returns (datasetToRecordBatch ds) (AllTyped ds) (datasetBatch ds) := by
  have hcols := Returns.mapM fun (f : Field × ℕ) (_ : f ∈ ds.schema.fields.zipIdx) =>
    recordColumn_returns ds f.2 f.1
  have hcolumns : (datasetBatch ds).columns ≠ [] := by
    intro hnil
    rw [datasetBatch, List.map_eq_nil_iff, List.zipIdx_eq_nil_iff] at hnil
    exact hne hnil
  have hnew : Returns (RecordBatch.tryNew (arrowSchema ds.schema) (datasetBatch ds).columns) True (datasetBatch ds) :=
    Or.inl ⟨trivial, RecordBatch.tryNew_eq (datasetBatch ds) hcolumns⟩
  refine (hcols.bind fun _ => hnew.mapError _).congr ?_ rfl
  rw [and_true, allTyped_iff]

/-! ## Rows that come back -/

end Transform

/-- a row padded with nulls and cut to a number of cells -/
def fitRow (n : ℕ) (row : Row) : Row := row.take n ++ List.replicate (n - row.length) .null

/-- the cells at the positions of the fields -/
theorem fitRow_eq {β : Type} (l : List β) (row : Row) : (l.zipIdx.map fun f => rowCell f.2 row) = fitRow l.length row := by
  unfold fitRow
  refine List.ext_getElem (by simp; omega) fun i hi _ => ?_
  have hlt : i < l.length := by simpa using hi
  rw [List.getElem_map, List.getElem_zipIdx, rowCell, Nat.zero_add]
  by_cases hrow : i < row.length
  · rw [List.getElem_append_left (by simp; omega)]
    simp [hrow]
  · rw [List.getElem_append_right (by simp; omega)]
    simp [List.getElem?_eq_none (Nat.not_lt.1 hrow)]

/-- what a dataset is once its rows fit the schema -/
def fitted (ds : DataSet) : DataSet := ⟨ds.schema, ds.rows.map (fitRow ds.schema.fields.length)⟩

namespace Transform

theorem ownValue_toNative {dt : DataType} {v : Value} (h : v.fits dt) : ownValue (arrowType dt) (toNative dt v) = v := by
  rcases h with rfl | h
  · cases dt <;> rfl
  · cases dt <;> cases v <;> first
      | rfl
      | cases h

theorem takes_arrowType (dt : DataType) : takes dt (arrowType dt) = true := by cases dt <;> rfl

theorem columnOf_datasetBatch {ds : DataSet} (hnames : ds.schema.fieldNames.Nodup) {i : ℕ} {f : Field}
    (hf : ds.schema.fields[i]? = some f) : columnOf (datasetBatch ds) f = some (recordArray ds i f) := by
  have hindex : (datasetBatch ds).schema.indexOf f.name = ds.schema.indexOf f.name := by
    unfold ArrowSchema.indexOf Schema.indexOf datasetBatch arrowSchema
    rw [List.findIdx?_map]
    rfl
  rw [columnOf, hindex, Schema.indexOf_of_nodup hnames hf, Option.bind_some]
  simp [datasetBatch, hf]

/-- the rows of the batch -/
theorem gridOf_datasetBatch {ds : DataSet} (hnames : ds.schema.fieldNames.Nodup) (htyped : AllTyped ds) :
    gridOf ownCell (datasetBatch ds) ds.schema = ds.rows.map (fitRow ds.schema.fields.length) := by
  refine List.ext_getElem (by simp [gridOf, datasetBatch, DataSet.rowCount]) fun i hi hi' => ?_
  have hrow : i < ds.rows.length := by simpa using hi'
  simp only [gridOf, List.getElem_map, List.getElem_range]
  rw [← fitRow_eq]
  conv_lhs => rw [← List.zipIdx_map_fst 0 ds.schema.fields, List.map_map]
  refine List.map_congr_left fun f hf => ?_
  have hcell : (recordArray ds f.2 f.1).cell i = toNative f.1.dataType (rowCell f.2 ds.rows[i]) := by
    change (ds.rows.map fun row => toNative f.1.dataType (rowCell f.2 row))[i]?.join = _
    rw [List.getElem?_map, List.getElem?_eq_getElem hrow]
    rfl
  rw [Function.comp_apply, cellOf, columnOf_datasetBatch hnames (List.mem_zipIdx_iff_getElem?.1 hf)]
  dsimp only
  rw [ownCell, hcell]
  exact ownValue_toNative (allTyped_iff.1 htyped f hf _ (List.getElem_mem hrow))

/-- **Back from a batch** -/
theorem recordBatchToDataset_datasetBatch {ds : DataSet} (hnames : ds.schema.fieldNames.Nodup) (htyped : AllTyped ds) :
    recordBatchToDataset (datasetBatch ds) ds.schema = .ok (fitted ds) := by
  have hcolumns : ∀ f ∈ ds.schema.fields, ∃ j, columnOf (datasetBatch ds) f = some (recordArray ds j f) := by
    intro f hf
    obtain ⟨j, hj⟩ := List.mem_iff_getElem?.1 hf
    exact ⟨j, columnOf_datasetBatch hnames hj⟩
  rw [fitted, ← gridOf_datasetBatch hnames htyped]
  refine (recordBatchToDataset_returns _ _).eq_ok ⟨?_, ?_⟩
  · intro f hf
    obtain ⟨j, hj⟩ := hcolumns f hf
    rw [hj]
    rfl
  · intro _ f hf arr harr
    obtain ⟨j, hj⟩ := hcolumns f hf
    obtain rfl := Option.some.inj (hj.symm.trans harr)
    exact takes_arrowType f.dataType

end Transform

namespace Ingestion

open Transform (AllTyped allTyped_iff)

/-- a column of values of one type is left as it is by the cast to that type -/
structure KeepsOwnType (E : Polars.Engine) : Prop where
  cast_self : ∀ (name : String) (dt : DataType) (cells : List Value), (∀ v ∈ cells, v.fits dt) →
    E.cast ⟨name, targetType dt, cells.map toAnyValue⟩ (targetType dt) =
      .ok ⟨name, targetType dt, cells.map toAnyValue⟩

section Frame

variable {E : Polars.Engine} {ds : DataSet}

theorem castColumn_datasetFrame (hE : KeepsOwnType E) (hnames : ds.schema.fieldNames.Nodup) (htyped : AllTyped ds)
    (missingKind : String) (userRowStart : ℕ) {f : Field × ℕ} (hf : f ∈ ds.schema.fields.zipIdx) :
    castColumn E (datasetFrame ds) missingKind userRowStart f.1 = .ok (datasetSeries ds f.2 f.1) := by
  have hget := List.mem_zipIdx_iff_getElem?.1 hf
  have hcells : datasetSeries ds f.2 f.1 =
      ⟨f.1.name, targetType f.1.dataType, (ds.rows.map (rowCell f.2)).map toAnyValue⟩ := by
    rw [datasetSeries, List.map_map]
    rfl
  have hcast := hE.cast_self f.1.name f.1.dataType (ds.rows.map (rowCell f.2))
    (List.forall_mem_map.2 (allTyped_iff.1 htyped f hf))
  rw [← hcells] at hcast
  unfold castColumn
  rw [datasetFrame_column (Schema.indexOf_of_nodup hnames hget) hget]
  dsimp only
  rw [hcast]

theorem readCell_datasetSeries (htyped : AllTyped ds) (userRowStart : ℕ) {f : Field × ℕ}
    (hf : f ∈ ds.schema.fields.zipIdx) {i : ℕ} (hi : i < ds.rows.length) :
    readCell E userRowStart i f.1 (datasetSeries ds f.2 f.1) = .ok (rowCell f.2 ds.rows[i]) := by
  have hget : (datasetSeries ds f.2 f.1).get i = .ok (toAnyValue (rowCell f.2 ds.rows[i])) := by
    simp [Polars.Series.get, datasetSeries, hi]
  have hconvert := convertCell_toAnyValue (allTyped_iff.1 htyped f hf _ (List.getElem_mem hi))
  unfold readCell
  rw [hget]
  dsimp only
  rw [hconvert]

/-- **Back from a frame** -/
theorem dataframeToDataset_datasetFrame (hE : KeepsOwnType E) (hnames : ds.schema.fieldNames.Nodup)
    (htyped : AllTyped ds) (missingKind : String) (userRowStart : ℕ) :
    dataframeToDataset E (datasetFrame ds) ds.schema missingKind userRowStart = .ok (fitted ds) := by
  have hrequire := (requireColumns_returns (datasetFrame ds) missingKind ds.schema).eq_ok fun f hf => by
    obtain ⟨j, hj⟩ := List.mem_iff_getElem?.1 hf
    exact ⟨_, datasetFrame_column (Schema.indexOf_of_nodup hnames hj) hj⟩
  have hcols : ds.schema.fields.mapM (castColumn E (datasetFrame ds) missingKind userRowStart) =
      .ok (ds.schema.fields.zipIdx.map fun f => datasetSeries ds f.2 f.1) := by
    conv_lhs => rw [← List.zipIdx_map_fst 0 ds.schema.fields, List.mapM_map]
    refine Traverse.mapM_ok (List.forall₂_map_right_iff.2 (List.forall₂_same.2 fun f hf => ?_))
    exact castColumn_datasetFrame hE hnames htyped missingKind userRowStart hf
  have hzip : ds.schema.fields.zip (ds.schema.fields.zipIdx.map fun f => datasetSeries ds f.2 f.1) =
      ds.schema.fields.zipIdx.map fun f => (f.1, datasetSeries ds f.2 f.1) := by
    have hmap := List.zip_map' (f := Prod.fst) (g := fun f : Field × ℕ => datasetSeries ds f.2 f.1)
      (l := ds.schema.fields.zipIdx)
    rwa [List.zipIdx_map_fst] at hmap
  have hrows : ((List.range (datasetFrame ds).height).mapM fun i =>
      (ds.schema.fields.zip (ds.schema.fields.zipIdx.map fun f => datasetSeries ds f.2 f.1)).mapM fun p =>
        readCell E userRowStart i p.1 p.2) = .ok (ds.rows.map (fitRow ds.schema.fields.length)) := by
    refine Traverse.mapM_ok (List.forall₂_iff_get.2 ⟨by simp [datasetFrame, DataSet.rowCount], fun i hi hi' => ?_⟩)
    have hrow : i < ds.rows.length := by simpa using hi'
    simp only [List.get_eq_getElem, List.getElem_range, List.getElem_map]
    rw [hzip, List.mapM_map, ← fitRow_eq]
    refine Traverse.mapM_ok (List.forall₂_map_right_iff.2 (List.forall₂_same.2 fun f hf => ?_))
    exact readCell_datasetSeries htyped userRowStart hf hrow
  simp only [dataframeToDataset, hrequire, hcols, bind, Except.bind]
  rw [hrows]
  rfl

/-! ## Cells of another type -/

/-- the conversion to a frame returns or fails, where a series holds that many rows -/
theorem datasetToDataframe_answers {maxRows : ℕ} (hrows : ds.rowCount ≤ maxRows) :
    Answers (datasetToDataframe maxRows ds) := by
  refine Answers.bind (Answers.mapM fun f _ => ?_) fun cols _ => ?_
  · refine Answers.bind (Answers.mapM fun r _ => ?_) fun v _ => ?_
    · cases r.1[f.2]? with
      | none => exact Answers.ok _
      | some cell =>
        unfold columnCell
        dsimp only
        split_ifs
        · exact Answers.ok _
        · exact Answers.error _
    · rw [if_neg (by omega)]
      exact Answers.ok _
  · cases Polars.DataFrame.new ds.rowCount cols with
    | ok df => exact Answers.ok df
    | error e => exact Answers.error _

theorem datasetToRecordBatch_answers : Answers (Transform.datasetToRecordBatch ds) := by
  refine Answers.bind (Answers.mapM fun f _ => ?_) fun cols _ => ?_
  · refine Answers.bind (Answers.mapM fun row _ => ?_) fun v _ => Answers.ok _
    cases row[f.2]? with
    | none => exact Answers.ok _
    | some cell =>
      unfold Transform.recordCell
      dsimp only
      split_ifs
      · exact Answers.ok _
      · exact Answers.error _
  · cases RecordBatch.tryNew (Transform.arrowSchema ds.schema) cols with
    | ok batch => exact Answers.ok batch
    | error e => exact Answers.error _

/-- **Columnar bridges lose nothing**: typed cells come back, in rows that fit the schema; any other cell is an error -/
theorem columnar_bridges_lose_nothing (hE : KeepsOwnType E) {maxRows : ℕ} (hrows : ds.rowCount ≤ maxRows)
    (hne : ds.schema.fields ≠ []) (hnames : ds.schema.fieldNames.Nodup) (missingKind : String) (userRowStart : ℕ) :
    (AllTyped ds →
      (datasetToDataframe maxRows ds >>= fun df => dataframeToDataset E df ds.schema missingKind userRowStart) =
          .ok (fitted ds) ∧
        (Transform.datasetToRecordBatch ds >>= fun batch => Transform.recordBatchToDataset batch ds.schema) =
          .ok (fitted ds)) ∧
    (¬ AllTyped ds →
      (∃ e, datasetToDataframe maxRows ds = .error (.error e)) ∧
        ∃ e, Transform.datasetToRecordBatch ds = .error (.error e)) := by
  have hframe := datasetToDataframe_returns maxRows ds
  have hbatch := Transform.datasetToRecordBatch_returns hne
  have hloadable : Loadable maxRows ds ↔ AllTyped ds := by
    constructor
    · intro h
      refine allTyped_iff.2 fun f hf => ?_
      exact h.typed f.2 f.1 (List.mem_zipIdx_iff_getElem?.1 hf)
    · intro h
      refine ⟨hnames, fun _ => hrows, fun i f hf => ?_⟩
      exact allTyped_iff.1 h (f, i) (List.mem_zipIdx_iff_getElem?.2 hf)
  refine ⟨fun htyped => ⟨?_, ?_⟩, fun htyped => ⟨?_, ?_⟩⟩
  · rw [hframe.eq_ok (hloadable.2 htyped)]
    exact dataframeToDataset_datasetFrame hE hnames htyped missingKind userRowStart
  · rw [hbatch.eq_ok htyped]
    exact Transform.recordBatchToDataset_datasetBatch hnames htyped
  · refine (datasetToDataframe_answers hrows).err_of_not_ok fun df hdf => ?_
    exact htyped (hloadable.1 (hframe.of_ok hdf).1)
  · refine datasetToRecordBatch_answers.err_of_not_ok fun batch hok => ?_
    exact htyped (hbatch.of_ok hok).1

end Frame

/-! ## A ragged dataset -/

theorem plain_keepsOwnType : KeepsOwnType Polars.Engine.plain where
  cast_self name dt cells hcells := by
    have hcan : Polars.Engine.plain.canCast (targetType dt) (targetType dt) = true := by cases dt <;> rfl
    have hint : ∀ i : Int64, Polars.Engine.plain.castCell .int64 (.int64 i) = .int64 i := by
      intro i
      change (Polars.TextRules.int64OfInt i.toInt).elim Polars.AnyValue.null Polars.AnyValue.int64 = _
      rw [Polars.TextRules.int64OfInt_self]
      rfl
    have hself : cells.map (Polars.Engine.plain.castCell (targetType dt) ∘ toAnyValue) = cells.map toAnyValue := by
      refine List.map_congr_left fun v hv => ?_
      rcases hcells v hv with rfl | h
      · cases dt <;> rfl
      · cases dt <;> cases v <;> cases h
        · exact hint _
        · rfl
        · rfl
        · rfl
    rw [Polars.Engine.cast, if_pos hcan, List.map_map, hself]

def raggedPeople : DataSet :=
  ⟨⟨[⟨"id", .int64⟩, ⟨"name", .utf8⟩]⟩, [[.int64 1], [.int64 2, .utf8 "Ada", .bool true]]⟩

/-- one row is too short, one too long -/
theorem ragged_people_come_back :
    (datasetToDataframe 2 raggedPeople >>= fun df =>
        dataframeToDataset Polars.Engine.plain df raggedPeople.schema "column" 1) =
        .ok ⟨raggedPeople.schema, [[.int64 1, .null], [.int64 2, .utf8 "Ada"]]⟩ ∧
      (Transform.datasetToRecordBatch raggedPeople >>= fun batch =>
        Transform.recordBatchToDataset batch raggedPeople.schema) =
        .ok ⟨raggedPeople.schema, [[.int64 1, .null], [.int64 2, .utf8 "Ada"]]⟩ := by
  have htyped : AllTyped raggedPeople := allTyped_iff.2 (by decide)
  have hrows : raggedPeople.rowCount ≤ 2 := by decide
  have hne : raggedPeople.schema.fields ≠ [] := by decide
  have hnames : raggedPeople.schema.fieldNames.Nodup := by decide
  exact (columnar_bridges_lose_nothing plain_keepsOwnType hrows hne hnames "column" 1).1 htyped

end Ingestion

end RustDataProcessing
