/-
Plans collected into datasets (`DataFrame::collect` and `collect_with_schema` in `src/pipeline/mod.rs`,
`infer_schema_from_dataframe` in `src/ingestion/polars_bridge.rs`).

- `collect_fromDataset`: what the engine is given, it gives back: a dataset of typed cells comes back with its rows padded
  and cut to its schema.
- `collect_conforms`: what is collected has the frame's columns, in order, and a row for each of the frame's.
-/
import Mathlib.Tactic
import RustDataProcessing.Columnar
import RustDataProcessing.Pipeline.Reduce

namespace RustDataProcessing

open Polars (Engine PType Series PolarsError)
open Ingestion (dataframeToDataset datasetFrame datasetSeries datasetToDataframe targetType KeepsOwnType Loadable)
open Transform (AllTyped)

namespace Ingestion

/-- the column type of an engine type -/
def outputType : PType → Option DataType
  | .int8 | .int16 | .int32 | .int64 | .uint8 | .uint16 | .uint32 | .uint64 => some .int64
  | .float32 | .float64 => some .float64
  | .boolean => some .bool
  | .string => some .utf8
  | .struct _ => none
  | .other _ => none

/-- a column of a type that is not ours is an error, which prints its type -/
def inferField (display : PType → String) (s : Series) : IngestionResult Field :=
  match outputType s.dtype with
  | some dt => .ok ⟨s.name, dt⟩
  | none => .error (.schemaMismatch s!"unsupported polars dtype for output schema: {display s.dtype}")

def inferSchemaFromDataframe (display : PType → String) (df : Polars.DataFrame) : IngestionResult Schema := do
  let fields ← df.columns.mapM (inferField display)
  pure ⟨fields⟩

@[simp] theorem outputType_targetType (dt : DataType) : outputType (targetType dt) = some dt := by cases dt <;> rfl

theorem inferField_datasetSeries (display : PType → String) (ds : DataSet) (colIdx : ℕ) (field : Field) :
    inferField display (datasetSeries ds colIdx field) = .ok field := by
  unfold inferField datasetSeries
  rw [outputType_targetType]

theorem inferSchema_datasetFrame (display : PType → String) (ds : DataSet) :
    inferSchemaFromDataframe display (datasetFrame ds) = .ok ds.schema := by
  have hfields : (datasetFrame ds).columns.mapM (inferField display) = .ok ds.schema.fields := by
    conv_rhs => rw [← List.zipIdx_map_fst 0 ds.schema.fields]
    rw [datasetFrame, List.mapM_map]
    refine Traverse.mapM_ok (List.forall₂_map_right_iff.2 (List.forall₂_same.2 fun f _ => ?_))
    exact inferField_datasetSeries display ds f.2 f.1
  unfold inferSchemaFromDataframe
  rw [hfields]
  rfl

theorem inferSchema_ok {display : PType → String} {df : Polars.DataFrame} {schema : Schema}
    (h : inferSchemaFromDataframe display df = .ok schema) :
    List.Forall₂ (fun s f => f.name = s.name ∧ outputType s.dtype = some f.dataType) df.columns schema.fields := by
  unfold inferSchemaFromDataframe at h
  obtain ⟨fields, hfields, hschema⟩ := Traverse.bind_eq_ok h
  cases hschema
  refine (Traverse.mapM_eq_ok_iff.1 hfields).imp fun s f hf => ?_
  unfold inferField at hf
  split at hf
  · rename_i dt hdt
    cases hf
    exact ⟨rfl, hdt⟩
  · cases hf

theorem dataframeToDataset_rowCount {E : Polars.Engine} {df : Polars.DataFrame} {schema : Schema} {missingKind : String}
    {userRowStart : ℕ} {ds : DataSet} (h : dataframeToDataset E df schema missingKind userRowStart = .ok ds) :
    ds.rowCount = df.height := by
  obtain ⟨_, -, h⟩ := Traverse.bind_eq_ok h
  obtain ⟨columns, -, h⟩ := Traverse.bind_eq_ok h
  obtain ⟨rows, hrows, hds⟩ := Traverse.bind_eq_ok h
  cases hds
  have hlen := (Traverse.mapM_eq_ok_iff.1 hrows).length_eq
  rw [List.length_range] at hlen
  exact hlen.symm

end Ingestion

namespace Pipeline

open Ingestion (inferSchemaFromDataframe inferSchema_datasetFrame inferSchema_ok)

def DataFrame.collected (lf : DataFrame) : IngestionResult Polars.DataFrame :=
  lf.frame.mapError fun e => .error (polarsErrorToIngestion "failed to collect polars lazy plan" e)

/-- `DataFrame::collect` -/
def DataFrame.collect (E : Engine) (display : PType → String) (lf : DataFrame) : IngestionResult DataSet := do
  let df ← lf.collected
  let outSchema ← inferSchemaFromDataframe display df
  dataframeToDataset E df outSchema "column" 1

/-- `DataFrame::collect_with_schema` -/
def DataFrame.collectWithSchema (E : Engine) (schema : Schema) (lf : DataFrame) : IngestionResult DataSet := do
  let df ← lf.collected
  dataframeToDataset E df schema "column" 1

theorem fromDataset_ok {E : Engine} {ds : DataSet} {lf : DataFrame} (h : DataFrame.fromDataset E ds = .ok lf) :
    Loadable E.maxRows ds ∧ lf = .ofFrame (datasetFrame ds) := by
  unfold DataFrame.fromDataset at h
  obtain ⟨df, hdf, hlf⟩ := Traverse.bind_eq_ok h
  obtain ⟨hload, rfl⟩ := (Ingestion.datasetToDataframe_returns E.maxRows ds).of_ok hdf
  exact ⟨hload, (Except.ok.inj hlf).symm⟩

theorem collect_ofFrame (E : Engine) (display : PType → String) (df : Polars.DataFrame) :
    DataFrame.collect E display (.ofFrame df) =
      inferSchemaFromDataframe display df >>= fun schema => dataframeToDataset E df schema "column" 1 := rfl

/-- **Into the engine and back** -/
theorem collect_datasetFrame {E : Engine} (hE : KeepsOwnType E) (display : PType → String) {ds : DataSet}
    (hnames : ds.schema.fieldNames.Nodup) (htyped : AllTyped ds) :
    DataFrame.collect E display (.ofFrame (datasetFrame ds)) = .ok (fitted ds) := by
  rw [collect_ofFrame, inferSchema_datasetFrame]
  exact Ingestion.dataframeToDataset_datasetFrame hE hnames htyped "column" 1

theorem allTyped_of_loadable {maxRows : ℕ} {ds : DataSet} (h : Loadable maxRows ds) : AllTyped ds :=
  Transform.allTyped_iff.2 fun f hf row hrow => h.typed f.2 f.1 (List.mem_zipIdx_iff_getElem?.1 hf) row hrow

/-- what the engine is given, it gives back -/
theorem collect_fromDataset {E : Engine} (hE : KeepsOwnType E) (display : PType → String) {ds : DataSet}
    {lf : DataFrame} (h : DataFrame.fromDataset E ds = .ok lf) : lf.collect E display = .ok (fitted ds) := by
  obtain ⟨hload, rfl⟩ := fromDataset_ok h
  exact collect_datasetFrame hE display hload.distinct (allTyped_of_loadable hload)

/-- a collected dataset has the columns of the frame in their order, and a row for each of its rows -/
theorem collect_conforms {E : Engine} {display : PType → String} {lf : DataFrame} {ds : DataSet}
    (h : lf.collect E display = .ok ds) :
    ds.Conforms ds.schema ∧ ∃ df, lf.frame = .ok df ∧ ds.rowCount = df.height ∧
      List.Forall₂ (fun s f => f.name = s.name ∧ Ingestion.outputType s.dtype = some f.dataType) df.columns
        ds.schema.fields := by
  obtain ⟨df, hdf, hrest⟩ := Traverse.bind_eq_ok h
  obtain ⟨schema, hschema, hds⟩ := Traverse.bind_eq_ok hrest
  have hconf := Ingestion.dataframeToDataset_conforms hds
  obtain rfl := hconf.schema_eq
  exact ⟨hconf, df, Traverse.ok_of_mapError hdf, Ingestion.dataframeToDataset_rowCount hds, inferSchema_ok hschema⟩

end Pipeline

/-- rows that fit already stay as they are -/
theorem fitted_of_conforms {ds : DataSet} {schema : Schema} (h : ds.Conforms schema) : fitted ds = ds := by
  obtain ⟨ds_schema, rows⟩ := ds
  obtain ⟨rfl, hrows⟩ := h
  have hfit : rows.map (fitRow ds_schema.fields.length) = rows := by
    refine (List.map_congr_left fun row hrow => ?_).trans (List.map_id rows)
    have hlen := (hrows row hrow).length
    rw [fitRow, ← hlen, List.take_length, Nat.sub_self, List.replicate_zero, List.append_nil, id_eq]
  exact congrArg (DataSet.mk ds_schema) hfit

end RustDataProcessing
