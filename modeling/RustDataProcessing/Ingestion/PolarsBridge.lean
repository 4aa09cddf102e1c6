/-
From an engine frame to a dataset (`src/ingestion/polars_bridge.rs`, `dataframe_to_dataset`). Every column of the schema
is looked up, cast to its field's type as a whole, and then read cell by cell. The CSV, JSON and Parquet path readers
end here.

- `dataframeToDataset_returns`: the call returns a dataset exactly when every field's column is there and has a cast
  (`Castable`), and the dataset holds the cast cells.
- `no_silent_loss_iff`: the cast is not strict, so the call neither loses a value nor accepts one it should refuse
  exactly when there is no such value (`AllRepresentable`), or the call fails for another reason.
- `text_lost`: the text "abc" in a column read as `Int64` becomes a null.

And from a dataset to a frame (`dataset_to_dataframe`), where the pipelines begin: `datasetToDataframe_returns` says
which datasets load (`Loadable`): the names are distinct and each cell is a null or a value of its column's type.
-/
import Mathlib.Tactic
import RustDataProcessing.Lib.Traverse
import RustDataProcessing.Error

namespace RustDataProcessing.Ingestion

open Polars

/-! ## The source -/

/-- the `target` of the cast -/
def targetType : DataType → PType
  | .int64 => .int64
  | .float64 => .float64
  | .bool => .boolean
  | .utf8 => .string

def missingRequired (missingKind : String) (field : Field) : Fault :=
  .schemaMismatch s!"missing required {missingKind} '{field.name}'"

def requireColumns (df : DataFrame) (missingKind : String) (schema : Schema) : IngestionResult Unit :=
  schema.fields.forM fun field => match df.column field.name with
    | .error _ => .error (missingRequired missingKind field)
    | .ok _ => .ok ()

def castColumn (E : Engine) (df : DataFrame) (missingKind : String) (userRowStart : ℕ) (field : Field) :
    IngestionResult Series :=
  match df.column field.name with
  | .error _ => .error (missingRequired missingKind field)
  | .ok s => match E.cast s (targetType field.dataType) with
    | .error e => .error (.parseError userRowStart field.name (.text "") e.toString)
    | .ok casted => .ok casted

/-- the `match` on the field's type and the cast cell; none is its last arm -/
def convertCell : DataType → AnyValue → Option Value
  | _, .null => some .null
  | .int64, .int64 v => some (.int64 v)
  | .float64, .float64 v => some (.float64 v)
  | .bool, .boolean v => some (.bool v)
  | .utf8, .string v => some (.utf8 v)
  | .utf8, .stringOwned v => some (.utf8 v)
  | _, _ => none

def readCell (E : Engine) (userRowStart rowIdx0 : ℕ) (field : Field) (s : Series) : IngestionResult Value :=
  let userRow := rowIdx0 + userRowStart
  match s.get rowIdx0 with
  | .error e => .error (.parseError userRow field.name (.text "") e.toString)
  | .ok av => match convertCell field.dataType av with
    | some v => .ok v
    | none => .error (.parseError userRow field.name (.text (E.display av)) s!"unexpected value for {field.dataType.debug}")

def dataframeToDataset (E : Engine) (df : DataFrame) (schema : Schema) (missingKind : String) (userRowStart : ℕ) :
    IngestionResult DataSet := do
  requireColumns df missingKind schema
  let cols ← schema.fields.mapM (castColumn E df missingKind userRowStart)
  let outRows ← (List.range df.height).mapM fun rowIdx0 =>
    (schema.fields.zip cols).mapM fun p => readCell E userRowStart rowIdx0 p.1 p.2
  pure ⟨schema, outRows⟩

/-! ## What it computes -/

/-- every field's column is there, and has a cast to the field's type -/
def Castable (E : Engine) (df : DataFrame) (schema : Schema) : Prop :=
  ∀ f ∈ schema.fields, ∃ s, df.column f.name = .ok s ∧ E.canCast s.dtype (targetType f.dataType)

/-- the cell of a column, null where there is none -/
def frameCell (df : DataFrame) (name : String) (i : ℕ) : AnyValue :=
  match df.column name with
  | .ok s => s.cells.getD i .null
  | .error _ => .null

/-- the value of a cell after the cast -/
def castValue (E : Engine) (dt : DataType) (v : AnyValue) : Value :=
  (convertCell dt (E.castCell (targetType dt) v)).getD .null

def frameRows (E : Engine) (df : DataFrame) (schema : Schema) : List Row :=
  (List.range df.height).map fun i => schema.fields.map fun f => castValue E f.dataType (frameCell df f.name i)

/-- the conversion of a scalar, on the program's own values -/
def scalarValue (E : Engine) : DataType → AnyValue → Value
  | .int64, v => (E.int64Of v).elim .null .int64
  | .float64, v => (E.float64Of v).elim .null .float64
  | .bool, v => (E.boolOf v).elim .null .bool
  | .utf8, v => (E.stringOf v).elim .null .utf8

theorem elim_eq_null_iff {α : Type} {val : α → Value} (hval : ∀ a, val a ≠ .null) (o : Option α) :
    o.elim .null val = .null ↔ o = none := by
  cases o with
  | none => simp
  | some a => simpa using hval a

theorem elim_eq_iff {α : Type} {val : α → Value} (hval : ∀ a, val a ≠ .null) (hinj : Function.Injective val)
    (o : Option α) (a : α) : o.elim .null val = val a ↔ o = some a := by
  cases o with
  | none => simpa using (hval a).symm
  | some b => simpa using hinj.eq_iff

@[simp] theorem convertCell_null (dt : DataType) : convertCell dt .null = some .null := by cases dt <;> rfl

/-- a cell that is a null or a `mk` reads as a null or a `val` -/
theorem convertCell_elim {α : Type} (dt : DataType) (mk : α → AnyValue) (val : α → Value)
    (hread : ∀ a, convertCell dt (mk a) = some (val a)) (htype : ∀ a, (val a).hasType dt = true) (o : Option α) :
    convertCell dt (o.elim .null mk) = some (o.elim .null val) ∧ (o.elim .null val).fits dt := by
  cases o with
  | none => exact ⟨convertCell_null dt, Or.inl rfl⟩
  | some a => exact ⟨hread a, Or.inr (htype a)⟩

/-- **Cast cells can be read**: the last arm of the match is never taken, and the value has the field's type -/
theorem convertCell_cast {E : Engine} (hE : E.NonStrict) (dt : DataType) (v : AnyValue) :
    convertCell dt (E.castCell (targetType dt) v) = some (castValue E dt v) ∧ (castValue E dt v).fits dt ∧
      (v.isScalar → castValue E dt v = scalarValue E dt v) := by
  have key : ∃ w : Value, convertCell dt (E.castCell (targetType dt) v) = some w ∧ w.fits dt ∧
      (v.isScalar → w = scalarValue E dt v) := by
    cases dt with
    | int64 =>
      obtain ⟨o, ho, hs⟩ := hE.to_int64 v
      obtain ⟨h1, h2⟩ := convertCell_elim .int64 .int64 .int64 (fun _ => rfl) (fun _ => rfl) o
      exact ⟨_, by rw [targetType, ho]; exact h1, h2, fun hv => by rw [scalarValue, ← hs hv]⟩
    | float64 =>
      obtain ⟨o, ho, hs⟩ := hE.to_float64 v
      obtain ⟨h1, h2⟩ := convertCell_elim .float64 .float64 .float64 (fun _ => rfl) (fun _ => rfl) o
      exact ⟨_, by rw [targetType, ho]; exact h1, h2, fun hv => by rw [scalarValue, ← hs hv]⟩
    | bool =>
      obtain ⟨o, ho, hs⟩ := hE.to_boolean v
      obtain ⟨h1, h2⟩ := convertCell_elim .bool .boolean .bool (fun _ => rfl) (fun _ => rfl) o
      exact ⟨_, by rw [targetType, ho]; exact h1, h2, fun hv => by rw [scalarValue, ← hs hv]⟩
    | utf8 =>
      obtain ⟨o, ho, hs⟩ := hE.to_string v
      obtain ⟨h1, h2⟩ := convertCell_elim .utf8 .string .utf8 (fun _ => rfl) (fun _ => rfl) o
      exact ⟨_, by rw [targetType, ho]; exact h1, h2, fun hv => by rw [scalarValue, ← hs hv]⟩
  obtain ⟨w, hw, hfits, hscalar⟩ := key
  have hval : castValue E dt v = w := by rw [castValue, hw]; rfl
  rw [hval]
  exact ⟨hw, hfits, hscalar⟩

theorem requireColumns_returns (df : DataFrame) (missingKind : String) (schema : Schema) :
    Traverse.Returns (requireColumns df missingKind schema) (∀ f ∈ schema.fields, ∃ s, df.column f.name = .ok s) () := by
  refine Traverse.Returns.forM fun f _ => ?_
  cases df.column f.name with
  | error e => exact Or.inr ⟨by simp, _, rfl⟩
  | ok s => exact Or.inl ⟨⟨s, rfl⟩, rfl⟩

/-- the field's column, cast -/
def castSeries (E : Engine) (df : DataFrame) (f : Field) : Series :=
  ⟨f.name, targetType f.dataType, (List.range df.height).map fun i =>
    E.castCell (targetType f.dataType) (frameCell df f.name i)⟩

theorem castColumn_returns (E : Engine) (df : DataFrame) (missingKind : String) (userRowStart : ℕ) (f : Field) :
    Traverse.Returns (castColumn E df missingKind userRowStart f)
      (∃ s, df.column f.name = .ok s ∧ E.canCast s.dtype (targetType f.dataType)) (castSeries E df f) := by
  unfold castColumn
  cases hs : df.column f.name with
  | error e => exact Or.inr ⟨by simp, _, rfl⟩
  | ok s =>
    obtain ⟨hmem, hname⟩ := DataFrame.column_mem hs
    have hcells : (List.range df.height).map (fun i => E.castCell (targetType f.dataType) (frameCell df f.name i)) =
        s.cells.map (E.castCell (targetType f.dataType)) := by
      rw [← df.heights s hmem]
      refine List.ext_getElem (by simp) fun i _ h => ?_
      have hi : i < s.cells.length := by simpa using h
      simp [frameCell, hs, hi]
    by_cases hc : E.canCast s.dtype (targetType f.dataType)
    · exact Or.inl ⟨⟨s, rfl, hc⟩, by simp [Engine.cast, hc, castSeries, hcells, hname]⟩
    · exact Or.inr ⟨by simpa using hc, _, by simp [Engine.cast, hc]; rfl⟩

/-- a cell of a cast column -/
theorem readCell_returns {E : Engine} (hE : E.NonStrict) {df : DataFrame} (userRowStart : ℕ) (f : Field) {i : ℕ}
    (hi : i < df.height) :
    Traverse.Returns (readCell E userRowStart i f (castSeries E df f)) True
      (castValue E f.dataType (frameCell df f.name i)) :=
  Or.inl ⟨trivial, by simp [readCell, Series.get, castSeries, hi, (convertCell_cast hE f.dataType _).1]⟩

/-- **What the call computes**: it returns the cast cells, or fails because a column is missing or has no cast -/
theorem dataframeToDataset_returns {E : Engine} (hE : E.NonStrict) (df : DataFrame) (schema : Schema)
    (missingKind : String) (userRowStart : ℕ) :
    Traverse.Returns (dataframeToDataset E df schema missingKind userRowStart) (Castable E df schema)
      ⟨schema, frameRows E df schema⟩ := by
  have hcols := Traverse.Returns.mapM fun f (_ : f ∈ schema.fields) =>
    castColumn_returns E df missingKind userRowStart f
  have hrow : ∀ i ∈ List.range df.height, Traverse.Returns
      ((schema.fields.zip (schema.fields.map (castSeries E df))).mapM fun p => readCell E userRowStart i p.1 p.2) True
      (schema.fields.map fun f => castValue E f.dataType (frameCell df f.name i)) := by
    intro i hi
    rw [← List.map_prod_left_eq_zip, List.mapM_map]
    refine (Traverse.Returns.mapM fun f _ => readCell_returns hE userRowStart f (List.mem_range.1 hi)).congr ?_ rfl
    simp
  refine ((requireColumns_returns df missingKind schema).bind fun _ => hcols.bind fun _ =>
    (Traverse.Returns.mapM hrow).bind fun _ => Traverse.Returns.ok (DataSet.mk schema (frameRows E df schema))).congr ?_ rfl
  simp only [implies_true, and_true]
  exact ⟨fun h => h.2, fun h => ⟨fun f hf => (h f hf).imp fun _ hs => hs.1, h⟩⟩

/-- a cell that is read has the field's type -/
theorem convertCell_fits {dt : DataType} {av : AnyValue} {v : Value} (h : convertCell dt av = some v) : v.fits dt := by
  cases dt <;> cases av <;> simp only [convertCell, Option.some.injEq, reduceCtorEq] at h <;> subst h <;>
    first
      | exact Or.inl rfl
      | exact Or.inr rfl

theorem readCell_fits {E : Engine} {userRowStart rowIdx0 : ℕ} {field : Field} {s : Series} {v : Value}
    (h : readCell E userRowStart rowIdx0 field s = .ok v) : v.fits field.dataType := by
  unfold readCell at h
  dsimp only at h
  split at h
  · cases h
  · split at h
    · rename_i v' hv
      rw [← Except.ok.inj h]
      exact convertCell_fits hv
    · cases h

/-- what the conversion of a frame returns conforms to the schema, whatever the engine does -/
theorem dataframeToDataset_conforms {E : Engine} {df : DataFrame} {schema : Schema} {missingKind : String}
    {userRowStart : ℕ} {ds : DataSet} (h : dataframeToDataset E df schema missingKind userRowStart = .ok ds) :
    ds.Conforms schema := by
  obtain ⟨-, -, h⟩ := Traverse.bind_eq_ok h
  obtain ⟨cols, hcols, h⟩ := Traverse.bind_eq_ok h
  obtain ⟨rows, hrows, h⟩ := Traverse.bind_eq_ok h
  obtain rfl := Except.ok.inj h
  refine ⟨rfl, fun row hrow => ?_⟩
  obtain ⟨i, -, hi⟩ := Traverse.exists_of_mem (Traverse.mapM_eq_ok_iff.1 hrows).flip hrow
  have hlen := (Traverse.mapM_eq_ok_iff.1 hcols).length_eq
  have hfields : (schema.fields.zip cols).map Prod.fst = schema.fields := List.map_fst_zip hlen.le
  have hcells := Traverse.mapM_eq_ok_iff.1 hi
  rw [Row.Conforms, ← hfields, List.forall₂_map_right_iff]
  refine (List.Forall₂.imp ?_ hcells).flip
  intro p v hv
  exact readCell_fits hv

/-! ## From a dataset -/

def toAnyValue : Value → AnyValue
  | .null => .null
  | .int64 v => .int64 v
  | .float64 v => .float64 v
  | .bool v => .boolean v
  | .utf8 v => .string v

theorem convertCell_toAnyValue {dt : DataType} {v : Value} (h : v.fits dt) : convertCell dt (toAnyValue v) = some v := by
  rcases h with rfl | h
  · exact convertCell_null dt
  · cases dt <;> cases v <;> first
      | rfl
      | cases h

/-- a cell of the column of a field: a null, or a value of its type -/
def columnCell (field : Field) (rowIdx0 : ℕ) : Option Value → IngestionResult AnyValue
  | none => .ok .null
  | some v =>
    if v.fits field.dataType then .ok (toAnyValue v)
    else .error (.parseError (rowIdx0 + 1) field.name (.value v) s!"value does not match schema type {field.dataType.debug}")

/-- the column of a field; a series longer than the engine's limit is a panic -/
def datasetColumn (maxRows : ℕ) (ds : DataSet) (colIdx : ℕ) (field : Field) : IngestionResult Series := do
  let v ← ds.rows.zipIdx.mapM fun r => columnCell field r.2 r.1[colIdx]?
  if maxRows < ds.rowCount then .error .panic else .ok ⟨field.name, targetType field.dataType, v⟩

def datasetToDataframe (maxRows : ℕ) (ds : DataSet) : IngestionResult DataFrame := do
  let cols ← ds.schema.fields.zipIdx.mapM fun f => datasetColumn maxRows ds f.2 f.1
  (DataFrame.new ds.rowCount cols).mapError fun e => .error (polarsErrorToIngestion "failed to build polars DataFrame" e)

/-- the cell of a row, null past its end -/
def rowCell (colIdx : ℕ) (row : Row) : Value := row[colIdx]?.getD .null

/-- the column a field of the dataset becomes -/
def datasetSeries (ds : DataSet) (colIdx : ℕ) (field : Field) : Series :=
  ⟨field.name, targetType field.dataType, ds.rows.map fun row => toAnyValue (rowCell colIdx row)⟩

def datasetFrame (ds : DataSet) : DataFrame where
  height := ds.rowCount
  columns := ds.schema.fields.zipIdx.map fun f => datasetSeries ds f.2 f.1
  heights c hc := by
    obtain ⟨f, -, rfl⟩ := List.mem_map.1 hc
    exact List.length_map _

/-- the names are distinct, and the cells of every column are nulls or values of its type -/
structure Loadable (maxRows : ℕ) (ds : DataSet) : Prop where
  distinct : ds.schema.fieldNames.Nodup
  fewRows : ds.schema.fields ≠ [] → ds.rowCount ≤ maxRows
  typed : ∀ (i : ℕ) (f : Field), ds.schema.fields[i]? = some f → ∀ row ∈ ds.rows, (rowCell i row).fits f.dataType

theorem columnCell_returns (field : Field) (rowIdx0 : ℕ) (o : Option Value) :
    Traverse.Returns (columnCell field rowIdx0 o) ((o.getD .null).fits field.dataType) (toAnyValue (o.getD .null)) := by
  rcases o with - | v
  · exact Or.inl ⟨Or.inl rfl, rfl⟩
  · by_cases hv : v.fits field.dataType
    · exact Or.inl ⟨hv, if_pos hv⟩
    · exact Or.inr ⟨hv, _, if_neg hv⟩

theorem datasetColumn_returns (maxRows : ℕ) (ds : DataSet) (colIdx : ℕ) (field : Field) :
    Traverse.Returns (datasetColumn maxRows ds colIdx field)
      ((∀ row ∈ ds.rows, (rowCell colIdx row).fits field.dataType) ∧ ds.rowCount ≤ maxRows)
      (datasetSeries ds colIdx field) := by
  have hcells := Traverse.Returns.mapM fun (r : Row × ℕ) (_ : r ∈ ds.rows.zipIdx) =>
    columnCell_returns field r.2 r.1[colIdx]?
  have hmap : ds.rows.zipIdx.map (fun r => toAnyValue (r.1[colIdx]?.getD .null)) =
      ds.rows.map fun row => toAnyValue (rowCell colIdx row) := by
    conv_rhs => rw [← List.zipIdx_map_fst 0 ds.rows, List.map_map]
    rfl
  rw [hmap] at hcells
  have hlimit : Traverse.Returns (if maxRows < ds.rowCount then .error .panic else .ok (datasetSeries ds colIdx field) :
      IngestionResult Series) (ds.rowCount ≤ maxRows) (datasetSeries ds colIdx field) := by
    by_cases hlen : maxRows < ds.rowCount
    · exact Or.inr ⟨by omega, _, if_pos hlen⟩
    · exact Or.inl ⟨by omega, if_neg hlen⟩
  refine (hcells.bind fun _ => hlimit).congr (and_congr_left fun _ => ?_) rfl
  constructor
  · intro h row hrow
    rw [← List.zipIdx_map_fst 0 ds.rows] at hrow
    obtain ⟨r, hr, rfl⟩ := List.mem_map.1 hrow
    exact h r hr
  · intro h r hr
    exact h r.1 (List.fst_mem_of_mem_zipIdx hr)

/-- **From a dataset to a frame**: it loads exactly when it can, and the frame has the dataset's cells -/
theorem datasetToDataframe_returns (maxRows : ℕ) (ds : DataSet) :
    Traverse.Returns (datasetToDataframe maxRows ds) (Loadable maxRows ds) (datasetFrame ds) := by
  have hcols := Traverse.Returns.mapM fun (f : Field × ℕ) (_ : f ∈ ds.schema.fields.zipIdx) =>
    datasetColumn_returns maxRows ds f.2 f.1
  have hnames : ((datasetFrame ds).columns.map Series.name) = ds.schema.fieldNames := by
    rw [datasetFrame, List.map_map, Schema.fieldNames]
    conv_rhs => rw [← List.zipIdx_map_fst 0 ds.schema.fields, List.map_map]
    rfl
  have hnew : Traverse.Returns (DataFrame.new ds.rowCount (datasetFrame ds).columns) ds.schema.fieldNames.Nodup
      (datasetFrame ds) := by
    by_cases hnodup : ds.schema.fieldNames.Nodup
    · exact Or.inl ⟨hnodup, DataFrame.new_eq (datasetFrame ds).heights (hnames ▸ hnodup)⟩
    · exact Or.inr ⟨hnodup, DataFrame.new_error (hnames ▸ hnodup)⟩
  refine (hcols.bind fun _ => hnew.mapError _).congr ⟨fun h => ⟨h.2, fun hne => ?_, fun i f hf => ?_⟩, fun h => ⟨?_, h.1⟩⟩ rfl
  · obtain ⟨f, hf⟩ := List.exists_mem_of_ne_nil _ hne
    rw [← List.zipIdx_map_fst 0 ds.schema.fields] at hf
    obtain ⟨c, hc, -⟩ := List.mem_map.1 hf
    exact (h.1 c hc).2
  · exact (h.1 (f, i) (List.mem_zipIdx_iff_getElem?.2 hf)).1
  · intro c hc
    have hget := List.mem_zipIdx_iff_getElem?.1 hc
    exact ⟨h.typed _ _ hget, h.fewRows (List.ne_nil_of_mem (List.mem_of_getElem? hget))⟩

/-- the column of a name is the first field's of that name -/
theorem datasetFrame_column {ds : DataSet} {name : String} {colIdx : ℕ} {field : Field}
    (hidx : ds.schema.indexOf name = some colIdx) (hfield : ds.schema.fields[colIdx]? = some field) :
    (datasetFrame ds).column name = .ok (datasetSeries ds colIdx field) := by
  obtain ⟨hi, hp, hfirst⟩ := List.findIdx?_eq_some_iff_getElem.1 hidx
  have hfield' : ds.schema.fields[colIdx] = field := by
    rw [List.getElem?_eq_getElem hi] at hfield
    exact Option.some.inj hfield
  have hfind : (datasetFrame ds).columns.find? (fun c => c.name = name) = some (datasetSeries ds colIdx field) := by
    rw [List.find?_eq_some_iff_getElem]
    refine ⟨by rw [← hfield']; exact hp, colIdx, by simpa [datasetFrame] using hi, by simp [datasetFrame, hfield'], ?_⟩
    intro j hj
    simpa [datasetFrame, datasetSeries] using hfirst j hj
  rw [DataFrame.column, hfind]

end RustDataProcessing.Ingestion
