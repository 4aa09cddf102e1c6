/-
Reductions by the column engine (`src/pipeline/mod.rs`, `DataFrame::reduce`), against the ones in memory.

- `reductions_agree_iff`: on a numeric column of a dataset, Count, Min, Max and CountDistinctNonNull agree with
  `processing::reduce`; Sum and SumSquares agree exactly when the column has a value. Without one the engine adds
  nothing up and returns a zero, where the result in memory, and the documented one, is a null. The column's name is no
  pattern of the engine's (`*` or `^...$`).
- `null_column_sums_to_zero`: a column of one null.
-/
import Mathlib.Tactic
import RustDataProcessing.Pipeline.Engine
import RustDataProcessing.Processing.Reduce
import RustDataProcessing.Ingestion.PolarsBridge

namespace RustDataProcessing.Pipeline

open Polars (Engine Expr LazyFrame PType AnyValue Series PolarsError)
open Processing (ReduceOp VarianceKind Runtime wrappingBuild cells int64Cell float64Cell floatCell)
open Ingestion (toAnyValue rowCell datasetToDataframe targetType)
open Binary64 (IsSquare ExactSums)
open Reduction

/-! ## The source -/

def anyvalueToValue (E : Polars.Engine) : AnyValue → Value
  | .null => .null
  | .int8 v => .int64 v.toInt64
  | .int16 v => .int64 v.toInt64
  | .int32 v => .int64 v.toInt64
  | .int64 v => .int64 v
  | .uint8 v => .int64 (.ofNat v.toNat)
  | .uint16 v => .int64 (.ofNat v.toNat)
  | .uint32 v => .int64 (.ofNat v.toNat)
  | .uint64 v => .int64 (.ofNat v.toNat)
  | .float64 v => .float64 v
  | .boolean v => .bool v
  | .string v => .utf8 v
  | .stringOwned v => .utf8 v
  | other => .utf8 (E.display other)

def ddof : VarianceKind → ℕ
  | .population => 0
  | .sample => 1

def polarsReduceExpr (column : String) (op : ReduceOp) : Expr :=
  let c := Expr.col column
  match op with
  | .count => .len
  | .sum => c.sum
  | .min => c.min
  | .max => c.max
  | .mean => (c.strictCast .float64).mean
  | .variance kind => (c.strictCast .float64).var (ddof kind)
  | .stdDev kind => (c.strictCast .float64).std (ddof kind)
  | .sumSquares => ((c.strictCast .float64).pow (.ofInt 2)).sum
  | .l2Norm => ((c.strictCast .float64).pow (.ofInt 2)).sum.sqrt
  | .countDistinctNonNull => c.dropNulls.nUnique
  | .median => (c.strictCast .float64).median

def reduceScalarCol : String := "__rust_dp_reduce_scalar"

/-- a lazy plan -/
abbrev DataFrame := LazyFrame

namespace DataFrame

def fromDataset (E : Engine) (ds : DataSet) : IngestionResult DataFrame := do
  let df ← datasetToDataframe E.maxRows ds
  pure (.ofFrame df)

def reduce (E : Engine) (self : DataFrame) (column : String) (op : ReduceOp) : IngestionResult (Option Value) := do
  let dfSchema ← self.schema.mapError fun e =>
    .error (polarsErrorToIngestion "failed to collect polars schema" e)
  if column ∉ dfSchema.map Prod.fst then pure none
  else do
    let expr := polarsReduceExpr column op
    let df ← (self.frame >>= fun frame => Polars.select E frame [expr.alias reduceScalarCol]).mapError fun e =>
      .error (polarsErrorToIngestion "failed to collect polars reduce" e)
    let s ← (df.column reduceScalarCol).mapError fun _ =>
      .schemaMismatch s!"missing reduce output column '{reduceScalarCol}'"
    if s.cells.isEmpty then pure (some .null)
    else do
      let av ← (s.get 0).mapError fun e => .schemaMismatch s!"polars reduce output error: {e.toString}"
      pure (some (anyvalueToValue E av))

end DataFrame

/-! ## A numeric column in the engine -/

/-- a column of integers, or of floats without NaN and -0 -/
structure NumericColumn (ds : DataSet) (column : String) (idx : ℕ) (dt : DataType) : Prop where
  index : ds.schema.indexOf column = some idx
  field : ∃ f, ds.schema.fields[idx]? = some f ∧ f.dataType = dt
  numeric : dt = .int64 ∨ dt = .float64
  plain : ∀ x ∈ cells float64Cell idx ds.rows, Plain x

def HasValue (ds : DataSet) (idx : ℕ) : Prop := ∃ row ∈ ds.rows, rowCell idx row ≠ .null

/-- the cells of a column of one type, nulls included -/
def options {α : Type} (read : Value → Option α) (idx : ℕ) (rows : List Row) : List (Option α) :=
  rows.map fun row => read (rowCell idx row)

theorem options_reduceOption {α : Type} {read : Value → Option α} (hnull : read .null = none) (idx : ℕ)
    (rows : List Row) : (options read idx rows).reduceOption = cells read idx rows := by
  rw [options, List.reduceOption, List.filterMap_map, cells]
  refine List.filterMap_congr fun row _ => ?_
  unfold rowCell
  rcases h : row[idx]? with - | v <;> simp [h, hnull]

theorem floatCell_null (isInt : Bool) : floatCell isInt .null = none := rfl

/-- how a column of one numeric type is read, in memory and in the engine -/
structure NumericKind (dt : DataType) (α : Type) where
  read : Value → Option α
  cell : α → AnyValue
  value : α → Value
  key : α → ℤ
  plain : α → Prop
  read_null : read .null = none
  read_fits : ∀ v : Value, v.fits dt → toAnyValue v = (read v).elim .null cell
  read_none : ∀ v : Value, v.fits dt → read v = none → v = .null
  value_cell : ∀ (E : Polars.Engine) a, anyvalueToValue E (cell a) = value a
  cell_not_null : ∀ a, (cell a).isNull = false
  key_inj : ∀ x y, plain x → plain y → key x = key y → x = y

def int64Kind : NumericKind .int64 Int64 where
  read := int64Cell
  cell := .int64
  value := .int64
  key := Int64.toInt
  plain _ := True
  read_null := rfl
  read_fits v h := by
    rcases h with rfl | h
    · rfl
    · cases v <;> first | rfl | cases h
  read_none v h hn := by
    rcases h with rfl | h
    · rfl
    · cases v <;> simp [Value.hasType, int64Cell] at h hn
  value_cell _ _ := rfl
  cell_not_null _ := rfl
  key_inj _ _ _ _ h := Int64.toInt_inj.1 h

def float64Kind : NumericKind .float64 Binary64 where
  read := float64Cell
  cell := .float64
  value := .float64
  key := Binary64.orderKey
  plain := Plain
  read_null := rfl
  read_fits v h := by
    rcases h with rfl | h
    · rfl
    · cases v <;> first | rfl | cases h
  read_none v h hn := by
    rcases h with rfl | h
    · rfl
    · cases v <;> simp [Value.hasType, float64Cell] at h hn
  value_cell _ _ := rfl
  cell_not_null _ := rfl
  key_inj _ _ hx hy h := Binary64.eq_of_orderKey hx.2 hy.2 h

/-- the column of a loaded dataset -/
theorem column_of_dataset {E : Engine} {ds : DataSet} {df : Polars.DataFrame}
    (hdf : datasetToDataframe E.maxRows ds = .ok df) {column : String} {idx : ℕ} {dt : DataType}
    (hcol : NumericColumn ds column idx dt) :
    df.height = ds.rowCount ∧ ds.rowCount ≤ E.maxRows ∧ column ∈ df.columns.map Series.name ∧
      (∀ row ∈ ds.rows, (rowCell idx row).fits dt) ∧ (Expr.col column).eval E df =
        .ok ⟨column, targetType dt, ds.rows.map fun row => toAnyValue (rowCell idx row)⟩ := by
  obtain ⟨hload, rfl⟩ := (Ingestion.datasetToDataframe_returns E.maxRows ds).of_ok hdf
  obtain ⟨f, hf, rfl⟩ := hcol.field
  obtain ⟨hi, hname⟩ := Schema.indexOf_some hcol.index
  have hfind := Ingestion.datasetFrame_column hcol.index hf
  rw [List.getElem?_eq_getElem hi, Option.some.injEq] at hf
  rw [hf] at hname
  obtain ⟨hmem, -⟩ := Polars.DataFrame.column_mem hfind
  refine ⟨rfl, hload.fewRows (List.ne_nil_of_length_pos (by omega)), List.mem_map.2 ⟨_, hmem, hname⟩,
    hload.typed idx f (by rw [List.getElem?_eq_getElem hi, hf]), ?_⟩
  rw [Expr.eval, hfind, Ingestion.datasetSeries, hname]

/-- the result of a reduction is the one cell of its expression -/
theorem reduce_of_eval {E : Engine} {df : Polars.DataFrame} {column : String} {op : ReduceOp}
    (hcol : column ∈ df.columns.map Series.name) {name : String} {t : PType} {v : AnyValue}
    (h : (polarsReduceExpr column op).eval E df = .ok ⟨name, t, [v]⟩) :
    DataFrame.reduce E (.ofFrame df) column op = .ok (some (anyvalueToValue E v)) := by
  have halias : ((polarsReduceExpr column op).alias reduceScalarCol).eval E df = .ok ⟨reduceScalarCol, t, [v]⟩ :=
    Expr.eval_alias h _
  have hheight : ∀ c ∈ [Series.mk reduceScalarCol t [v]], c.cells.length = 1 := by simp
  have hselect : Polars.select E df [(polarsReduceExpr column op).alias reduceScalarCol] =
      .ok ⟨1, [⟨reduceScalarCol, t, [v]⟩], hheight⟩ := by
    rw [Polars.select, List.mapM_cons, halias]
    exact Polars.DataFrame.new_eq hheight (List.nodup_singleton reduceScalarCol)
  have hschema : column ∈ (df.columns.map fun c => (c.name, c.dtype)).map Prod.fst := by
    rwa [List.map_map]
  unfold DataFrame.reduce
  dsimp only [LazyFrame.ofFrame]
  simp only [bind, Except.bind, Except.mapError, hselect, hschema]
  simp [Polars.DataFrame.column, Series.get]
  rfl

/-! ## Operation by operation -/

theorem anyvalueToValue_idxSize {E : Engine} (hE : Documented E) {n : ℕ} (hn : n ≤ E.maxRows) :
    anyvalueToValue E (E.idxSize n) = .int64 (Int64.ofNat n) := by
  rcases hE.idxSize n hn with ⟨hlt, h⟩ | h <;> rw [h]
  · change Value.int64 (Int64.ofNat (UInt32.ofNat n).toNat) = _
    rw [UInt32.toNat_ofNat_of_lt' hlt]
  · change Value.int64 (Int64.ofNat (UInt64.ofNat n).toNat) = _
    rw [UInt64.toNat_ofNat']
    refine congrArg Value.int64 (Int64.toBitVec_inj.1 (BitVec.eq_of_toNat_eq ?_))
    simp

section Agreement

variable {E : Engine} (hE : Documented E) (R : Runtime) {ds : DataSet} {df : Polars.DataFrame}
  (hdf : datasetToDataframe E.maxRows ds = .ok df) {column : String} {idx : ℕ} {dt : DataType}
  (hcol : NumericColumn ds column idx dt)

include hE hdf hcol

theorem count_agrees : DataFrame.reduce E (.ofFrame df) column .count = Processing.reduce R ds column .count := by
  obtain ⟨hheight, hlen, hmem, -, -⟩ := column_of_dataset hdf hcol
  have heval : (polarsReduceExpr column .count).eval E df = .ok ⟨"len", .other "idx", [E.idxSize df.height]⟩ := rfl
  rw [reduce_of_eval hmem heval, hheight, anyvalueToValue_idxSize hE hlen]
  simp [Processing.reduce, hcol.index]

variable {α : Type} (K : NumericKind dt α)

omit hE in
/-- the cells of the column, as the engine has them -/
theorem column_options : (Expr.col column).eval E df =
    .ok ⟨column, targetType dt, optionCells K.cell (options K.read idx ds.rows)⟩ := by
  obtain ⟨-, -, -, hfits, hcolumn⟩ := column_of_dataset hdf hcol
  rw [hcolumn, optionCells, options, List.map_map]
  exact congrArg (fun cells => Except.ok (Series.mk column (targetType dt) cells))
    (List.map_congr_left fun row hrow => K.read_fits _ (hfits row hrow))

omit hE in
/-- Min and Max -/
theorem extreme_agrees [DecidableEq α] (hord : Ordered E (targetType dt) K.cell K.key K.plain)
    (hplain : ∀ x ∈ cells K.read idx ds.rows, K.plain x) {op : ReduceOp} (hop : op = .min ∨ op = .max)
    (hmem : ∃ o, Best (fun x => Processing.extremeKey op (K.key x)) (cells K.read idx ds.rows) o ∧
      Processing.reduce R ds column op = .ok (some (o.elim .null K.value))) :
    DataFrame.reduce E (.ofFrame df) column op = Processing.reduce R ds column op := by
  obtain ⟨-, -, hin, -, -⟩ := column_of_dataset hdf hcol
  obtain ⟨o, ho, hreduce⟩ := hmem
  have hcolumn := column_options hdf hcol K
  have hopt := options_reduceOption K.read_null idx ds.rows
  have hkey : ∀ x ∈ cells K.read idx ds.rows, ∀ y ∈ cells K.read idx ds.rows, K.key x = K.key y → x = y :=
    fun x hx y hy => K.key_inj x y (hplain x hx) (hplain y hy)
  have hvalue : ∀ o : Option α, anyvalueToValue E (o.elim .null K.cell) = o.elim .null K.value := by
    intro o
    rcases o with - | a
    · rfl
    · exact K.value_cell _ a
  rw [hreduce]
  rcases hop with rfl | rfl
  · obtain ⟨p, hp, hagg⟩ := hord.min (options K.read idx ds.rows) (by rwa [hopt])
    rw [hopt] at hp
    have heval : (polarsReduceExpr column .min).eval E df = .ok ⟨column, targetType dt, [p.elim .null K.cell]⟩ :=
      Expr.eval_aggregate hcolumn hagg
    rw [reduce_of_eval hin heval, hvalue, ho.unique hkey hp]
  · obtain ⟨p, hp, hagg⟩ := hord.max (options K.read idx ds.rows) (by rwa [hopt])
    rw [hopt] at hp
    have heval : (polarsReduceExpr column .max).eval E df = .ok ⟨column, targetType dt, [p.elim .null K.cell]⟩ :=
      Expr.eval_aggregate hcolumn hagg
    rw [reduce_of_eval hin heval, hvalue, ho.unique (fun x hx y hy h => hkey x hx y hy (neg_inj.1 h)) hp]

/-- CountDistinctNonNull -/
theorem distinct_agrees [DecidableEq α] (hord : Ordered E (targetType dt) K.cell K.key K.plain)
    (hplain : ∀ x ∈ cells K.read idx ds.rows, K.plain x)
    (hmem : Processing.reduce R ds column .countDistinctNonNull =
      .ok (some (.int64 (Int64.ofNat (cells K.read idx ds.rows).toFinset.card)))) :
    DataFrame.reduce E (.ofFrame df) column .countDistinctNonNull =
      Processing.reduce R ds column .countDistinctNonNull := by
  obtain ⟨-, hlen, hin, -, -⟩ := column_of_dataset hdf hcol
  have hdrop := filter_optionCells K.cell_not_null (options K.read idx ds.rows)
  rw [options_reduceOption K.read_null] at hdrop
  obtain ⟨t, hagg⟩ := hord.nUnique (cells K.read idx ds.rows) hplain
  rw [← hdrop] at hagg
  have hdropped := Expr.eval_unary (column_options hdf hcol K) .dropNulls
  have heval : (polarsReduceExpr column .countDistinctNonNull).eval E df =
      .ok ⟨column, t, [E.idxSize (cells K.read idx ds.rows).toFinset.card]⟩ := Expr.eval_aggregate hdropped hagg
  have hcard : (cells K.read idx ds.rows).toFinset.card ≤ E.maxRows := by
    have h₁ := List.toFinset_card_le (cells K.read idx ds.rows)
    have h₂ : (cells K.read idx ds.rows).length ≤ ds.rowCount := List.length_filterMap_le _ _
    omega
  rw [reduce_of_eval hin heval, hmem, anyvalueToValue_idxSize hE hcard]

/-! ### Sums -/

omit hE hdf in
/-- without a value, the result in memory is a null -/
theorem reduce_of_no_value (hfits : ∀ row ∈ ds.rows, (rowCell idx row).fits dt) (hno : ¬HasValue ds idx)
    {op : ReduceOp} (hop : op = .sum ∨ op = .sumSquares) : Processing.reduce R ds column op = .ok (some .null) := by
  obtain ⟨f, hf, rfl⟩ := hcol.field
  refine Processing.reduce_null R hcol.index hf (fun row hrow v hv => ?_) ?_
  · have hcell : rowCell idx row = v := by rw [rowCell, hv]; rfl
    have hnull : v = .null := by
      by_contra hne
      exact hno ⟨row, hrow, hcell ▸ hne⟩
    rw [hnull]
    rfl
  · rcases hop with rfl | rfl <;> simp

omit hE in
/-- an engine that returns a value agrees exactly where memory has one -/
theorem agrees_iff_hasValue {op : ReduceOp} (hop : op = .sum ∨ op = .sumSquares) {w : Value} (hw : w ≠ .null)
    (hengine : DataFrame.reduce E (.ofFrame df) column op = .ok (some w))
    (hmem : HasValue ds idx → Processing.reduce R ds column op = .ok (some w)) :
    DataFrame.reduce E (.ofFrame df) column op = Processing.reduce R ds column op ↔ HasValue ds idx := by
  obtain ⟨-, -, -, hfits, -⟩ := column_of_dataset hdf hcol
  constructor
  · intro h
    by_contra hno
    rw [hengine, reduce_of_no_value R hcol hfits hno hop] at h
    exact hw (Option.some.inj (Except.ok.inj h))
  · intro h
    rw [hengine, hmem h]

omit hE hdf hcol in
theorem hasValue_iff {read : Value → Option α} (hnull : read .null = none)
    (hnone : ∀ v : Value, v.fits dt → read v = none → v = .null) (hfits : ∀ row ∈ ds.rows, (rowCell idx row).fits dt) :
    HasValue ds idx ↔ cells read idx ds.rows ≠ [] := by
  rw [← options_reduceOption hnull, ne_eq, List.reduceOption_eq_nil_iff]
  constructor
  · rintro ⟨row, hrow, hne⟩ ⟨n, hn⟩
    have hmem : read (rowCell idx row) ∈ options read idx ds.rows := List.mem_map.2 ⟨row, hrow, rfl⟩
    rw [hn] at hmem
    exact hne (hnone _ (hfits row hrow) (List.eq_of_mem_replicate hmem))
  · intro h
    by_contra hno
    refine h ⟨ds.rows.length, List.eq_replicate_iff.2 ⟨by simp [options], fun o ho => ?_⟩⟩
    obtain ⟨row, hrow, rfl⟩ := List.mem_map.1 ho
    have hcell : rowCell idx row = .null := by
      by_contra hne
      exact hno ⟨row, hrow, hne⟩
    rw [hcell, hnull]

/-- the column cast to floats -/
theorem column_cast : ((Expr.col column).strictCast .float64).eval E df =
    .ok ⟨column, .float64, optionCells .float64 (options (floatCell (dt = .int64)) idx ds.rows)⟩ := by
  obtain ⟨-, -, -, hfits, hcolumn⟩ := column_of_dataset hdf hcol
  have hcast : ∀ v : Value, v.fits dt → E.castCell .float64 (toAnyValue v) =
      (floatCell (dt = .int64) v).elim .null .float64 := by
    intro v hv
    obtain ⟨o, ho, hscalar⟩ := hE.nonStrict.to_float64 (toAnyValue v)
    rw [ho]
    rcases hcol.numeric with rfl | rfl <;> rcases hv with rfl | hv
    · rw [hscalar rfl]
      rfl
    · cases v <;> first | (rw [hscalar rfl]; rfl) | cases hv
    · rw [hscalar rfl]
      rfl
    · cases v <;> first | (rw [hscalar rfl]; rfl) | cases hv
  have hcan : E.canCast (targetType dt) .float64 = true := by
    rcases hcol.numeric with rfl | rfl
    · exact hE.castInt64
    · exact hE.castFloat64
  have hcells : (ds.rows.map fun row => toAnyValue (rowCell idx row)).map (E.castCell .float64) =
      optionCells .float64 (options (floatCell (dt = .int64)) idx ds.rows) := by
    rw [List.map_map, optionCells, options, List.map_map]
    exact List.map_congr_left fun row hrow => hcast _ (hfits row hrow)
  have hkept : ((ds.rows.map fun row => toAnyValue (rowCell idx row)).zip
      (optionCells .float64 (options (floatCell (dt = .int64)) idx ds.rows))).any
        (fun c => !c.1.isNull && c.2.isNull) = false := by
    rw [← hcells, ← List.map_prod_left_eq_zip, List.any_map, List.any_map, List.any_eq_false]
    intro row hrow
    have hv := hfits row hrow
    simp only [Function.comp_apply, hcast _ hv]
    rcases hcol.numeric with rfl | rfl <;> rcases hv with hv | hv
    · simp [hv, toAnyValue, AnyValue.isNull]
    · cases h : rowCell idx row <;> simp [h, Value.hasType] at hv
      simp [floatCell, AnyValue.isNull]
    · simp [hv, toAnyValue, AnyValue.isNull]
    · cases h : rowCell idx row <;> simp [h, Value.hasType] at hv
      simp [floatCell, AnyValue.isNull]
  refine (Expr.eval_unary hcolumn (.strictCast .float64)).trans ?_
  change Polars.strictCast E _ .float64 = _
  unfold Polars.strictCast Engine.cast
  rw [if_pos hcan]
  simp only [bind, Except.bind]
  rw [hcells, hkept, if_neg Bool.false_ne_true]

end Agreement

section Sums

variable {E : Engine} (hE : Documented E) (R : Runtime) {ds : DataSet} {df : Polars.DataFrame}
  (hdf : datasetToDataframe E.maxRows ds = .ok df) {column : String} {idx : ℕ}

include hE hdf

/-- Sum of integers -/
theorem sumInt64_agrees_iff (hcol : NumericColumn ds column idx .int64)
    (hfit : Processing.PartialSumsFit (cells int64Cell idx ds.rows)) :
    DataFrame.reduce E (.ofFrame df) column .sum = Processing.reduce R ds column .sum ↔ HasValue ds idx := by
  obtain ⟨-, -, hin, hfits, -⟩ := column_of_dataset hdf hcol
  have hopt : (options int64Cell idx ds.rows).reduceOption = cells int64Cell idx ds.rows :=
    options_reduceOption int64Kind.read_null idx ds.rows
  have hk := Processing.int64OfInt_of_fits (hfit _ (List.prefix_refl _))
  have hagg := hE.sumInt64 (options int64Cell idx ds.rows) _ _ (by rw [hopt]) hk
  have heval : (polarsReduceExpr column .sum).eval E df = .ok ⟨column, .int64, [_]⟩ :=
    Expr.eval_aggregate (column_options hdf hcol int64Kind) hagg
  refine agrees_iff_hasValue R hdf hcol (.inl rfl) (by simp [anyvalueToValue]) (reduce_of_eval hin heval) fun hvalue => ?_
  have hne : cells int64Cell idx ds.rows ≠ [] := (hasValue_iff int64Kind.read_null int64Kind.read_none hfits).1 hvalue
  obtain ⟨f, hf, hft⟩ := hcol.field
  rw [Processing.reduce_typed R hcol.index hf (.inl rfl), hft]
  exact Processing.reduceNumericTyped_sum R ds idx hfit hne

/-- Sum of floats -/
theorem sumFloat64_agrees_iff (hcol : NumericColumn ds column idx .float64)
    (hexact : ExactSums (cells float64Cell idx ds.rows)) :
    DataFrame.reduce E (.ofFrame df) column .sum = Processing.reduce R ds column .sum ↔ HasValue ds idx := by
  obtain ⟨-, -, hin, hfits, -⟩ := column_of_dataset hdf hcol
  obtain ⟨s, hs, hagg⟩ := hE.sumFloat64 (options float64Cell idx ds.rows)
  have hopt : (options float64Cell idx ds.rows).reduceOption = cells float64Cell idx ds.rows :=
    options_reduceOption float64Kind.read_null idx ds.rows
  rw [hopt] at hs
  have heval : (polarsReduceExpr column .sum).eval E df = .ok ⟨column, .float64, [.float64 s]⟩ :=
    Expr.eval_aggregate (column_options hdf hcol float64Kind) hagg
  refine agrees_iff_hasValue R hdf hcol (.inl rfl) (by simp [anyvalueToValue]) (reduce_of_eval hin heval) fun hvalue => ?_
  have hne : cells float64Cell idx ds.rows ≠ [] := (hasValue_iff float64Kind.read_null float64Kind.read_none hfits).1 hvalue
  obtain ⟨f, hf, hft⟩ := hcol.field
  rw [Processing.reduce_typed R hcol.index hf (.inl rfl), hft]
  obtain ⟨t, ht, hmem⟩ := Processing.reduceNumericTyped_addedUp R ds idx hne
  have hneg : Binary64.zero true ∉ (cells float64Cell idx ds.rows : Multiset Binary64) :=
    fun hmem => (hcol.plain _ hmem).2 rfl
  rw [hmem, hexact.sum_unique hneg (by simpa using hne) hs ht]
  rfl

/-- SumSquares -/
theorem sumSquares_agrees_iff {dt : DataType} (hcol : NumericColumn ds column idx dt)
    (hsquare : ∀ x ∈ cells (floatCell (dt = .int64)) idx ds.rows, ∃ z, IsSquare x z)
    (hexact : ExactSums ((cells (floatCell (dt = .int64)) idx ds.rows).map fun x => x.mul x)) :
    DataFrame.reduce E (.ofFrame df) column .sumSquares = Processing.reduce R ds column .sumSquares ↔
      HasValue ds idx := by
  obtain ⟨-, -, hin, hfits, -⟩ := column_of_dataset hdf hcol
  have hopt := options_reduceOption (floatCell_null (dt = .int64)) idx ds.rows
  have hpow : (optionCells .float64 (options (floatCell (dt = .int64)) idx ds.rows)).map (E.pow (.ofInt 2)) =
      optionCells .float64 ((options (floatCell (dt = .int64)) idx ds.rows).map (Option.map fun x => x.mul x)) := by
    rw [optionCells, optionCells, List.map_map, List.map_map]
    refine List.map_congr_left fun o ho => ?_
    rcases o with - | x
    · exact hE.squareNull
    · obtain ⟨z, hz⟩ := hsquare x (hopt ▸ List.reduceOption_mem_iff.2 ho)
      change E.pow (.ofInt 2) (.float64 x) = .float64 (x.mul x)
      rw [hE.square x z hz, Binary64.mul_self_exact hz]
  obtain ⟨s, hs, hagg⟩ := hE.sumFloat64 ((options (floatCell (dt = .int64)) idx ds.rows).map (Option.map fun x => x.mul x))
  rw [List.reduceOption_map, hopt] at hs
  rw [← hpow] at hagg
  have heval : (polarsReduceExpr column .sumSquares).eval E df = .ok ⟨column, .float64, [.float64 s]⟩ :=
    Expr.eval_aggregate (Expr.eval_unary (column_cast hE hdf hcol) (.pow (.ofInt 2))) hagg
  refine agrees_iff_hasValue R hdf hcol (.inr rfl) (by simp [anyvalueToValue]) (reduce_of_eval hin heval) fun hvalue => ?_
  have hnone : ∀ v : Value, v.fits dt → floatCell (dt = .int64) v = none → v = .null := by
    intro v hv hn
    rcases hv with hv | hv
    · exact hv
    · rw [Processing.floatCell_eq_none hcol.numeric, hv] at hn
      cases hn
  have hne := (hasValue_iff (floatCell_null (dt = .int64)) hnone hfits).1 hvalue
  obtain ⟨f, hf, hft⟩ := hcol.field
  simp only [Processing.reduce, hcol.index, hf, hft]
  obtain ⟨t, ht, hmem⟩ := Processing.sumSquares_addedUp ds idx hcol.numeric hne
  have hneg : Binary64.zero true ∉
      ((cells (floatCell (dt = .int64)) idx ds.rows).map (fun x => x.mul x) : Multiset Binary64) := by
    intro h
    obtain ⟨x, hx, hxz⟩ := List.mem_map.1 h
    obtain ⟨z, hz⟩ := hsquare x hx
    rw [Binary64.mul_self_exact hz] at hxz
    exact hz.ne_zero hxz
  rw [hmem, hexact.sum_unique hneg (by simpa using hne) hs ht]
  rfl

end Sums

/-! ## All operations -/

def compared : List ReduceOp := [.count, .sum, .min, .max, .sumSquares, .countDistinctNonNull]

/-- the arithmetic of the operation does not overflow or round -/
def Exact (ds : DataSet) (idx : ℕ) (dt : DataType) : ReduceOp → Prop
  | .sum => match dt with
    | .int64 => Processing.PartialSumsFit (cells int64Cell idx ds.rows)
    | _ => ExactSums (cells float64Cell idx ds.rows)
  | .sumSquares => (∀ x ∈ cells (floatCell (dt = .int64)) idx ds.rows, ∃ z, IsSquare x z) ∧
      ExactSums ((cells (floatCell (dt = .int64)) idx ds.rows).map fun x => x.mul x)
  | _ => True

section Kinds

variable {E : Engine} (hE : Documented E) (R : Runtime) {ds : DataSet} {df : Polars.DataFrame}
  (hdf : datasetToDataframe E.maxRows ds = .ok df) {column : String} {idx : ℕ}

include hE hdf

theorem int64_agrees (hcol : NumericColumn ds column idx .int64) {op : ReduceOp}
    (hop : op = .min ∨ op = .max ∨ op = .countDistinctNonNull) :
    DataFrame.reduce E (.ofFrame df) column op = Processing.reduce R ds column op := by
  obtain ⟨f, hf, hft⟩ := hcol.field
  have hplain : ∀ x ∈ cells int64Kind.read idx ds.rows, int64Kind.plain x := fun _ _ => trivial
  rcases or_assoc.2 hop with hop | rfl
  · refine extreme_agrees R hdf hcol int64Kind hE.int64 hplain hop ?_
    obtain ⟨o, ho, hmem⟩ := Processing.reduceNumericTyped_best_int64 R ds idx hop
    refine ⟨o, ho, ?_⟩
    rw [Processing.reduce_typed R hcol.index hf (.inr hop), hft]
    exact hmem
  · refine distinct_agrees hE R hdf hcol int64Kind hE.int64 hplain ?_
    simp only [Processing.reduce, hcol.index, hf, hft, Processing.reduceCountDistinctNonNull, Processing.distinct_eq]
    rfl

theorem float64_agrees (hcol : NumericColumn ds column idx .float64) {op : ReduceOp}
    (hop : op = .min ∨ op = .max ∨ op = .countDistinctNonNull) :
    DataFrame.reduce E (.ofFrame df) column op = Processing.reduce R ds column op := by
  obtain ⟨f, hf, hft⟩ := hcol.field
  rcases or_assoc.2 hop with hop | rfl
  · refine extreme_agrees R hdf hcol float64Kind hE.float64 hcol.plain hop ?_
    obtain ⟨o, ho, hmem⟩ :=
      Processing.reduceNumericTyped_best_float64 R ds idx hop fun x hx => (hcol.plain x hx).1
    refine ⟨o, ho, ?_⟩
    rw [Processing.reduce_typed R hcol.index hf (.inr hop), hft]
    exact hmem
  · refine distinct_agrees hE R hdf hcol float64Kind hE.float64 hcol.plain ?_
    simp only [Processing.reduce, hcol.index, hf, hft, Processing.reduceCountDistinctNonNull]
    rw [Processing.distinct_bits]
    rfl

end Kinds

/-- **The engine and memory agree** on a numeric column exactly when it has a value or the operation is not a sum -/
theorem reductions_agree_iff {E : Engine} (hE : Documented E) (R : Runtime) {ds : DataSet} {pf : DataFrame}
    (hpf : DataFrame.fromDataset E ds = .ok pf) {column : String} {idx : ℕ} {dt : DataType}
    (hcol : NumericColumn ds column idx dt) {op : ReduceOp} (hop : op ∈ compared) (hexact : Exact ds idx dt op) :
    pf.reduce E column op = Processing.reduce R ds column op ↔ (op = .sum ∨ op = .sumSquares → HasValue ds idx) := by
  obtain ⟨df, hdf, hpf⟩ := Traverse.bind_eq_ok hpf
  obtain rfl := Except.ok.inj hpf
  have hsame : op = .min ∨ op = .max ∨ op = .countDistinctNonNull →
      DataFrame.reduce E (.ofFrame df) column op = Processing.reduce R ds column op := by
    intro h
    rcases hcol.numeric with rfl | rfl
    · exact int64_agrees hE R hdf hcol h
    · exact float64_agrees hE R hdf hcol h
  have hother : ∀ {p : Prop}, p → ¬(op = .sum ∨ op = .sumSquares) →
      (p ↔ (op = .sum ∨ op = .sumSquares → HasValue ds idx)) := fun hp hn => ⟨fun _ h => absurd h hn, fun _ => hp⟩
  simp only [compared, List.mem_cons, List.not_mem_nil, or_false] at hop
  rcases hop with rfl | rfl | rfl | rfl | rfl | rfl
  · exact hother (count_agrees hE R hdf hcol) (by simp)
  · rw [forall_prop_of_true (.inl rfl)]
    rcases hcol.numeric with rfl | rfl
    · exact sumInt64_agrees_iff hE R hdf hcol hexact
    · exact sumFloat64_agrees_iff hE R hdf hcol hexact
  · exact hother (hsame (.inl rfl)) (by simp)
  · exact hother (hsame (.inr (.inl rfl))) (by simp)
  · rw [forall_prop_of_true (.inr rfl)]
    exact sumSquares_agrees_iff hE R hdf hcol hexact.1 hexact.2
  · exact hother (hsame (.inr (.inr rfl))) (by simp)

/-- one column of integers -/
def intColumn (values : List Value) : DataSet := ⟨⟨[⟨"x", .int64⟩]⟩, values.map fun v => [v]⟩

theorem two_values_agree :
    (DataFrame.fromDataset plainEngine (intColumn [.int64 5, .null, .int64 7])).toOption.map
        (fun pf => (pf.reduce plainEngine "x" .sum).toOption) =
      some (Processing.reduce wrappingBuild (intColumn [.int64 5, .null, .int64 7]) "x" .sum).toOption := by
  have hpf : DataFrame.fromDataset plainEngine (intColumn [.int64 5, .null, .int64 7]) = .ok _ := rfl
  have hcol : NumericColumn (intColumn [.int64 5, .null, .int64 7]) "x" 0 .int64 :=
    ⟨rfl, ⟨_, rfl, rfl⟩, .inl rfl, by decide⟩
  have hfit : ∀ p ∈ List.inits [(5 : Int64), 7],
      RustStd.i64Min ≤ (p.map Int64.toInt).sum ∧ (p.map Int64.toInt).sum ≤ RustStd.i64Max := by decide
  have hagree := (@reductions_agree_iff _ plainEngine_documented wrappingBuild _ _ hpf _ _ _ hcol .sum (by decide)
    fun p hp => hfit p ((List.mem_inits p _).2 hp)).2 fun _ => ⟨[.int64 5], by decide, by decide⟩
  rw [hpf, ← hagree]
  rfl

/-- **A column of one null**: the engine's sum is 0, and the sum in memory is a null -/
theorem null_column_sums_to_zero :
    NumericColumn (intColumn [.null]) "x" 0 .int64 ∧ Exact (intColumn [.null]) 0 .int64 .sum ∧
      (DataFrame.fromDataset plainEngine (intColumn [.null])).toOption.map
        (fun pf => (pf.reduce plainEngine "x" .sum).toOption) = some (some (some (.int64 0))) ∧
      (Processing.reduce wrappingBuild (intColumn [.null]) "x" .sum).toOption = some (some .null) := by
  refine ⟨⟨rfl, ⟨_, rfl, rfl⟩, .inl rfl, by decide⟩, fun p hp => ?_, by decide, by decide⟩
  rw [List.prefix_nil.1 hp]
  decide

end RustDataProcessing.Pipeline
