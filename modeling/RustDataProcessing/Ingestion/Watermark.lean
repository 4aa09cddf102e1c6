/-
The high-water filter (`src/ingestion/watermark.rs`): keep the rows whose watermark cell is strictly above a floor.

- `validateWatermarkConfig`, `applyWatermarkFilter`, `applyWatermarkAfterIngest`, `maxValueInColumn` as the source has
  them: null cells are dropped, a cell of another type is an error, and an index past the end of a row panics.
- `WatermarkKey`: the ordered set a column's cells are compared in (integers for `i64`, the total order of the
  standard for `f64`, false before true, text by code points).

Results, for a dataset that conforms to the schema:
- `applyWatermarkFilter_conforms`: the filter returns exactly the rows whose key is above the floor's, in order;
- `maxValueInColumn_ok`: the maximum is the greatest key of the dataset that counts (infinities and NaNs do not), and
  there is none exactly when no row has one.
-/
import Mathlib.Tactic
import Mathlib.Data.String.Basic
import RustDataProcessing.Lib.HighWater
import RustDataProcessing.Ingestion.Options

namespace RustDataProcessing.Ingestion

open HighWater (isAbove)

/-! ## The source -/

def ensureValueMatchesType (v : Value) (dt : DataType) (ctx : String) : IngestionResult Unit :=
  if v.hasType dt then .ok ()
  else .error (.schemaMismatch s!"{ctx} does not match the watermark column type ({dt.debug})")

def validateWatermarkConfig (schema : Schema) (options : IngestionOptions) : IngestionResult Unit :=
  match options.watermarkColumn, options.watermarkExclusiveAbove with
  | none, none => .ok ()
  | some _, none | none, some _ =>
    .error (.schemaMismatch
      "watermark_column and watermark_exclusive_above must both be set or both omitted")
  | some name, some floorVal =>
    if floorVal = .null then .error (.schemaMismatch "watermark_exclusive_above must not be Null")
    else match schema.indexOf name with
      | none => .error (.schemaMismatch s!"watermark column '{name}' not found in schema")
      | some idx => do
        let field ← index schema.fields idx
        ensureValueMatchesType floorVal field.dataType "watermark_exclusive_above"

def expectInt64 (v : Value) (row : ℕ) (column : String) : IngestionResult Int64 :=
  match v with
  | .int64 i => .ok i
  | _ => .error (.parseError row column (.value v) "expected int64 for watermark column")

def expectFloat64 (v : Value) (row : ℕ) (column : String) : IngestionResult Binary64 :=
  match v with
  | .float64 f => .ok f
  | _ => .error (.parseError row column (.value v) "expected float64 for watermark column")

def expectBool (v : Value) (row : ℕ) (column : String) : IngestionResult Bool :=
  match v with
  | .bool b => .ok b
  | _ => .error (.parseError row column (.value v) "expected bool for watermark column")

def expectUtf8 (v : Value) (row : ℕ) (column : String) : IngestionResult String :=
  match v with
  | .utf8 s => .ok s
  | _ => .error (.parseError row column (.value v) "expected utf8 for watermark column")

/-- the error of `compare_cell_to_floor` on a floor of another type -/
def floorMismatch (expected : String) : Fault :=
  .schemaMismatch s!"watermark value type mismatch (expected {expected})"

def compareCellToFloor (cell floor : Value) (dt : DataType) (row : ℕ) (column : String) : IngestionResult Ordering :=
  match dt with
  | .int64 => do
    let a ← expectInt64 cell row column
    match floor with
    | .int64 b => pure (compare a.toInt b.toInt)
    | _ => .error (floorMismatch "int64")
  | .float64 => do
    let a ← expectFloat64 cell row column
    match floor with
    | .float64 b => pure (a.totalCmp b)
    | _ => .error (floorMismatch "float64")
  | .bool => do
    let a ← expectBool cell row column
    match floor with
    | .bool b => pure (compare a b)
    | _ => .error (floorMismatch "bool")
  | .utf8 => do
    let a ← expectUtf8 cell row column
    match floor with
    | .utf8 b => pure (compare a b)
    | _ => .error (floorMismatch "utf8")

def rowIsAboveWatermark (cell floor : Value) (dt : DataType) (row : ℕ) (column : String) : IngestionResult Bool :=
  if cell = .null then .ok false
  else do
    let ord ← compareCellToFloor cell floor dt row column
    pure (ord = .gt)

/-- the row loop of `apply_watermark_filter`, from the user's row number -/
def keepAbove (idx : ℕ) (floor : Value) (dt : DataType) (column : String) : ℕ → List Row → IngestionResult (List Row)
  | _, [] => .ok []
  | userRow, row :: rows => do
    let cell ← index row idx
    let above ← rowIsAboveWatermark cell floor dt userRow column
    let kept ← keepAbove idx floor dt column (userRow + 1) rows
    pure (if above then row :: kept else kept)

def applyWatermarkFilter (ds : DataSet) (schema : Schema) (column : String) (floor : Value) : IngestionResult DataSet :=
  match schema.indexOf column with
  | none => .error (.schemaMismatch s!"watermark column '{column}' not found in schema")
  | some idx => do
    let field ← index schema.fields idx
    let kept ← keepAbove idx floor field.dataType column 1 ds.rows
    pure ⟨ds.schema, kept⟩

def applyWatermarkAfterIngest (ds : DataSet) (schema : Schema) (options : IngestionOptions) : IngestionResult DataSet :=
  match options.watermarkColumn, options.watermarkExclusiveAbove with
  | none, none => .ok ds
  | some col, some floor => applyWatermarkFilter ds schema col floor
  | _, _ => .error (.schemaMismatch "invalid watermark options state")

def maxOfTyped (dt : DataType) (a b : Value) : Value :=
  match dt with
  | .int64 => match a, b with
    | .int64 ai, .int64 bi => .int64 (if ai.toInt ≤ bi.toInt then bi else ai)
    | .int64 _, _ => a
    | _, _ => b
  | .float64 => match a, b with
    | .float64 af, .float64 bf =>
      if !af.isFinite then b
      else if !bf.isFinite then a
      else .float64 (if af.totalCmp bf = .lt then bf else af)
    | .float64 _, _ => a
    | _, _ => b
  | .bool => match a, b with
    | .bool ab, .bool bb => .bool (ab || bb)
    | .bool _, _ => a
    | _, _ => b
  | .utf8 => match a, b with
    | .utf8 sa, .utf8 sb => if sa < sb then b else a
    | _, _ => b

/-- the cells `max_value_in_column` passes over -/
def skippedInMax (dt : DataType) (cell : Value) : Bool :=
  match cell with
  | .null => true
  | .float64 f => dt = .float64 && !f.isFinite
  | _ => false

/-- the row loop of `max_value_in_column`, from the best value so far -/
def maxLoop (idx : ℕ) (dt : DataType) : Option Value → List Row → IngestionResult (Option Value)
  | best, [] => .ok best
  | best, row :: rows => do
    let cell ← index row idx
    if skippedInMax dt cell then maxLoop idx dt best rows
    else maxLoop idx dt (some (match best with
      | none => cell
      | some cur => maxOfTyped dt cur cell)) rows

def maxValueInColumn (ds : DataSet) (schema : Schema) (column : String) : IngestionResult (Option Value) :=
  match schema.indexOf column with
  | none => .ok none
  | some idx => do
    let field ← index schema.fields idx
    maxLoop idx field.dataType none ds.rows

/-! ## Keys -/

/-- the ordered set the cells of a column are compared in -/
def WatermarkKey : DataType → Type
  | .int64 => ℤ
  | .float64 => ℤ
  | .bool => Bool
  | .utf8 => String

instance (dt : DataType) : LinearOrder (WatermarkKey dt) := match dt with
  | .int64 => inferInstanceAs (LinearOrder ℤ)
  | .float64 => inferInstanceAs (LinearOrder ℤ)
  | .bool => inferInstanceAs (LinearOrder Bool)
  | .utf8 => inferInstanceAs (LinearOrder String)

/-- the key of a cell, none for a null or a value of another type -/
def cellKey (dt : DataType) (v : Value) : Option (WatermarkKey dt) :=
  match dt, v with
  | .int64, .int64 v => some v.toInt
  | .float64, .float64 v => some v.totalKey
  | .bool, .bool v => some v
  | .utf8, .utf8 v => some v
  | _, _ => none

theorem cellKey_isSome (dt : DataType) (v : Value) : (cellKey dt v).isSome = v.hasType dt := by
  cases dt <;> cases v <;> rfl

theorem cellKey_null (dt : DataType) : cellKey dt .null = none := by cases dt <;> rfl

theorem cellKey_injective {dt : DataType} {v w : Value} (h : cellKey dt v = cellKey dt w) (hv : v.hasType dt = true) :
    v = w := by
  cases dt <;> cases v <;> cases hv <;> cases w <;> first | cases h; done | skip
  · rw [Int64.toInt_inj.1 (Option.some.inj h)]
  · rw [Binary64.totalKey_injective (Option.some.inj h)]
  · rw [Option.some.inj h]
  · rw [Option.some.inj h]

theorem compareCellToFloor_ok {cell floor : Value} {dt : DataType} {a b : WatermarkKey dt} (ha : cellKey dt cell = some a)
    (hb : cellKey dt floor = some b) (row : ℕ) (column : String) :
    compareCellToFloor cell floor dt row column = .ok (compare a b) := by
  cases dt <;> cases cell <;> cases ha <;> cases floor <;> cases hb <;> rfl

/-! ## The filter -/

/-- the key of a row's watermark cell -/
def rowKey (idx : ℕ) (dt : DataType) (row : Row) : Option (WatermarkKey dt) := row[idx]?.bind (cellKey dt)

/-- every row has the column, and its cell there is null or of the type -/
def ColumnFits (idx : ℕ) (dt : DataType) (rows : List Row) : Prop :=
  ∀ row ∈ rows, ∃ cell, row[idx]? = some cell ∧ cell.fits dt

theorem ColumnFits.of_conforms {schema : Schema} {rows : List Row} (h : ∀ row ∈ rows, Row.Conforms row schema) {idx : ℕ}
    (hi : idx < schema.fields.length) : ColumnFits idx schema.fields[idx].dataType rows :=
  fun row hr => (h row hr).cell hi

theorem index_ok {α : Type} {v : List α} {i : ℕ} {a : α} (h : v[i]? = some a) : index v i = .ok a := by
  simp [index, h]

theorem index_fields {schema : Schema} {i : ℕ} (hi : i < schema.fields.length) :
    index schema.fields i = .ok schema.fields[i] := index_ok (List.getElem?_eq_getElem hi)

theorem rowIsAboveWatermark_ok {cell floor : Value} {dt : DataType} {b : WatermarkKey dt} (hc : cell.fits dt)
    (hb : cellKey dt floor = some b) (row : ℕ) (column : String) :
    rowIsAboveWatermark cell floor dt row column = .ok (isAbove b (cellKey dt cell)) := by
  unfold rowIsAboveWatermark
  split_ifs with hn
  · rw [hn, cellKey_null]; rfl
  · have ht : cell.hasType dt = true := hc.resolve_left hn
    obtain ⟨a, ha⟩ := Option.isSome_iff_exists.1 ((cellKey_isSome dt cell).trans ht)
    rw [compareCellToFloor_ok ha hb, ha]
    simp only [isAbove, ← compare_gt_iff_gt]
    rfl

theorem keepAbove_ok {idx : ℕ} {dt : DataType} {floor : Value} {b : WatermarkKey dt} (hb : cellKey dt floor = some b)
    (column : String) (userRow : ℕ) {rows : List Row} (h : ColumnFits idx dt rows) :
    keepAbove idx floor dt column userRow rows = .ok (rows.filter fun row => isAbove b (rowKey idx dt row)) := by
  induction rows generalizing userRow with
  | nil => rfl
  | cons row rows ih =>
    obtain ⟨cell, hcell, hfits⟩ := h row List.mem_cons_self
    have hk : rowKey idx dt row = cellKey dt cell := by simp [rowKey, hcell]
    simp only [keepAbove, index_ok hcell, rowIsAboveWatermark_ok hfits hb,
      ih (userRow + 1) fun r hr => h r (List.mem_cons_of_mem _ hr), bind, Except.bind, pure, Except.pure,
      List.filter_cons, hk]

/-- **The filter on a conforming dataset** keeps exactly the rows above the floor, in order -/
theorem applyWatermarkFilter_conforms {ds : DataSet} {schema : Schema} (h : ds.Conforms schema) {column : String}
    {idx : ℕ} (hcol : schema.indexOf column = some idx) (hi : idx < schema.fields.length) {floor : Value}
    {b : WatermarkKey schema.fields[idx].dataType} (hb : cellKey schema.fields[idx].dataType floor = some b) :
    applyWatermarkFilter ds schema column floor =
      .ok ⟨schema, ds.rows.filter fun row => isAbove b (rowKey idx schema.fields[idx].dataType row)⟩ := by
  simp only [applyWatermarkFilter, hcol, index_fields hi, bind, Except.bind, pure, Except.pure,
    keepAbove_ok hb column 1 (ColumnFits.of_conforms h.rows hi), h.schema_eq]

/-! ## The maximum -/

/-- the key of a cell that counts: not that of an infinity or a NaN -/
def countedKey (dt : DataType) (v : Value) : Option (WatermarkKey dt) := if skippedInMax dt v then none else cellKey dt v

/-- over the types whose values are all ordinary, every key counts -/
theorem countedKey_eq {dt : DataType} (hdt : dt ≠ .float64) (v : Value) : countedKey dt v = cellKey dt v := by
  cases v <;> simp [countedKey, skippedInMax, hdt, cellKey_null]

theorem cellKey_of_countedKey {dt : DataType} {v : Value} {a : WatermarkKey dt} (h : countedKey dt v = some a) :
    cellKey dt v = some a := by
  unfold countedKey at h
  split_ifs at h
  exact h

theorem maxOfTyped_int64 (x y : Int64) : cellKey .int64 (maxOfTyped .int64 (.int64 x) (.int64 y)) =
    (some (max x.toInt y.toInt) : Option ℤ) := by
  rw [max_def, ← apply_ite Int64.toInt]; rfl

theorem maxOfTyped_utf8 (x y : String) : maxOfTyped .utf8 (.utf8 x) (.utf8 y) = .utf8 (max x y) := by
  rw [max_def_lt, apply_ite Value.utf8]; rfl

theorem maxOfTyped_key {dt : DataType} (hdt : dt ≠ .float64) {v w : Value} {a b : WatermarkKey dt}
    (hv : cellKey dt v = some a) (hw : cellKey dt w = some b) : cellKey dt (maxOfTyped dt v w) = some (max a b) := by
  cases dt with
  | float64 => exact absurd rfl hdt
  | int64 => cases v <;> cases hv; cases w <;> cases hw; exact maxOfTyped_int64 _ _
  | bool => cases v <;> cases hv; cases w <;> cases hw; cases a <;> cases b <;> rfl
  | utf8 => cases v <;> cases hv; cases w <;> cases hw; exact congrArg (cellKey .utf8) (maxOfTyped_utf8 _ _)

theorem maxOfTyped_float64 {x y : Binary64} (hx : x.isFinite = true) (hy : y.isFinite = true) :
    ∃ z : Binary64, maxOfTyped .float64 (.float64 x) (.float64 y) = .float64 z ∧ z.isFinite = true ∧
      z.totalKey = max x.totalKey y.totalKey := by
  refine ⟨if x.totalCmp y = .lt then y else x, by simp [maxOfTyped, hx, hy], by split_ifs <;> assumption, ?_⟩
  split_ifs with hlt
  · exact (max_eq_right (compare_lt_iff_lt.1 hlt).le).symm
  · exact (max_eq_left (not_lt.1 fun h => hlt (compare_lt_iff_lt.2 h))).symm

theorem maxOfTyped_counted {dt : DataType} {v w : Value} {a b : WatermarkKey dt} (hv : countedKey dt v = some a)
    (hw : countedKey dt w = some b) : countedKey dt (maxOfTyped dt v w) = some (max a b) := by
  by_cases hdt : dt = .float64
  · subst hdt
    cases v with
    | float64 x =>
      cases w with
      | float64 y =>
        by_cases hx : x.isFinite = true <;> by_cases hy : y.isFinite = true <;>
          simp [countedKey, skippedInMax, hx, hy, cellKey] at hv hw
        obtain ⟨z, hz, hfinite, hkey⟩ := maxOfTyped_float64 hx hy
        obtain rfl := Option.some.inj hv
        obtain rfl := Option.some.inj hw
        have hcounted : countedKey .float64 (.float64 z) = some z.totalKey := by
          rw [countedKey, if_neg (by simp [skippedInMax, hfinite])]
          rfl
        rw [hz, hcounted]
        exact congrArg some hkey
      | _ => cases hw
    | _ => cases hv
  · rw [countedKey_eq hdt] at hv hw ⊢
    exact maxOfTyped_key hdt hv hw

/-- the counted key of a row's watermark cell -/
def rowCounted (idx : ℕ) (dt : DataType) (row : Row) : Option (WatermarkKey dt) := row[idx]?.bind (countedKey dt)

/-- the row loop keeps the greatest counted key seen so far -/
theorem maxLoop_ok {idx : ℕ} {dt : DataType} {rows : List Row} (h : ColumnFits idx dt rows) (best : Option Value)
    (hbest : ∀ v ∈ best, (countedKey dt v).isSome) :
    ∃ r, maxLoop idx dt best rows = .ok r ∧ (∀ v ∈ r, (countedKey dt v).isSome) ∧
      r.bind (countedKey dt) = ((best.bind (countedKey dt)).toList ++ rows.filterMap (rowCounted idx dt)).max? := by
  induction rows generalizing best with
  | nil =>
    refine ⟨best, rfl, hbest, ?_⟩
    cases hk : best.bind (countedKey dt) <;> simp
  | cons row rows ih =>
    obtain ⟨cell, hcell, hfits⟩ := h row List.mem_cons_self
    have hrest : ColumnFits idx dt rows := fun r hr => h r (List.mem_cons_of_mem _ hr)
    have hkey : rowCounted idx dt row = countedKey dt cell := by simp [rowCounted, hcell]
    simp only [maxLoop, index_ok hcell, bind, Except.bind]
    by_cases hskip : skippedInMax dt cell = true
    · have hnone : countedKey dt cell = none := by rw [countedKey, if_pos hskip]
      rw [if_pos hskip]
      simpa [hkey, hnone] using ih hrest best hbest
    · have hsome : (countedKey dt cell).isSome := by
        have hnull : cell ≠ .null := by rintro rfl; exact hskip rfl
        rw [countedKey, if_neg hskip, cellKey_isSome, hfits.resolve_left hnull]
      obtain ⟨k, hk⟩ := Option.isSome_iff_exists.1 hsome
      rw [if_neg hskip]
      cases best with
      | none =>
        obtain ⟨r, h1, h2, h3⟩ := ih hrest (some cell) (by simpa using hsome)
        exact ⟨r, h1, h2, by simpa [hkey, hk] using h3⟩
      | some cur =>
        obtain ⟨c, hc⟩ := Option.isSome_iff_exists.1 (hbest cur rfl)
        have hmax := maxOfTyped_counted hc hk
        obtain ⟨r, h1, h2, h3⟩ := ih hrest (some (maxOfTyped dt cur cell))
          (by simp only [Option.mem_some_iff, forall_eq', hmax, Option.isSome_some])
        refine ⟨r, h1, h2, h3.trans ?_⟩
        simp only [Option.bind_some, hmax, hc, Option.toList_some, List.singleton_append, List.filterMap_cons, hkey, hk]
        rfl

/-- **The maximum of a conforming dataset** is the greatest counted key of its rows, none if no row has one -/
theorem maxValueInColumn_ok {ds : DataSet} {schema : Schema} (h : ds.Conforms schema) {column : String} {idx : ℕ}
    (hcol : schema.indexOf column = some idx) (hi : idx < schema.fields.length) :
    ∃ r, maxValueInColumn ds schema column = .ok r ∧
      (∀ v ∈ r, (countedKey schema.fields[idx].dataType v).isSome) ∧
      r.bind (countedKey schema.fields[idx].dataType) =
        (ds.rows.filterMap (rowCounted idx schema.fields[idx].dataType)).max? := by
  obtain ⟨r, h1, h2, h3⟩ := maxLoop_ok (ColumnFits.of_conforms h.rows hi) none (by simp)
  refine ⟨r, ?_, h2, by simpa using h3⟩
  simp only [maxValueInColumn, hcol, index_fields hi, bind, Except.bind, h1]

theorem maxValueInColumn_total {ds : DataSet} {schema : Schema} (h : ds.Conforms schema) (column : String) :
    ∃ r, maxValueInColumn ds schema column = .ok r := by
  cases hcol : schema.indexOf column with
  | none =>
    unfold maxValueInColumn
    rw [hcol]
    exact ⟨none, rfl⟩
  | some idx =>
    obtain ⟨hi, -⟩ := Schema.indexOf_some hcol
    obtain ⟨r, hr, -⟩ := maxValueInColumn_ok h hcol hi
    exact ⟨r, hr⟩

/-- over `i64`, `bool` and text columns every key counts -/
theorem maxValueInColumn_conforms {ds : DataSet} {schema : Schema} (h : ds.Conforms schema) {column : String}
    {idx : ℕ} (hcol : schema.indexOf column = some idx) (hi : idx < schema.fields.length)
    (hdt : schema.fields[idx].dataType ≠ .float64) :
    ∃ r, maxValueInColumn ds schema column = .ok r ∧ (∀ v ∈ r, v.hasType schema.fields[idx].dataType = true) ∧
      r.bind (cellKey schema.fields[idx].dataType) =
        (ds.rows.filterMap (rowKey idx schema.fields[idx].dataType)).max? := by
  obtain ⟨r, h1, h2, h3⟩ := maxValueInColumn_ok h hcol hi
  have hkeys : countedKey schema.fields[idx].dataType = cellKey schema.fields[idx].dataType :=
    funext (countedKey_eq hdt)
  have hrows : rowCounted idx schema.fields[idx].dataType = rowKey idx schema.fields[idx].dataType := by
    funext row
    rw [rowCounted, rowKey, hkeys]
  rw [hkeys, hrows] at h3
  exact ⟨r, h1, fun v hv => by rw [← cellKey_isSome, ← hkeys]; exact h2 v hv, h3⟩

end RustDataProcessing.Ingestion
