/-
Database ingestion (`src/ingestion/db.rs`): the batches of a query, as a dataset, filtered by the watermark.

`arrowValueToValue` accepts every integer and float layout for a numeric field. For a text field it knows one of the two
text layouts; any other column is printed whole (`{arr:?}`), for each of its rows.

- `converters_agree_iff`: where `transform::arrow` returns a dataset, this converter returns the same one exactly when
  every text of a `LargeUtf8` column is the printed column itself.
-/
import Mathlib.Tactic
import RustDataProcessing.Transform
import RustDataProcessing.Lib.Display
import RustDataProcessing.Ingestion.Watermark

namespace RustDataProcessing.Ingestion

open Arrow (ArrowDataType ArrowArray RecordBatch Crate)
open Traverse (Returns)

namespace Db

/-! ## One cell -/

/-- `v as i64` for an integral double; any other is an error -/
def integralCell (row : ℕ) (name : String) (v : Binary64) : IngestionResult Value :=
  if v.isIntegral then .ok (.int64 (RustStd.saturateI64 (v.truncate.getD 0)))
  else .error (.parseError (row + 1) name (.text (RustStd.displayF64 v)) "expected integer (got non-integer float)")

def int64Cell (row : ℕ) (name : String) : (dt : ArrowDataType) → dt.Native → IngestionResult Value
  | .int64, v => .ok (.int64 v)
  | .int32, v => .ok (.int64 v.toInt64)
  | .int16, v => .ok (.int64 v.toInt64)
  | .int8, v => .ok (.int64 v.toInt64)
  | .uint64, v => .ok (.int64 v.toInt64)
  | .uint32, v => .ok (.int64 (Int64.ofNat v.toNat))
  | .uint16, v => .ok (.int64 (Int64.ofNat v.toNat))
  | .uint8, v => .ok (.int64 (Int64.ofNat v.toNat))
  | .float64, v => integralCell row name v
  | .float32, v => integralCell row name v.toBinary64
  | _, _ => .error (.schemaMismatch s!"column '{name}' is not an integer-compatible Arrow array")

def float64Cell (name : String) : (dt : ArrowDataType) → dt.Native → IngestionResult Value
  | .float64, v => .ok (.float64 v)
  | .float32, v => .ok (.float64 v.toBinary64)
  | .int64, v => .ok (.float64 (Binary64.ofInt v.toInt))
  | .int32, v => .ok (.float64 (Binary64.ofInt v.toInt))
  | .int16, v => .ok (.float64 (Binary64.ofInt v.toInt))
  | .int8, v => .ok (.float64 (Binary64.ofInt v.toInt))
  | .uint64, v => .ok (.float64 (Binary64.ofInt v.toNat))
  | .uint32, v => .ok (.float64 (Binary64.ofInt v.toNat))
  | .uint16, v => .ok (.float64 (Binary64.ofInt v.toNat))
  | .uint8, v => .ok (.float64 (Binary64.ofInt v.toNat))
  | _, _ => .error (.schemaMismatch s!"column '{name}' is not a float-compatible Arrow array")

def boolCell (name : String) : (dt : ArrowDataType) → dt.Native → IngestionResult Value
  | .boolean, v => .ok (.bool v)
  | _, _ => .error (.schemaMismatch s!"column '{name}' is not boolean")

/-- `printed` is the text of the whole array -/
def utf8Cell (printed : String) : (dt : ArrowDataType) → dt.Native → IngestionResult Value
  | .utf8, v => .ok (.utf8 v)
  | _, _ => .ok (.utf8 printed)

def arrowValueToValue (A : Crate) (arr : ArrowArray) (row : ℕ) (target : DataType) (name : String) :
    IngestionResult Value :=
  match arr.cell row with
  | none => .ok .null
  | some v => match target with
    | .bool => boolCell name arr.dataType v
    | .int64 => int64Cell row name arr.dataType v
    | .float64 => float64Cell name arr.dataType v
    | .utf8 => utf8Cell (A.debug arr) arr.dataType v

/-! ## Batches -/

def recordBatchToDataset (A : Crate) (batch : RecordBatch) (schema : Schema) : IngestionResult DataSet :=
  batchToDataset (fun arr row f => arrowValueToValue A arr row f.dataType f.name) batch schema

/-- the rows of all batches -/
def recordBatchesToRows (A : Crate) (schema : Schema) : List RecordBatch → IngestionResult (List Row)
  | [] => .ok []
  | batch :: batches => do
    let ds ← recordBatchToDataset A batch schema
    let rest ← recordBatchesToRows A schema batches
    pure (ds.rows ++ rest)

def recordBatchesToDataset (A : Crate) (batches : List RecordBatch) (schema : Schema) : IngestionResult DataSet := do
  let allRows ← recordBatchesToRows A schema batches
  pure ⟨schema, allRows⟩

/-! ## Queries -/

theorem integralCell_fits {row : ℕ} {name : String} {x : Binary64} {v : Value} (h : integralCell row name x = .ok v) :
    v.fits .int64 := by
  unfold integralCell at h
  split_ifs at h
  exact Or.inr (by rw [← Except.ok.inj h]; rfl)

theorem int64Cell_fits {row : ℕ} {name : String} {dt : ArrowDataType} {x : dt.Native} {v : Value}
    (h : int64Cell row name dt x = .ok v) : v.fits .int64 := by
  cases dt <;> first
    | exact integralCell_fits h
    | exact Or.inr (by rw [← Except.ok.inj h]; rfl)
    | cases h

theorem float64Cell_fits {name : String} {dt : ArrowDataType} {x : dt.Native} {v : Value}
    (h : float64Cell name dt x = .ok v) : v.fits .float64 := by
  cases dt <;> first
    | exact Or.inr (by rw [← Except.ok.inj h]; rfl)
    | cases h

/-- a cell has the type of its field, or is null -/
theorem arrowValueToValue_fits {A : Crate} {arr : ArrowArray} {row : ℕ} {target : DataType} {name : String} {v : Value}
    (h : arrowValueToValue A arr row target name = .ok v) : v.fits target := by
  unfold arrowValueToValue at h
  split at h
  · exact Or.inl (Except.ok.inj h).symm
  · rename_i x hx
    cases target with
    | int64 => exact int64Cell_fits h
    | float64 => exact float64Cell_fits h
    | bool =>
      dsimp only at h
      unfold boolCell at h
      split at h
      · exact Or.inr (by rw [← Except.ok.inj h]; rfl)
      · cases h
    | utf8 =>
      dsimp only at h
      unfold utf8Cell at h
      split at h <;> exact Or.inr (by rw [← Except.ok.inj h]; rfl)

theorem recordBatchesToRows_conforms {A : Crate} {schema : Schema} {batches : List RecordBatch} {rows : List Row}
    (h : recordBatchesToRows A schema batches = .ok rows) : ∀ row ∈ rows, Row.Conforms row schema := by
  induction batches generalizing rows with
  | nil =>
    obtain rfl := Except.ok.inj h
    simp
  | cons b batches ih =>
    obtain ⟨ds, hds, h⟩ := Traverse.bind_eq_ok h
    obtain ⟨rest, hrest, h⟩ := Traverse.bind_eq_ok h
    obtain rfl := Except.ok.inj h
    have hconf := batchToDataset_conforms (fun _ _ _ _ hv => arrowValueToValue_fits hv) hds
    intro row hrow
    rcases List.mem_append.1 hrow with hrow | hrow
    · exact hconf.rows row hrow
    · exact ih hrest row hrow

/-- the dataset of a query conforms to the schema -/
theorem recordBatchesToDataset_conforms {A : Crate} {batches : List RecordBatch} {schema : Schema} {ds : DataSet}
    (h : recordBatchesToDataset A batches schema = .ok ds) : ds.Conforms schema := by
  obtain ⟨rows, hrows, h⟩ := Traverse.bind_eq_ok h
  obtain rfl := Except.ok.inj h
  exact ⟨rfl, recordBatchesToRows_conforms hrows⟩

end Db

/-- the database driver, and the Arrow crate that reads what it returns -/
structure Connectorx where
  run : String → String → IngestionResult (List RecordBatch)
  arrow : Crate

def ingestFromDb (C : Connectorx) (conn query : String) (schema : Schema) (options : IngestionOptions) :
    IngestionResult DataSet := do
  validateWatermarkConfig schema options
  let batches ← C.run conn query
  let ds ← Db.recordBatchesToDataset C.arrow batches schema
  applyWatermarkAfterIngest ds schema options

namespace Db

/-! ## Agreement with the other converter -/

open Transform (ownCell ownValue takes Convertible)

/-- the cell of a field whose column the other converter takes: a text of the second layout is lost -/
def dbCell (A : Crate) (arr : ArrowArray) (row : ℕ) : Value :=
  match arr with
  | ⟨.largeUtf8, cells⟩ => if (cells[row]?.join).isSome then .utf8 (A.debug ⟨.largeUtf8, cells⟩) else .null
  | arr => ownCell arr row

theorem arrowValueToValue_eq {A : Crate} {arr : ArrowArray} {target : DataType} (h : takes target arr.dataType = true)
    (row : ℕ) (name : String) : arrowValueToValue A arr row target name = .ok (dbCell A arr row) := by
  obtain ⟨dt, cells⟩ := arr
  cases target <;> cases dt <;> simp [takes] at h
  all_goals
    unfold arrowValueToValue dbCell ownCell ArrowArray.cell
    cases hcell : cells[row]?.join <;> simp [hcell, int64Cell, float64Cell, boolCell, utf8Cell, ownValue]

theorem recordBatchToDataset_ok {A : Crate} {batch : RecordBatch} {schema : Schema} (h : Convertible schema batch) :
    recordBatchToDataset A batch schema = .ok ⟨schema, gridOf (dbCell A) batch schema⟩ := by
  have hreturns : Returns (recordBatchToDataset A batch schema) _ ⟨schema, gridOf (dbCell A) batch schema⟩ :=
    batchToDataset_returns (P := fun _ _ => True) fun row hrow f hf arr harr =>
      Or.inl ⟨trivial, arrowValueToValue_eq (h.takes (by omega) f hf arr harr) row f.name⟩
  rcases hreturns with ⟨-, hds⟩ | ⟨hnot, -⟩
  · exact hds
  · exact absurd ⟨h.columns, fun _ _ _ _ _ => trivial⟩ hnot

theorem recordBatchesToRows_ok {A : Crate} {batches : List RecordBatch} {schema : Schema}
    (h : ∀ b ∈ batches, Convertible schema b) :
    recordBatchesToRows A schema batches = .ok (batches.map fun b => gridOf (dbCell A) b schema).flatten := by
  induction batches with
  | nil => rfl
  | cons b batches ih =>
    obtain ⟨hb, hrest⟩ := List.forall_mem_cons.1 h
    unfold recordBatchesToRows
    rw [recordBatchToDataset_ok hb, ih hrest]
    rfl

/-- every text of the second layout is the text its whole column prints as -/
def KeepsLargeText (A : Crate) (schema : Schema) (batch : RecordBatch) : Prop :=
  ∀ f ∈ schema.fields, f.dataType = .utf8 → ∀ cells, columnOf batch f = some ⟨.largeUtf8, cells⟩ →
    ∀ s, some s ∈ cells → A.debug ⟨.largeUtf8, cells⟩ = s

theorem gridOf_eq_iff {own own' : ArrowArray → ℕ → Value} {batch : RecordBatch} {schema : Schema} :
    gridOf own batch schema = gridOf own' batch schema ↔
      ∀ row < batch.numRows, ∀ f ∈ schema.fields, cellOf own batch row f = cellOf own' batch row f := by
  simp [gridOf, List.map_inj_left]

theorem dbCell_eq_iff {A : Crate} {arr : ArrowArray} {row : ℕ} :
    dbCell A arr row = ownCell arr row ↔
      ∀ cells, arr = ⟨.largeUtf8, cells⟩ → ∀ s, cells[row]? = some (some s) → A.debug arr = s := by
  obtain ⟨dt, cells⟩ := arr
  by_cases hdt : dt = .largeUtf8
  · subst hdt
    unfold dbCell ownCell ArrowArray.cell
    rcases hget : cells[row]? with _ | _ | s <;> simp [hget, ownValue]
  · have hother : dbCell A ⟨dt, cells⟩ row = ownCell ⟨dt, cells⟩ row := by cases dt <;> first | rfl | exact absurd rfl hdt
    exact iff_of_true hother fun cells' heq => absurd (ArrowArray.mk.inj heq).1 hdt

theorem grid_eq_iff {A : Crate} {batch : RecordBatch} {schema : Schema} (h : Convertible schema batch) :
    gridOf (dbCell A) batch schema = gridOf ownCell batch schema ↔ KeepsLargeText A schema batch := by
  rw [gridOf_eq_iff]
  constructor
  · intro heq f hf _ cells hcol s hs
    obtain ⟨row, hrow, hget⟩ := List.getElem_of_mem hs
    obtain ⟨idx, -, harr⟩ := Option.bind_eq_some_iff.1 hcol
    have hlen := batch.sized _ (List.mem_of_getElem? harr)
    have hcell := heq row (hlen ▸ hrow) f hf
    rw [cellOf, cellOf, hcol] at hcell
    exact dbCell_eq_iff.1 hcell cells rfl s (by rw [List.getElem?_eq_getElem hrow, hget])
  · intro hkeeps row hrow f hf
    obtain ⟨arr, harr⟩ := Option.isSome_iff_exists.1 (h.columns f hf)
    rw [cellOf, cellOf, harr]
    refine dbCell_eq_iff.2 fun cells hlarge s hs => ?_
    have htakes := h.takes (by omega) f hf arr harr
    subst hlarge
    refine hkeeps f hf ?_ cells harr s (List.mem_of_getElem? hs)
    cases hdt : f.dataType <;> rw [hdt] at htakes <;> first | rfl | cases htakes

theorem flatten_map_inj {α β : Type} {g₁ g₂ : α → List β} {l : List α} (h : ∀ x ∈ l, (g₁ x).length = (g₂ x).length) :
    (l.map g₁).flatten = (l.map g₂).flatten ↔ ∀ x ∈ l, g₁ x = g₂ x := by
  induction l with
  | nil => simp
  | cons x l ih =>
    obtain ⟨hx, hl⟩ := List.forall_mem_cons.1 h
    rw [List.forall_mem_cons, ← ih hl, List.map_cons, List.map_cons, List.flatten_cons, List.flatten_cons]
    constructor
    · intro heq
      exact List.append_inj heq hx
    · rintro ⟨h₁, h₂⟩
      rw [h₁, h₂]

/-- the other converter's result is this one's, and each cell of it is a cell of its own row -/
structure Agrees (A : Crate) (batches : List RecordBatch) (schema : Schema) (ds : DataSet) : Prop where
  same : recordBatchesToDataset A batches schema = .ok ds
  own : ds.rows = (batches.map fun b => gridOf ownCell b schema).flatten

/-- **The converters agree** exactly when no text of the second layout is replaced by its column's text -/
theorem converters_agree_iff {A : Crate} {batches : List RecordBatch} {schema : Schema} {ds : DataSet}
    (h : Transform.recordBatchesToDataset A batches schema = .ok ds) :
    Agrees A batches schema ds ↔ ∀ b ∈ batches, KeepsLargeText A schema b := by
  obtain ⟨hconv, rfl⟩ := Transform.recordBatchesToDataset_ok h
  have hdb : recordBatchesToDataset A batches schema =
      .ok ⟨schema, (batches.map fun b => gridOf (dbCell A) b schema).flatten⟩ := by
    unfold recordBatchesToDataset
    rw [recordBatchesToRows_ok hconv]
    rfl
  have hiff := @flatten_map_inj _ _ (fun b => gridOf (dbCell A) b schema) (fun b => gridOf ownCell b schema) batches
    fun b _ => by simp [gridOf]
  constructor
  · intro hagrees b hb
    have heq := Except.ok.inj (hdb.symm.trans hagrees.same)
    exact (grid_eq_iff (hconv b hb)).1 (hiff.1 (DataSet.mk.inj heq).2 b hb)
  · intro hkeeps
    refine ⟨?_, rfl⟩
    rw [hdb, hiff.2 fun b hb => (grid_eq_iff (hconv b hb)).2 (hkeeps b hb)]

/-- what is printed of a cell, and of a `LargeStringArray`: the first ten and the last ten rows -/
def printedCell : Option String → String
  | none => "  null,\n"
  | some s => "  " ++ RustStd.debugText s ++ ",\n"

def printedLarge (cells : List (Option String)) : String :=
  let rows (l : List (Option String)) := String.join (l.map printedCell)
  "LargeStringArray\n[\n" ++ rows (cells.take 10) ++
    (if cells.length > 20 then s!"  ...{cells.length - 20} elements...,\n" else "") ++
    rows (cells.drop (max 10 (cells.length - 10))) ++ "]"

/-- enough of the crate for one batch -/
def oneBatch : Crate where
  debug
    | ⟨.largeUtf8, cells⟩ => printedLarge cells
    | _ => ""
  concatBatches _ _ := .error "more than one batch"
  concatenated _ _ _ h := by cases h

def largeNames : RecordBatch where
  schema := ⟨[⟨"name", .largeUtf8, true, []⟩], []⟩
  columns := [⟨.largeUtf8, [some "Ada", none]⟩]
  numRows := 2
  typed := rfl
  sized := by simp

/-- a name comes back as the text of its column -/
theorem name_printed_as_column :
    Transform.recordBatchesToDataset oneBatch [largeNames] ⟨[⟨"name", .utf8⟩]⟩ =
      .ok ⟨⟨[⟨"name", .utf8⟩]⟩, [[.utf8 "Ada"], [.null]]⟩ ∧
    recordBatchesToDataset oneBatch [largeNames] ⟨[⟨"name", .utf8⟩]⟩ =
      .ok ⟨⟨[⟨"name", .utf8⟩]⟩, [[.utf8 "LargeStringArray\n[\n  \"Ada\",\n  null,\n]"], [.null]]⟩ := by
  refine ⟨rfl, rfl⟩

theorem names_agree_iff :
    Agrees oneBatch [largeNames] ⟨[⟨"name", .utf8⟩]⟩ ⟨⟨[⟨"name", .utf8⟩]⟩, [[.utf8 "Ada"], [.null]]⟩ ↔
      ∀ b ∈ [largeNames], KeepsLargeText oneBatch ⟨[⟨"name", .utf8⟩]⟩ b :=
  converters_agree_iff rfl

end Db

end RustDataProcessing.Ingestion
