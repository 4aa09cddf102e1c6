/-
Ordered files over the JVM interface (`rdp_ingest_ordered_paths_json` in `bindings/jvm-sys/src/ingest_path.rs`).

A request names files, a schema, ingestion options as JSON, and how the batch comes back. In mode `dataset` the rows are
cut off at a cap after `ingest_from_ordered_paths` has computed the maximum watermark of the batch, so the response can
carry a checkpoint that lies above rows it does not have. The two modes that write a file (`exportTemp`) carry none.

- `checkpoint_covered_iff`: every row up to the checkpoint is returned exactly when the cap takes nothing from the batch
  (`CapHarmless`), and, counting also the rows the option `max_rows` has cut off, when these are all later.
- `capHarmless_iff`: unless the column is `f64`, that is a batch of at most as many rows as the cap.
-/
import Mathlib.Tactic
import RustDataProcessing.Json
import RustDataProcessing.Lib.Traverse
import RustDataProcessing.Ingestion.Checkpoint

namespace RustDataProcessing.JvmSys

open Ingestion

/-! ## Options -/

/-- the tagged form of a value, `{"Int64": 100}` -/
def taggedValue : List (String × Json) → Option Value
  | [("Null", .null)] => some .null
  | [("Int64", j)] => j.asI64.map .int64
  | [("Float64", j)] => j.asF64.map .float64
  | [("Bool", j)] => j.asBool.map .bool
  | [("Utf8", j)] => j.asStr.map .utf8
  | _ => none

def jsonScalarToValue : Json → Except String Value
  | .null => .ok .null
  | .bool b => .ok (.bool b)
  | .number n => match Json.asI64 (.number n) with
    | some i => .ok (.int64 i)
    | none => match Json.asF64 (.number n) with
      | some f => .ok (.float64 f)
      | none => .error "unsupported JSON number for watermark value: "
  | .string s => .ok (.utf8 s)
  | .object members => match taggedValue members with
    | some v => .ok v
    | none => .error "watermark_exclusive_above object: "
  | .array _ => .error "watermark_exclusive_above must be a scalar or serde Value object"

def formatOption (fmt : String) : Except String IngestionFormat :=
  if fmt = "csv" then .ok .csv
  else if fmt = "json" then .ok .json
  else if fmt = "parquet" ∨ fmt = "pq" then .ok .parquet
  else if fmt = "excel" ∨ fmt = "xlsx" ∨ fmt = "xls" ∨ fmt = "xlsm" ∨ fmt = "xlsb" ∨ fmt = "ods" then .ok .excel
  else if fmt = "xml" then .ok .xml
  else .error s!"unknown format: {fmt}"

def parseIngestionOptions (json : Json) (formatOverride : Option IngestionFormat) : Except String IngestionOptions :=
  match json.asObject with
  | none => .error "options JSON must be an object"
  | some obj => do
    let text (key : String) := (Json.get obj key).bind Json.asStr
    let format ← match text "format" with
      | some fmt => (formatOption fmt).map some
      | none => pure none
    let floor ← match Json.get obj "watermark_exclusive_above" with
      | some w => (jsonScalarToValue w).map some
      | none => pure none
    pure {
      format := formatOverride.or format
      excelSheetSelection := match (text "sheet_name").or (text "excel_sheet") with
        | some sheet => .sheet sheet
        | none => .first
      watermarkColumn := text "watermark_column"
      watermarkExclusiveAbove := floor
      maxRows := ((Json.get obj "max_rows").bind Json.asU64).map UInt64.toNat }

/-! ## The call -/

structure ResponseSpec where
  mode : String
  maxRows : Option ℕ
deriving DecidableEq, Repr

structure OrderedPathsRequest where
  paths : List String
  schema : Schema
  options : Json
  response : ResponseSpec

inductive OrderedPathsError where
  | text (s : String)
  | ingest (e : IngestionError)
  | panic
deriving Repr

def OrderedPathsError.ofFault : Fault → OrderedPathsError
  | .error e => .ingest e
  | .panic => .panic

/-- the response in mode `dataset`; the dataset stands for its JSON form -/
structure DatasetResponse where
  dataset : DataSet
  paths : List String
  totalRowCount : ℕ
  returnedRowCount : ℕ
  truncated : Bool
  orderedBatch : OrderedBatchIngestMetadata
deriving DecidableEq, Repr

inductive OrderedPathsResponse where
  | dataset (response : DatasetResponse)
  | tempFile (kind path : String) (rowCount : ℕ) (schema : Schema) (paths : List String)
deriving DecidableEq, Repr

def defaultMaxDatasetRows : ℕ := 50000

/-- at least one row is returned -/
def ResponseSpec.cap (response : ResponseSpec) : ℕ := max (response.maxRows.getD defaultMaxDatasetRows) 1

def datasetResponse (response : ResponseSpec) (paths : List String) (ds : DataSet)
    (batch : OrderedBatchIngestMetadata) : DatasetResponse :=
  let truncated := ds.rowCount > response.cap
  let returned : DataSet := if truncated then ⟨ds.schema, ds.rows.take response.cap⟩ else ds
  ⟨returned, paths, ds.rowCount, returned.rowCount, truncated, batch⟩

def OrderedPathsRequest.opts (req : OrderedPathsRequest) : Except String IngestionOptions :=
  parseIngestionOptions (if req.options.isNull then .object [] else req.options) none

/-- the batch in the mode asked for; `exportTemp` writes a file of the kind and returns its path -/
def respond (exportTemp : String → DataSet → Except String String) (req : OrderedPathsRequest) (ds : DataSet)
    (batch : OrderedBatchIngestMetadata) : Except OrderedPathsError OrderedPathsResponse :=
  if req.response.mode = "dataset" then .ok (.dataset (datasetResponse req.response req.paths ds batch))
  else if req.response.mode = "parquet_temp" ∨ req.response.mode = "arrow_ipc_temp" then do
    let path ← (exportTemp req.response.mode ds).mapError .text
    pure (.tempFile s!"ingest_ordered_paths_{req.response.mode}" path ds.rowCount ds.schema req.paths)
  else .error (.text s!"unknown response.mode: {req.response.mode}")

def orderedPathsImpl (R : Readers) (exportTemp : String → DataSet → Except String String) (req : OrderedPathsRequest) :
    Except OrderedPathsError OrderedPathsResponse :=
  if req.paths = [] then .error (.text "paths must be non-empty")
  else do
    let opts ← req.opts.mapError .text
    let (ds, batch) ← (ingestFromOrderedPaths R req.paths req.schema opts).result.mapError .ofFault
    respond exportTemp req ds batch

/-! ## Watermarks beyond the maximum -/

/-- the watermark is +∞ or a positive NaN, which the maximum passes over -/
def IsTop (idx : ℕ) (dt : DataType) (row : Row) : Prop :=
  dt = .float64 ∧ ∃ x : Binary64, row[idx]? = some (.float64 x) ∧ x.isFinite = false ∧ x.isNegative = false

theorem skipped_cases {dt : DataType} {cell : Value} {a : WatermarkKey dt} (hkey : cellKey dt cell = some a)
    (hskip : skippedInMax dt cell = true) : dt = .float64 ∧ ∃ x : Binary64, cell = .float64 x ∧ x.isFinite = false := by
  cases cell with
  | null => rw [cellKey_null] at hkey; cases hkey
  | float64 x =>
    have hboth : dt = .float64 ∧ x.isFinite = false := by simpa [skippedInMax] using hskip
    exact ⟨hboth.1, x, rfl, hboth.2⟩
  | _ => cases hskip

theorem counted_float64 {v : Value} {b : WatermarkKey .float64} (h : countedKey .float64 v = some b) :
    ∃ y : Binary64, y.isFinite = true ∧ b = y.totalKey := by
  have hkey := cellKey_of_countedKey h
  cases v with
  | float64 y =>
    by_cases hy : y.isFinite = true
    · exact ⟨y, hy, (Option.some.inj hkey).symm⟩
    · rw [countedKey, if_pos (by simp [skippedInMax, hy])] at h
      cases h
  | _ => cases hkey

/-- of the watermarks that may be later than a counted one, only these are not counted themselves -/
theorem later_iff_isTop {idx : ℕ} {dt : DataType} {row : Row} {v : Value} {a b : WatermarkKey dt}
    (hrow : rowKey idx dt row = some a) (hv : countedKey dt v = some b) (hcounted : rowCounted idx dt row = some a → a ≤ b) :
    b < a ↔ IsTop idx dt row := by
  obtain ⟨cell, hcell, hkey⟩ := Option.bind_eq_some_iff.1 hrow
  have hrc : rowCounted idx dt row = countedKey dt cell := by simp [rowCounted, hcell]
  by_cases hskip : skippedInMax dt cell = true
  · obtain ⟨rfl, x, rfl, hx⟩ := skipped_cases hkey hskip
    obtain ⟨y, hy, rfl⟩ := counted_float64 hv
    obtain rfl := Option.some.inj hkey
    have horder := Binary64.totalKey_of_not_finite hy hx
    constructor
    · intro hlt
      refine ⟨rfl, x, hcell, hx, ?_⟩
      by_contra hneg
      rw [if_pos (by simpa using hneg)] at horder
      exact lt_asymm hlt horder
    · rintro ⟨-, x', hx', -, hpos⟩
      obtain rfl := Value.float64.inj (Option.some.inj (hcell.symm.trans hx'))
      rw [if_neg (by simp [hpos])] at horder
      exact horder
  · have hsome : rowCounted idx dt row = some a := by rw [hrc, countedKey, if_neg hskip, hkey]
    refine iff_of_false (not_lt.2 (hcounted hsome)) ?_
    rintro ⟨rfl, x, hx, hfinite, -⟩
    obtain rfl := Option.some.inj (hcell.symm.trans hx)
    exact hskip (by simp [skippedInMax, hfinite])

/-! ## The checkpoint and the rows returned -/

/-- the row's watermark is at or below the value -/
def AtOrBelow (idx : ℕ) (dt : DataType) (m : Value) (row : Row) : Prop :=
  ∃ a b, rowKey idx dt row = some a ∧ cellKey dt m = some b ∧ a ≤ b

/-- the response has every one of the rows up to its checkpoint, as often as it occurs -/
def Covered (idx : ℕ) (dt : DataType) (response : DatasetResponse) (rows : List Row) : Prop :=
  ∀ m, response.orderedBatch.maxWatermarkValue = some m → ∀ row, AtOrBelow idx dt m row →
    rows.count row ≤ response.dataset.rows.count row

/-- no watermark of the batch counts, or all rows beyond the cap are later than any that does -/
def CapHarmless (idx : ℕ) (dt : DataType) (cap : ℕ) (batch : List Row) : Prop :=
  (∀ row ∈ batch, rowCounted idx dt row = none) ∨ ∀ row ∈ batch.drop cap, IsTop idx dt row

/-- the rows are later than every counted one of the batch -/
def LaterThanCounted (idx : ℕ) (dt : DataType) (batch rows : List Row) : Prop :=
  ∀ row ∈ rows, ∀ r ∈ batch, ∀ a b, rowKey idx dt row = some a → rowCounted idx dt r = some b → b < a

theorem laterThanCounted_append {idx : ℕ} {dt : DataType} {batch rows rows' : List Row} :
    LaterThanCounted idx dt batch (rows ++ rows') ↔
      LaterThanCounted idx dt batch rows ∧ LaterThanCounted idx dt batch rows' := List.forall_mem_append

theorem count_le_iff {P : Row → Prop} {returned rest rows : List Row} (h : (returned ++ rest).Perm rows) :
    (∀ row, P row → rows.count row ≤ returned.count row) ↔ ∀ row ∈ rest, ¬P row := by
  have hcount : ∀ row, rows.count row = returned.count row + rest.count row := by
    intro row
    rw [← h.count_eq, List.count_append]
  constructor
  · intro hle row hmem hP
    have := hle row hP
    have hpos := List.count_pos_iff.2 hmem
    have := hcount row
    omega
  · intro hrest row hP
    have hzero : rest.count row = 0 := List.count_eq_zero.2 fun hmem => hrest row hmem hP
    have := hcount row
    omega

/-- a row with a watermark is not covered by the maximum exactly when it is later than every counted row -/
theorem not_atOrBelow_iff {idx : ℕ} {dt : DataType} {batch : List Row} {m : Value}
    (hm : (countedKey dt m).isSome) (hmax : countedKey dt m = (batch.filterMap (rowCounted idx dt)).max?) {row : Row}
    {a : WatermarkKey dt} (hrow : rowKey idx dt row = some a) :
    ¬AtOrBelow idx dt m row ↔ ∀ r ∈ batch, ∀ b, rowCounted idx dt r = some b → b < a := by
  obtain ⟨c, hc⟩ := Option.isSome_iff_exists.1 hm
  have hkey := cellKey_of_countedKey hc
  rw [hc] at hmax
  obtain ⟨hmem, hle⟩ := List.max?_eq_some_iff.1 hmax.symm
  constructor
  · intro hnot r hr b hb
    have hbc := hle b (List.mem_filterMap.2 ⟨r, hr, hb⟩)
    have hca : c < a := lt_of_not_ge fun hac => hnot ⟨a, c, hrow, hkey, hac⟩
    exact lt_of_le_of_lt hbc hca
  · rintro hlater ⟨a', c', ha', hc', hac⟩
    obtain rfl := Option.some.inj (hrow.symm.trans ha')
    obtain rfl := Option.some.inj (hkey.symm.trans hc')
    obtain ⟨r, hr, hrc⟩ := List.mem_filterMap.1 hmem
    exact absurd hac (not_le.2 (hlater r hr _ hrc))

theorem covered_iff_later {idx : ℕ} {dt : DataType} {response : DatasetResponse} {batch rest rows : List Row}
    (hperm : (response.dataset.rows ++ rest).Perm rows)
    (hm : ∀ m ∈ response.orderedBatch.maxWatermarkValue, (countedKey dt m).isSome)
    (hmax : response.orderedBatch.maxWatermarkValue.bind (countedKey dt) = (batch.filterMap (rowCounted idx dt)).max?)
    (hkeys : ∀ row ∈ rest, ∃ a, rowKey idx dt row = some a) :
    Covered idx dt response rows ↔ LaterThanCounted idx dt batch rest := by
  unfold Covered LaterThanCounted
  cases hbest : response.orderedBatch.maxWatermarkValue with
  | none =>
    rw [hbest] at hmax
    have hnil := List.max?_eq_none_iff.1 hmax.symm
    refine iff_of_true (fun m h => by cases h) fun row _ r hr a b _ hb => ?_
    have hmem := List.mem_filterMap.2 ⟨r, hr, hb⟩
    rw [hnil] at hmem
    cases hmem
  | some m =>
    rw [hbest] at hm hmax
    have hone : (∀ m', some m = some m' → ∀ row, AtOrBelow idx dt m' row →
        rows.count row ≤ response.dataset.rows.count row) ↔
        ∀ row, AtOrBelow idx dt m row → rows.count row ≤ response.dataset.rows.count row := by
      constructor
      · intro h
        exact h m rfl
      · rintro h m' heq
        obtain rfl := Option.some.inj heq
        exact h
    rw [hone, count_le_iff hperm]
    refine forall₂_congr fun row hrow => ?_
    obtain ⟨a, ha⟩ := hkeys row hrow
    rw [not_atOrBelow_iff (hm m rfl) hmax ha]
    constructor
    · intro h r hr a' b ha' hb
      obtain rfl := Option.some.inj (ha.symm.trans ha')
      exact h r hr b hb
    · intro h r hr b hb
      exact h r hr a b ha hb

theorem rowCounted_of_isTop {idx : ℕ} {dt : DataType} {row : Row} (h : IsTop idx dt row) :
    rowCounted idx dt row = none := by
  obtain ⟨rfl, x, hx, hfinite, -⟩ := h
  simp [rowCounted, hx, countedKey, skippedInMax, hfinite]

theorem capHarmless_iff_later {idx : ℕ} {dt : DataType} {cap : ℕ} {batch : List Row}
    (hkeys : ∀ row ∈ batch, ∃ a, rowKey idx dt row = some a) :
    CapHarmless idx dt cap batch ↔ LaterThanCounted idx dt batch (batch.drop cap) := by
  constructor
  · rintro (hnone | htop) row hrow r hr a b ha hb
    · rw [hnone r hr] at hb
      cases hb
    · have htop := htop row hrow
      obtain ⟨v, -, hv⟩ := Option.bind_eq_some_iff.1 hb
      refine (later_iff_isTop ha hv fun hcounted => ?_).2 htop
      rw [rowCounted_of_isTop htop] at hcounted
      cases hcounted
  · intro hlater
    by_cases hnone : ∀ row ∈ batch, rowCounted idx dt row = none
    · exact Or.inl hnone
    · right
      intro row hrow
      obtain ⟨r, hr, hne⟩ := not_forall₂.1 hnone
      obtain ⟨b, hb⟩ := Option.ne_none_iff_exists'.1 hne
      obtain ⟨v, -, hv⟩ := Option.bind_eq_some_iff.1 hb
      obtain ⟨a, ha⟩ := hkeys row (List.mem_of_mem_drop hrow)
      -- a row beyond the cap that counted would have to be later than itself
      have huncounted : rowCounted idx dt row ≠ some a := fun h =>
        lt_irrefl a (hlater row hrow row (List.mem_of_mem_drop hrow) a a ha h)
      exact (later_iff_isTop ha hv fun h => absurd h huncounted).1 (hlater row hrow r hr a b ha hb)

/-- unless the column is `f64`, the cap is harmless for a batch that fits in it -/
theorem capHarmless_iff {idx : ℕ} {dt : DataType} (hdt : dt ≠ .float64) {cap : ℕ} {batch : List Row}
    (hkeys : ∀ row ∈ batch, ∃ a, rowKey idx dt row = some a) :
    CapHarmless idx dt cap batch ↔ batch.length ≤ cap := by
  rw [← List.drop_eq_nil_iff]
  constructor
  · rintro (hnone | htop)
    · refine List.eq_nil_iff_forall_not_mem.2 fun row hrow => ?_
      have hmem := List.mem_of_mem_drop hrow
      obtain ⟨a, ha⟩ := hkeys row hmem
      obtain ⟨cell, hcell, hkey⟩ := Option.bind_eq_some_iff.1 ha
      have hsome : rowCounted idx dt row = some a := by simp [rowCounted, hcell, countedKey_eq hdt, hkey]
      rw [hnone row hmem] at hsome
      cases hsome
    · exact List.eq_nil_iff_forall_not_mem.2 fun row hrow => hdt (htop row hrow).1
  · intro hnil
    right
    rw [hnil]
    simp

/-! ## The response -/

theorem datasetResponse_rows (response : ResponseSpec) (paths : List String) (ds : DataSet)
    (batch : OrderedBatchIngestMetadata) :
    (datasetResponse response paths ds batch).dataset.rows = ds.rows.take response.cap := by
  unfold datasetResponse DataSet.rowCount
  dsimp only
  split_ifs with h
  · rfl
  · rw [List.take_of_length_le (not_lt.1 h)]

theorem respond_dataset {exportTemp : String → DataSet → Except String String} {req : OrderedPathsRequest} {ds : DataSet}
    {batch : OrderedBatchIngestMetadata} {response : DatasetResponse}
    (h : respond exportTemp req ds batch = .ok (.dataset response)) :
    response = datasetResponse req.response req.paths ds batch := by
  unfold respond at h
  split_ifs at h
  · exact (OrderedPathsResponse.dataset.inj (Except.ok.inj h)).symm
  · obtain ⟨path, -, h⟩ := Traverse.bind_eq_ok h
    cases h

theorem orderedPathsImpl_dataset {R : Readers} {exportTemp : String → DataSet → Except String String}
    {req : OrderedPathsRequest} {opts : IngestionOptions} (hopts : req.opts = .ok opts) {response : DatasetResponse}
    (h : orderedPathsImpl R exportTemp req = .ok (.dataset response)) :
    req.paths ≠ [] ∧ ∃ ds batch, (ingestFromOrderedPaths R req.paths req.schema opts).result = .ok (ds, batch) ∧
      response = datasetResponse req.response req.paths ds batch := by
  unfold orderedPathsImpl at h
  split_ifs at h with hnil
  obtain ⟨opts', hopts', h⟩ := Traverse.bind_eq_ok h
  obtain rfl := Except.ok.inj (hopts.symm.trans (Traverse.ok_of_mapError hopts'))
  obtain ⟨⟨ds, batch⟩, hingest, h⟩ := Traverse.bind_eq_ok h
  exact ⟨hnil, ds, batch, Traverse.ok_of_mapError hingest, respond_dataset h⟩

theorem validate_of_ok {R : Readers} {paths : List String} {schema : Schema} {opts : IngestionOptions}
    {result : DataSet × OrderedBatchIngestMetadata} (h : (ingestFromOrderedPaths R paths schema opts).result = .ok result) :
    validateWatermarkConfig schema opts = .ok () := by
  unfold ingestFromOrderedPaths at h
  rw [result_bind] at h
  obtain ⟨u, hv, -⟩ := Traverse.bind_eq_ok h
  exact hv

theorem rowKey_of_aboveFloor {schema : Schema} {opts : IngestionOptions} {col : String} {idx : ℕ}
    (hv : validateWatermarkConfig schema opts = .ok ()) (hcol : opts.watermarkColumn = some col)
    (hidx : schema.indexOf col = some idx) (hi : idx < schema.fields.length) {row : Row}
    (h : aboveFloor schema opts row = true) : ∃ a, rowKey idx schema.fields[idx].dataType row = some a := by
  rcases validate_cases hv with ⟨hnone, -⟩ | ⟨col', floor, idx', hi', b, hcol', hfloor, hidx', hb⟩
  · rw [hcol] at hnone
    cases hnone
  · obtain rfl := Option.some.inj (hcol.symm.trans hcol')
    obtain rfl := Option.some.inj (hidx.symm.trans hidx')
    have habove : HighWater.isAbove b (rowKey idx schema.fields[idx].dataType row) = true := by
      simpa [aboveFloor, hcol, hfloor, hidx, List.getElem?_eq_getElem hi, hb] using h
    obtain ⟨a, ha, -⟩ := HighWater.isAbove_iff.1 habove
    exact ⟨a, ha⟩

/-- **The checkpoint covers only rows that are returned** exactly when the cap takes no row up to it; and, of all rows
above the floor, when the rows that `max_rows` has cut off are later than the batch -/
theorem checkpoint_covered_iff {R : Readers} {exportTemp : String → DataSet → Except String String}
    {req : OrderedPathsRequest} {opts : IngestionOptions} {response : DatasetResponse} {col : String} {idx : ℕ}
    {files : List DataSet} (hopts : req.opts = .ok opts)
    (hresponse : orderedPathsImpl R exportTemp req = .ok (.dataset response)) (hcol : opts.watermarkColumn = some col)
    (hidx : req.schema.indexOf col = some idx) (hi : idx < req.schema.fields.length)
    (hread : List.Forall₂ (fun p ds => readFile R req.schema opts p = .ok ds) req.paths files) :
    (Covered idx req.schema.fields[idx].dataType response (cutBatch req.schema opts files).rows ↔
      CapHarmless idx req.schema.fields[idx].dataType req.response.cap (cutBatch req.schema opts files).rows) ∧
    (Covered idx req.schema.fields[idx].dataType response
        ((files.map DataSet.rows).flatten.filter (aboveFloor req.schema opts)) ↔
      CapHarmless idx req.schema.fields[idx].dataType req.response.cap (cutBatch req.schema opts files).rows ∧
        LaterThanCounted idx req.schema.fields[idx].dataType (cutBatch req.schema opts files).rows
          (leftBehind opts.maxRows (aboveFloor req.schema opts) (files.map DataSet.rows))) := by
  obtain ⟨hne, ds, batch, hingest, rfl⟩ := orderedPathsImpl_dataset hopts hresponse
  have hv : validateWatermarkConfig req.schema opts = .ok () := validate_of_ok hingest
  obtain ⟨best, hbest, hres⟩ := ingestFromOrderedPaths_ok hne hv hread
  obtain ⟨hds, hbatch⟩ := Prod.mk.inj (Except.ok.inj (hingest.symm.trans hres))
  subst hds hbatch
  rw [hcol] at hbest
  obtain ⟨m, hm, hcounted, hmax⟩ :=
    maxValueInColumn_ok (cutBatch_conforms opts (files_conform hread)) hidx hi
  obtain rfl := Except.ok.inj (hm.symm.trans hbest)
  have hrows := datasetResponse_rows req.response req.paths (cutBatch req.schema opts files)
    ⟨req.paths, req.paths.getLast?, m⟩
  have hperm : ((cutBatch req.schema opts files).rows ++
      leftBehind opts.maxRows (aboveFloor req.schema opts) (files.map DataSet.rows)).Perm
      ((files.map DataSet.rows).flatten.filter (aboveFloor req.schema opts)) := by
    have h := delivered_append_leftBehind opts.maxRows (aboveFloor req.schema opts) (files.map DataSet.rows)
    rwa [delivered, List.map_map] at h
  have hkeys : ∀ row ∈ (files.map DataSet.rows).flatten.filter (aboveFloor req.schema opts),
      ∃ a, rowKey idx req.schema.fields[idx].dataType row = some a := fun row hrow =>
    rowKey_of_aboveFloor hv hcol hidx hi (List.mem_filter.1 hrow).2
  have hbatchkeys : ∀ row ∈ (cutBatch req.schema opts files).rows,
      ∃ a, rowKey idx req.schema.fields[idx].dataType row = some a := fun row hrow =>
    hkeys row (hperm.subset (List.mem_append_left _ hrow))
  constructor
  · rw [capHarmless_iff_later hbatchkeys]
    refine covered_iff_later ?_ hcounted hmax fun row hrow => hbatchkeys row (List.mem_of_mem_drop hrow)
    rw [hrows, List.take_append_drop]
  · rw [capHarmless_iff_later hbatchkeys, ← laterThanCounted_append]
    refine covered_iff_later ?_ hcounted hmax fun row hrow => ?_
    · rw [hrows, ← List.append_assoc, List.take_append_drop]
      exact hperm
    · rcases List.mem_append.1 hrow with hrow | hrow
      · exact hbatchkeys row (List.mem_of_mem_drop hrow)
      · exact hkeys row (hperm.subset (List.mem_append_right _ hrow))

/-- one file with the watermarks 11 and 12, from floor 10, of which one row may come back -/
def oneRowRequest : OrderedPathsRequest where
  paths := ["a.csv"]
  schema := eventSchema
  options := .object [("watermark_column", .string "ts"), ("watermark_exclusive_above", .number (.posInt 10))]
  response := ⟨"dataset", some 1⟩

def oneRowResponse : DatasetResponse where
  dataset := ⟨eventSchema, [event 11]⟩
  paths := ["a.csv"]
  totalRowCount := 2
  returnedRowCount := 1
  truncated := true
  orderedBatch := ⟨["a.csv"], some "a.csv", some (.int64 12)⟩

def oneRowOptions : IngestionOptions :=
  { watermarkColumn := some "ts", watermarkExclusiveAbove := some (.int64 10) }

theorem one_row_covered_iff :
    (Covered 0 .int64 oneRowResponse [event 11, event 12] ↔ CapHarmless 0 .int64 1 [event 11, event 12]) ∧
    (Covered 0 .int64 oneRowResponse [event 11, event 12] ↔
      CapHarmless 0 .int64 1 [event 11, event 12] ∧ LaterThanCounted 0 .int64 [event 11, event 12] []) := by
  have hopts : oneRowRequest.opts = .ok oneRowOptions := rfl
  have hresponse : orderedPathsImpl (memoryReaders [("a.csv", [event 11, event 12])]) (fun _ _ => .error "")
      oneRowRequest = .ok (.dataset oneRowResponse) := rfl
  have hread : List.Forall₂ (fun p ds => readFile (memoryReaders [("a.csv", [event 11, event 12])])
      oneRowRequest.schema oneRowOptions p = .ok ds) oneRowRequest.paths [⟨eventSchema, [event 11, event 12]⟩] :=
    .cons rfl .nil
  have hidx : oneRowRequest.schema.indexOf "ts" = some 0 := rfl
  exact checkpoint_covered_iff hopts hresponse rfl hidx (by decide) hread

/-- **The checkpoint 12 comes with row 11 alone**: a client that goes on from it never sees row 12 -/
theorem checkpoint_above_cut_row :
    orderedPathsImpl (memoryReaders [("a.csv", [event 11, event 12])]) (fun _ _ => .error "") oneRowRequest =
      .ok (.dataset oneRowResponse) ∧
    ¬Covered 0 .int64 oneRowResponse [event 11, event 12] := by
  refine ⟨rfl, fun h => ?_⟩
  have hle := h (.int64 12) rfl (event 12) ⟨(12 : ℤ), (12 : ℤ), rfl, rfl, le_refl _⟩
  exact absurd hle (by decide)

end RustDataProcessing.JvmSys
