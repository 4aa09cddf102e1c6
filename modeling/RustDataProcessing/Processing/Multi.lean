/-
Reductions over several columns, and over row numbers (`src/processing/multi.rs`).

- `featureWiseMeanStd_agrees`: the pass over all listed columns at once returns, at each position, what `reduce` returns
  of that column alone; it returns nothing exactly when a name is not a numeric column.
- `argRow_first_extremum`: `arg_max_row` and `arg_min_row` return the first row whose cell is the greatest or the least
  of the column, and no row exactly when there is no cell.
-/
import Mathlib.Tactic
import RustDataProcessing.Ingestion.Watermark
import RustDataProcessing.Processing.Reduce

namespace RustDataProcessing.Processing

/-! ## Several columns in one pass -/

structure FeatureMeanStd where
  mean : Value
  stdDev : Value
deriving DecidableEq, Repr

/-- `(name, idx, data_type)` -/
structure FeatureColumn where
  name : String
  idx : ℕ
  dataType : DataType

def IsNumeric (dt : DataType) : Prop := dt = .int64 ∨ dt = .float64

instance (dt : DataType) : Decidable (IsNumeric dt) := inferInstanceAs (Decidable (_ ∨ _))

def featureColumn (schema : Schema) (name : String) : Option FeatureColumn := do
  let idx ← schema.indexOf name
  let field ← schema.fields[idx]?
  if IsNumeric field.dataType then some ⟨name, idx, field.dataType⟩ else none

/-- the number of a cell, in a column of its type -/
def numericCell : DataType → Value → Option Binary64
  | .int64, .int64 v => some (.ofInt v.toInt)
  | .float64, .float64 v => some v
  | _, _ => none

/-- one row, seen by the accumulator of every column -/
def observeRow (columns : List FeatureColumn) (row : Row) (w : List (Welford Binary64)) : List (Welford Binary64) :=
  columns.zipIdx.foldl (fun w p => match row[p.1.idx]?.bind (numericCell p.1.dataType) with
    | some x => w.modify p.2 (·.observe x)
    | none => w) w

def featureResult (kind : VarianceKind) (wf : Welford Binary64) : FeatureMeanStd :=
  let mean := wf.meanOf.elim .null .float64
  let stdDev := (wf.varianceOf kind).elim .null fun v => .float64 v.sqrt
  if wf.n = 0 then ⟨.null, .null⟩ else ⟨mean, stdDev⟩

def featureWiseMeanStd (ds : DataSet) (columns : List String) (stdKind : VarianceKind) :
    Option (List (String × FeatureMeanStd)) := do
  let metas ← columns.mapM (featureColumn ds.schema)
  let w := ds.rows.foldl (fun w row => observeRow metas row w) (metas.map fun _ => .default)
  some ((metas.zip w).map fun p => (p.1.name, featureResult stdKind p.2))

/-! ## Rows -/

def cmpNonNullValues (a b : Value) : Option Ordering :=
  match a, b with
  | .int64 x, .int64 y => some (compare x.toInt y.toInt)
  | .float64 x, .float64 y => some (x.totalCmp y)
  | .utf8 x, .utf8 y => some (compare x y)
  | .bool x, .bool y => some (compare x y)
  | _, _ => none

/-- the row loop of `arg_max_row` and `arg_min_row`, from row `r` on: a cell that compares to the best one as wanted
takes its place -/
def argLoop (wanted : Ordering) (idx : ℕ) : ℕ → Option (ℕ × Value) → List Row → Option (ℕ × Value)
  | _, best, [] => best
  | r, best, row :: rows =>
    match row[idx]? with
    | none => argLoop wanted idx (r + 1) best rows
    | some .null => argLoop wanted idx (r + 1) best rows
    | some cell =>
      argLoop wanted idx (r + 1) (match best with
        | none => some (r, cell)
        | some (_, bv) => if cmpNonNullValues cell bv = some wanted then some (r, cell) else best) rows

def argMaxRow (ds : DataSet) (column : String) : Option (Option (ℕ × Value)) :=
  (ds.schema.indexOf column).map fun idx => argLoop .gt idx 0 none ds.rows

def argMinRow (ds : DataSet) (column : String) : Option (Option (ℕ × Value)) :=
  (ds.schema.indexOf column).map fun idx => argLoop .lt idx 0 none ds.rows

/-! ## The accumulators -/

theorem foldl_observe_n {K : Type} [Zero K] [Add K] [Sub K] [Mul K] [Div K] [NatCast K] (xs : List K) (w : Welford K) :
    (xs.foldl Welford.observe w).n = w.n + xs.length := by
  induction xs generalizing w with
  | nil => rfl
  | cons x xs ih =>
    rw [List.foldl_cons, ih, Welford.observe, List.length_cons]
    dsimp only
    omega

theorem numericCell_eq {dt : DataType} (h : IsNumeric dt) : numericCell dt = floatCell (dt = .int64) := by
  funext v
  rcases h with rfl | rfl <;> cases v <;> rfl

/-- what a row does to the accumulator of one column -/
def observeCell (row : Row) (column : FeatureColumn) (w : Welford Binary64) : Welford Binary64 :=
  match row[column.idx]?.bind (numericCell column.dataType) with
  | some x => w.observe x
  | none => w

theorem modify_length_append {α : Type} (done : List α) (x : α) (rest : List α) (f : α → α) :
    (done ++ x :: rest).modify done.length f = done ++ f x :: rest := by
  induction done with
  | nil => rfl
  | cons y done ih => simp [ih]

/-- **Each accumulator** is updated by its own column -/
theorem observeRow_eq (row : Row) (columns : List FeatureColumn) (f : FeatureColumn → Welford Binary64) :
    observeRow columns row (columns.map f) = columns.map fun column => observeCell row column (f column) := by
  have hstep : ∀ (p : FeatureColumn × ℕ) (w : List (Welford Binary64)),
      (match row[p.1.idx]?.bind (numericCell p.1.dataType) with
        | some x => w.modify p.2 (·.observe x)
        | none => w) = w.modify p.2 (observeCell row p.1) := by
    intro p w
    unfold observeCell
    cases row[p.1.idx]?.bind (numericCell p.1.dataType) with
    | some x => rfl
    | none => exact (List.modify_id p.2 w).symm
  have hloop : ∀ (columns : List FeatureColumn) (done : List (Welford Binary64)),
      (columns.zipIdx done.length).foldl (fun w p => w.modify p.2 (observeCell row p.1)) (done ++ columns.map f) =
        done ++ columns.map fun column => observeCell row column (f column) := by
    intro columns
    induction columns with
    | nil => intro done; rfl
    | cons column columns ih =>
      intro done
      have hrest := ih (done ++ [observeCell row column (f column)])
      rw [List.length_append, List.length_singleton, List.append_assoc, List.append_assoc] at hrest
      rw [List.zipIdx_cons, List.foldl_cons, List.map_cons, List.map_cons, modify_length_append]
      exact hrest
  unfold observeRow
  simp only [hstep]
  exact hloop columns []

/-- the accumulators after all rows -/
theorem observeRows_eq (rows : List Row) (columns : List FeatureColumn) (f : FeatureColumn → Welford Binary64) :
    rows.foldl (fun w row => observeRow columns row w) (columns.map f) =
      columns.map fun column => (cells (numericCell column.dataType) column.idx rows).foldl Welford.observe (f column) := by
  induction rows generalizing f with
  | nil => rfl
  | cons row rows ih =>
    rw [List.foldl_cons, observeRow_eq, ih]
    refine List.map_congr_left fun column _ => ?_
    unfold cells observeCell
    rw [List.filterMap_cons]
    cases row[column.idx]?.bind (numericCell column.dataType) <;> rfl

/-! ## Agreement with the reductions of one column -/

/-- the pair of reductions of a column, by its accumulator -/
theorem floatStats_featureResult (ds : DataSet) (idx : ℕ) {dt : DataType} (hnum : dt = .int64 ∨ dt = .float64)
    (kind : VarianceKind) :
    let wf := (cells (floatCell (dt = .int64)) idx ds.rows).foldl Welford.observe .default
    reduceNumericFloatStats ds idx dt .mean = .ok (some (featureResult kind wf).mean) ∧
      reduceNumericFloatStats ds idx dt (.stdDev kind) = .ok (some (featureResult kind wf).stdDev) := by
  dsimp only
  simp only [reduceNumericFloatStats, if_pos hnum, loop_eq, featureResult]
  generalize cells (floatCell (dt = .int64)) idx ds.rows = xs
  have hn : (xs.foldl Welford.observe (.default : Welford Binary64)).n = xs.length := by
    rw [foldl_observe_n]
    exact Nat.zero_add _
  simp only [FloatStats.foldl_observe, FloatStats.start, hn, Welford.meanOf]
  rcases xs with - | ⟨x, xs⟩
  · exact ⟨rfl, rfl⟩
  · simp

theorem featureColumn_eq_some {schema : Schema} {name : String} {column : FeatureColumn}
    (h : featureColumn schema name = some column) : column.name = name ∧ schema.indexOf name = some column.idx ∧
      (∃ field, schema.fields[column.idx]? = some field ∧ field.dataType = column.dataType) ∧
      IsNumeric column.dataType := by
  obtain ⟨idx, hidx, h⟩ := Option.bind_eq_some_iff.1 h
  obtain ⟨field, hfield, h⟩ := Option.bind_eq_some_iff.1 h
  split_ifs at h with hnum
  obtain rfl := Option.some.inj h
  exact ⟨rfl, hidx, ⟨field, hfield, rfl⟩, hnum⟩

theorem featureColumn_eq_none {schema : Schema} {name : String} : featureColumn schema name = none ↔
    ∀ idx field, schema.indexOf name = some idx → schema.fields[idx]? = some field → ¬ IsNumeric field.dataType := by
  constructor
  · intro h idx field hidx hfield hnum
    simp [featureColumn, hidx, hfield, hnum] at h
  · intro h
    cases hcolumn : featureColumn schema name with
    | none => rfl
    | some column =>
      obtain ⟨-, hidx, ⟨field, hfield, hdt⟩, hnum⟩ := featureColumn_eq_some hcolumn
      exact absurd (hdt ▸ hnum) (h _ field hidx hfield)

/-- what the pass over several columns returns -/
structure FeaturesAgree (R : Runtime) (ds : DataSet) (columns : List String) (kind : VarianceKind) : Prop where
  none_iff : featureWiseMeanStd ds columns kind = none ↔ ∃ name ∈ columns, ∀ idx field,
    ds.schema.indexOf name = some idx → ds.schema.fields[idx]? = some field → ¬ IsNumeric field.dataType
  agrees : ∀ out, featureWiseMeanStd ds columns kind = some out →
    List.Forall₂ (fun name p => p.1 = name ∧ reduce R ds name .mean = .ok (some p.2.mean) ∧
      reduce R ds name (.stdDev kind) = .ok (some p.2.stdDev)) columns out

/-- **The pass over all columns** agrees with the reductions of each -/
theorem featureWiseMeanStd_agrees (R : Runtime) (ds : DataSet) (columns : List String) (kind : VarianceKind) :
    FeaturesAgree R ds columns kind := by
  have hpass : ∀ metas, columns.mapM (featureColumn ds.schema) = some metas → featureWiseMeanStd ds columns kind =
      some (metas.map fun column => (column.name, featureResult kind
        ((cells (numericCell column.dataType) column.idx ds.rows).foldl Welford.observe .default))) := by
    intro metas hmetas
    have hzip : ∀ f : FeatureColumn → Welford Binary64,
        metas.zip (metas.map f) = metas.map fun column => (column, f column) := by
      intro f
      calc metas.zip (metas.map f) = (metas.map id).zip (metas.map f) := by rw [List.map_id]
        _ = metas.map fun column => (column, f column) := List.zip_map'
    simp only [featureWiseMeanStd, hmetas, Option.bind_eq_bind, Option.bind_some, observeRows_eq, hzip, List.map_map]
    rfl
  refine ⟨?_, ?_⟩
  · simp only [← featureColumn_eq_none, ← Traverse.mapM_eq_none_iff]
    cases hmetas : columns.mapM (featureColumn ds.schema) with
    | none => simp [featureWiseMeanStd, hmetas]
    | some metas => simp [hpass metas hmetas]
  · intro out hout
    obtain ⟨metas, hmetas, -⟩ := Option.bind_eq_some_iff.1 hout
    obtain rfl := Option.some.inj ((hpass metas hmetas).symm.trans hout)
    rw [List.forall₂_map_right_iff]
    refine (Traverse.mapM_eq_some_iff.1 hmetas).imp fun name column hcolumn => ?_
    obtain ⟨hname, hidx, ⟨field, hfield, hdt⟩, hnum⟩ := featureColumn_eq_some hcolumn
    have hpair := floatStats_featureResult ds column.idx hnum kind
    rw [← numericCell_eq hnum] at hpair
    refine ⟨hname, ?_, ?_⟩
    · simp only [reduce, hidx, hfield, hdt]
      exact hpair.1
    · simp only [reduce, hidx, hfield, hdt]
      exact hpair.2

/-! ## The first extremum -/

section

open Ingestion (WatermarkKey cellKey cellKey_isSome cellKey_null rowKey)

/-- the cells of the column are null or of its type; a row may be too short for it -/
def ColumnTyped (idx : ℕ) (dt : DataType) (rows : List Row) : Prop :=
  ∀ row ∈ rows, ∀ v, row[idx]? = some v → v.fits dt

instance (idx : ℕ) (dt : DataType) (rows : List Row) : Decidable (ColumnTyped idx dt rows) :=
  decidable_of_iff (∀ row ∈ rows, ∀ v ∈ row[idx]?, v.fits dt) Iff.rfl

def nonNull (v : Value) : Option Value := if v = .null then none else some v

/-- the cells of the column that are no nulls -/
def nonNullCells (idx : ℕ) (rows : List Row) : List Value := cells nonNull idx rows

theorem ne_null_of_mem {idx : ℕ} {rows : List Row} {v : Value} (h : v ∈ nonNullCells idx rows) : v ≠ .null := by
  obtain ⟨row, -, w, -, hw⟩ := mem_cells.1 h
  unfold nonNull at hw
  split_ifs at hw with hnull
  exact Option.some.inj hw ▸ hnull

variable {wanted : Ordering} {idx : ℕ} {dt : DataType}

theorem cmpNonNullValues_key {a b : Value} {j k : WatermarkKey dt} (ha : cellKey dt a = some j)
    (hb : cellKey dt b = some k) : cmpNonNullValues a b = some (compare j k) := by
  cases dt <;> cases a <;> cases ha <;> cases b <;> cases hb <;> rfl

/-- the row's cell has a key, or the row takes no part -/
theorem rowKey_cases {row : Row} (h : ∀ v, row[idx]? = some v → v.fits dt) :
    (rowKey idx dt row = none ∧ (row[idx]? = none ∨ row[idx]? = some .null)) ∨
    ∃ cell k, row[idx]? = some cell ∧ cell ≠ .null ∧ cellKey dt cell = some k ∧ rowKey idx dt row = some k := by
  unfold rowKey
  cases hcell : row[idx]? with
  | none => exact Or.inl ⟨rfl, Or.inl rfl⟩
  | some cell =>
    by_cases hnull : cell = .null
    · exact Or.inl ⟨by rw [hnull]; exact cellKey_null dt, Or.inr (by rw [hnull])⟩
    · have htype := (h cell hcell).resolve_left hnull
      obtain ⟨k, hk⟩ := Option.isSome_iff_exists.1 ((cellKey_isSome dt cell).trans htype)
      exact Or.inr ⟨cell, k, rfl, hnull, hk, hk⟩

/-- the first row whose cell no other one compares to as wanted; none when there is no cell -/
def FirstBest (wanted : Ordering) (idx : ℕ) (dt : DataType) (rows : List Row) : Option (ℕ × Value) → Prop
  | none => ∀ row ∈ rows, rowKey idx dt row = none
  | some (r, cell) => ∃ row k, rows[r]? = some row ∧ row[idx]? = some cell ∧ cellKey dt cell = some k ∧
      ∀ r' row' k', rows[r']? = some row' → rowKey idx dt row' = some k' →
        compare k' k ≠ wanted ∧ (k' = k → r ≤ r')

/-- one row of the loop -/
def argNext (wanted : Ordering) (r : ℕ) (best : Option (ℕ × Value)) (cell : Value) : Option (ℕ × Value) :=
  match best with
  | none => some (r, cell)
  | some (_, bv) => if cmpNonNullValues cell bv = some wanted then some (r, cell) else best

theorem argLoop_skip {row : Row} (h : row[idx]? = none ∨ row[idx]? = some .null) (r : ℕ) (best : Option (ℕ × Value))
    (rows : List Row) : argLoop wanted idx r best (row :: rows) = argLoop wanted idx (r + 1) best rows := by
  rcases h with h | h <;> simp [argLoop, h]

theorem argLoop_cell {row : Row} {cell : Value} (h : row[idx]? = some cell) (hne : cell ≠ .null) (r : ℕ)
    (best : Option (ℕ × Value)) (rows : List Row) :
    argLoop wanted idx r best (row :: rows) = argLoop wanted idx (r + 1) (argNext wanted r best cell) rows := by
  cases cell with
  | null => exact absurd rfl hne
  | _ => simp only [argLoop, h, argNext]

/-- a row of the list with one more row at its end -/
theorem getElem?_concat_cases {rows : List Row} {row row' : Row} {r : ℕ} (h : (rows ++ [row])[r]? = some row') :
    rows[r]? = some row' ∧ r < rows.length ∨ row' = row ∧ r = rows.length := by
  obtain ⟨hr, rfl⟩ := List.getElem?_eq_some_iff.1 h
  rw [List.length_append, List.length_singleton] at hr
  rcases Nat.lt_succ_iff_lt_or_eq.1 hr with hlt | rfl
  · exact Or.inl ⟨by rw [← h, List.getElem?_append_left hlt], hlt⟩
  · exact Or.inr ⟨by simp, rfl⟩

theorem FirstBest.skip {rows : List Row} {best : Option (ℕ × Value)} (h : FirstBest wanted idx dt rows best) {row : Row}
    (hrow : rowKey idx dt row = none) : FirstBest wanted idx dt (rows ++ [row]) best := by
  rcases best with - | ⟨r, cell⟩
  · intro row' hrow'
    rcases List.mem_append.1 hrow' with hmem | hmem
    · exact h row' hmem
    · rw [List.mem_singleton.1 hmem, hrow]
  · obtain ⟨at_r, k, hat, hcell, hk, hothers⟩ := h
    refine ⟨at_r, k, ?_, hcell, hk, ?_⟩
    · rw [List.getElem?_append_left (List.getElem?_eq_some_iff.1 hat).1, hat]
    · intro r' row' k' hrow' hk'
      rcases getElem?_concat_cases hrow' with ⟨hbefore, -⟩ | ⟨rfl, -⟩
      · exact hothers r' row' k' hbefore hk'
      · rw [hrow] at hk'
        cases hk'

/-- a cell that no other one beats is not beaten by what beats another one -/
theorem compare_ne_trans {K : Type} [LinearOrder K] {wanted : Ordering} (hwanted : wanted = .gt ∨ wanted = .lt) {a b c : K}
    (hab : compare a b ≠ wanted) (hcb : compare c b = wanted) : compare a c ≠ wanted := by
  rcases hwanted with rfl | rfl
  · rw [compare_gt_iff_gt] at hcb
    rw [ne_eq, compare_gt_iff_gt, not_lt] at hab ⊢
    exact hab.trans hcb.le
  · rw [compare_lt_iff_lt] at hcb
    rw [ne_eq, compare_lt_iff_lt, not_lt] at hab ⊢
    exact hcb.le.trans hab

/-- **One row** keeps the first best one -/
theorem FirstBest.next (hwanted : wanted = .gt ∨ wanted = .lt) {rows : List Row} {best : Option (ℕ × Value)}
    (h : FirstBest wanted idx dt rows best) {row : Row} {cell : Value} {k : WatermarkKey dt} (hcell : row[idx]? = some cell)
    (hk : cellKey dt cell = some k) :
    FirstBest wanted idx dt (rows ++ [row]) (argNext wanted rows.length best cell) := by
  have hself : compare k k ≠ wanted := by
    rcases hwanted with rfl | rfl <;> simp
  have hrow : rowKey idx dt row = some k := by simp [rowKey, hcell, hk]
  have hlast : (rows ++ [row])[rows.length]? = some row := by simp
  rcases best with - | ⟨r, bv⟩
  · refine ⟨row, k, hlast, hcell, hk, ?_⟩
    intro r' row' k' hrow' hk'
    rcases getElem?_concat_cases hrow' with ⟨hbefore, -⟩ | ⟨rfl, rfl⟩
    · rw [h row' (List.mem_of_getElem? hbefore)] at hk'
      cases hk'
    · rw [hrow] at hk'
      obtain rfl := Option.some.inj hk'
      exact ⟨hself, fun _ => le_rfl⟩
  · obtain ⟨at_r, k₀, hat, hbv, hk₀, hothers⟩ := h
    have hr := (List.getElem?_eq_some_iff.1 hat).1
    simp only [argNext, cmpNonNullValues_key hk hk₀, Option.some.injEq]
    split_ifs with hbeats
    · refine ⟨row, k, hlast, hcell, hk, ?_⟩
      intro r' row' k' hrow' hk'
      rcases getElem?_concat_cases hrow' with ⟨hbefore, -⟩ | ⟨rfl, rfl⟩
      · have hno := (hothers r' row' k' hbefore hk').1
        refine ⟨compare_ne_trans hwanted hno hbeats, fun heq => ?_⟩
        rw [heq] at hno
        exact absurd hbeats hno
      · rw [hrow] at hk'
        obtain rfl := Option.some.inj hk'
        exact ⟨hself, fun _ => le_rfl⟩
    · refine ⟨at_r, k₀, ?_, hbv, hk₀, ?_⟩
      · rw [List.getElem?_append_left hr, hat]
      · intro r' row' k' hrow' hk'
        rcases getElem?_concat_cases hrow' with ⟨hbefore, -⟩ | ⟨rfl, rfl⟩
        · exact hothers r' row' k' hbefore hk'
        · rw [hrow] at hk'
          obtain rfl := Option.some.inj hk'
          exact ⟨hbeats, fun _ => hr.le⟩

/-- **The loop** ends with the first best row -/
theorem argLoop_spec (hwanted : wanted = .gt ∨ wanted = .lt) {rows : List Row} (done : List Row)
    (htyped : ColumnTyped idx dt rows) {best : Option (ℕ × Value)} (h : FirstBest wanted idx dt done best) :
    FirstBest wanted idx dt (done ++ rows) (argLoop wanted idx done.length best rows) := by
  induction rows generalizing done best with
  | nil => simpa [argLoop] using h
  | cons row rows ih =>
    have hrest : ColumnTyped idx dt rows := fun r hr => htyped r (List.mem_cons_of_mem _ hr)
    have happend : done ++ row :: rows = (done ++ [row]) ++ rows := by simp
    have hlength : (done ++ [row]).length = done.length + 1 := by simp
    rw [happend]
    rcases rowKey_cases (htyped row List.mem_cons_self) with ⟨hnone, hskip⟩ | ⟨cell, k, hcell, hne, hk, -⟩
    · rw [argLoop_skip hskip, ← hlength]
      exact ih (done ++ [row]) hrest (h.skip hnone)
    · rw [argLoop_cell hcell hne, ← hlength]
      exact ih (done ++ [row]) hrest (h.next hwanted hcell hk)

/-- the row `r` is the first one with the greatest cell, `cell` -/
def FirstGreatest (idx : ℕ) (dt : DataType) (rows : List Row) (r : ℕ) (cell : Value) : Prop :=
  ∃ row k, rows[r]? = some row ∧ row[idx]? = some cell ∧ cellKey dt cell = some k ∧
    ∀ r' row' k', rows[r']? = some row' → rowKey idx dt row' = some k' → k' ≤ k ∧ (k' = k → r ≤ r')

/-- the row `r` is the first one with the least cell, `cell` -/
def FirstLeast (idx : ℕ) (dt : DataType) (rows : List Row) (r : ℕ) (cell : Value) : Prop :=
  ∃ row k, rows[r]? = some row ∧ row[idx]? = some cell ∧ cellKey dt cell = some k ∧
    ∀ r' row' k', rows[r']? = some row' → rowKey idx dt row' = some k' → k ≤ k' ∧ (k' = k → r ≤ r')

theorem firstBest_gt {rows : List Row} {r : ℕ} {cell : Value} :
    FirstBest .gt idx dt rows (some (r, cell)) ↔ FirstGreatest idx dt rows r cell := by
  simp only [FirstBest, FirstGreatest, ne_eq, compare_gt_iff_gt, not_lt]

theorem firstBest_lt {rows : List Row} {r : ℕ} {cell : Value} :
    FirstBest .lt idx dt rows (some (r, cell)) ↔ FirstLeast idx dt rows r cell := by
  simp only [FirstBest, FirstLeast, ne_eq, compare_lt_iff_lt, not_lt]

/-- there is only one first best row -/
theorem FirstBest.unique (hwanted : wanted = .gt ∨ wanted = .lt) {rows : List Row} {a b : Option (ℕ × Value)}
    (ha : FirstBest wanted idx dt rows a) (hb : FirstBest wanted idx dt rows b) : a = b := by
  have hkey : ∀ {row : Row} {cell : Value} {k : WatermarkKey dt}, row[idx]? = some cell → cellKey dt cell = some k →
      rowKey idx dt row = some k := by
    intro row cell k hcell hk
    simp [rowKey, hcell, hk]
  rcases a with - | ⟨r, cell⟩ <;> rcases b with - | ⟨r', cell'⟩
  · rfl
  · obtain ⟨row, k, hat, hcell, hk, -⟩ := hb
    have hnone := ha row (List.mem_of_getElem? hat)
    rw [hkey hcell hk] at hnone
    cases hnone
  · obtain ⟨row, k, hat, hcell, hk, -⟩ := ha
    have hnone := hb row (List.mem_of_getElem? hat)
    rw [hkey hcell hk] at hnone
    cases hnone
  · obtain ⟨row, k, hat, hcell, hk, hothers⟩ := ha
    obtain ⟨row', k', hat', hcell', hk', hothers'⟩ := hb
    obtain ⟨hne, hfirst⟩ := hothers r' row' k' hat' (hkey hcell' hk')
    obtain ⟨hne', hfirst'⟩ := hothers' r row k hat (hkey hcell hk)
    have heq : k' = k := by
      rcases hwanted with rfl | rfl
      · rw [ne_eq, compare_gt_iff_gt, not_lt] at hne hne'
        exact le_antisymm hne hne'
      · rw [ne_eq, compare_lt_iff_lt, not_lt] at hne hne'
        exact le_antisymm hne' hne
    obtain rfl : r = r' := le_antisymm (hfirst heq) (hfirst' heq.symm)
    rw [hat] at hat'
    obtain rfl := Option.some.inj hat'
    rw [hcell] at hcell'
    rw [Option.some.inj hcell']

theorem rowKeys_eq_none {rows : List Row} (htyped : ColumnTyped idx dt rows) :
    (∀ row ∈ rows, rowKey idx dt row = none) ↔ ∀ row ∈ rows, ∀ v, row[idx]? = some v → v = .null := by
  refine forall₂_congr fun row hrow => ?_
  rcases rowKey_cases (htyped row hrow) with ⟨hnone, hskip | hskip⟩ | ⟨cell, k, hcell, hne, -, hk⟩
  · simp [hnone, hskip]
  · simp [hnone, hskip]
  · simp [hk, hcell, hne]

/-- what the loop returns, of its two results -/
theorem argLoop_iff (hwanted : wanted = .gt ∨ wanted = .lt) {rows : List Row} (htyped : ColumnTyped idx dt rows)
    (best : Option (ℕ × Value)) :
    argLoop wanted idx 0 none rows = best ↔ FirstBest wanted idx dt rows best := by
  have hspec : FirstBest wanted idx dt rows (argLoop wanted idx 0 none rows) :=
    @argLoop_spec wanted idx dt hwanted rows [] htyped none (by simp [FirstBest])
  exact ⟨fun h => h ▸ hspec, fun h => hspec.unique hwanted h⟩

theorem mem_int64Cells {rows : List Row} {v : Int64} :
    v ∈ cells int64Cell idx rows ↔ ∃ row ∈ rows, row[idx]? = some (.int64 v) :=
  mem_cells_of_cell fun w n => by rcases w <;> simp [int64Cell]

theorem extremeKey_injective {op : ReduceOp} {x y : Int64} (h : extremeKey op x.toInt = extremeKey op y.toInt) : x = y := by
  refine Int64.toInt_inj.1 ?_
  unfold extremeKey at h
  split_ifs at h <;> omega

/-- the cell of the first best row is the best integer -/
theorem FirstBest.best_int64 {op : ReduceOp} (hop : wanted = .gt ∧ op = .max ∨ wanted = .lt ∧ op = .min) {rows : List Row}
    {r : ℕ} {v : Int64} (h : FirstBest wanted idx .int64 rows (some (r, .int64 v))) :
    Reduction.Best (fun v => extremeKey op v.toInt) (cells int64Cell idx rows) (some v) := by
  obtain ⟨row, k, hat, hcell, hk, hothers⟩ := h
  obtain rfl := Option.some.inj hk
  refine ⟨mem_int64Cells.2 ⟨row, List.mem_of_getElem? hat, hcell⟩, fun w hw => ?_⟩
  obtain ⟨row', hrow', hcell'⟩ := mem_int64Cells.1 hw
  obtain ⟨r', hr'⟩ := List.getElem?_of_mem hrow'
  have hno := (hothers r' row' w.toInt hr' (by simp [rowKey, hcell', cellKey])).1
  rcases hop with ⟨rfl, rfl⟩ | ⟨rfl, rfl⟩
  · have hle : w.toInt ≤ v.toInt := not_lt.1 fun hlt => hno (compare_gt_iff_gt.2 hlt)
    simpa [extremeKey] using hle
  · have hle : v.toInt ≤ w.toInt := not_lt.1 fun hlt => hno (compare_lt_iff_lt.2 hlt)
    simpa [extremeKey] using hle

/-- without a best row there is no integer -/
theorem FirstBest.no_int64 {rows : List Row} (h : FirstBest wanted idx .int64 rows none) :
    cells int64Cell idx rows = [] := by
  rw [List.eq_nil_iff_forall_not_mem]
  intro v hv
  obtain ⟨row, hrow, hcell⟩ := mem_int64Cells.1 hv
  have hnone := h row hrow
  simp [rowKey, hcell, cellKey] at hnone

/-- the loop over integers ends with the cell that the reduction returns -/
theorem argLoop_best_int64 {wanted : Ordering} {op : ReduceOp} (hop : wanted = .gt ∧ op = .max ∨ wanted = .lt ∧ op = .min)
    (R : Runtime) {ds : DataSet} (htyped : ColumnTyped idx .int64 ds.rows) :
    reduceNumericTyped R ds idx .int64 op =
      .ok (some ((argLoop wanted idx 0 none ds.rows).elim .null Prod.snd)) := by
  have hminmax : op = .min ∨ op = .max := hop.elim (fun h => Or.inr h.2) fun h => Or.inl h.2
  have hwanted : wanted = .gt ∨ wanted = .lt := hop.imp And.left And.left
  obtain ⟨o, ho, hreduce⟩ := reduceNumericTyped_best_int64 R ds idx hminmax
  have hbest := (argLoop_iff hwanted htyped _).1 rfl
  rw [hreduce]
  generalize argLoop wanted idx 0 none ds.rows = best at hbest
  rcases best with - | ⟨r, cell⟩
  · rw [hbest.no_int64] at ho
    rcases o with - | m
    · rfl
    · exact absurd ho.1 (by simp)
  · cases cell with
    | int64 v =>
      rw [ho.unique (fun x _ y _ => extremeKey_injective) (hbest.best_int64 hop)]
      rfl
    | _ =>
      obtain ⟨row, k, -, -, hk, -⟩ := hbest
      cases hk

/-- what `arg_max_row` and `arg_min_row` return of a column -/
structure ArgRows (R : Runtime) (ds : DataSet) (column : String) (idx : ℕ) (dt : DataType) : Prop where
  max_some : ∀ r cell, argMaxRow ds column = some (some (r, cell)) ↔ FirstGreatest idx dt ds.rows r cell
  max_none : argMaxRow ds column = some none ↔ ∀ row ∈ ds.rows, ∀ v, row[idx]? = some v → v = .null
  min_some : ∀ r cell, argMinRow ds column = some (some (r, cell)) ↔ FirstLeast idx dt ds.rows r cell
  min_none : argMinRow ds column = some none ↔ ∀ row ∈ ds.rows, ∀ v, row[idx]? = some v → v = .null
  max_int64 : dt = .int64 → ∀ best, argMaxRow ds column = some best →
    reduce R ds column .max = .ok (some (best.elim .null Prod.snd))
  min_int64 : dt = .int64 → ∀ best, argMinRow ds column = some best →
    reduce R ds column .min = .ok (some (best.elim .null Prod.snd))

/-- **The first extremum**: `arg_max_row` and `arg_min_row` of a well-typed column -/
theorem argRow_first_extremum (R : Runtime) {ds : DataSet} {column : String} {idx : ℕ} {field : Field}
    (hidx : ds.schema.indexOf column = some idx) (hfield : ds.schema.fields[idx]? = some field)
    (htyped : ColumnTyped idx field.dataType ds.rows) : ArgRows R ds column idx field.dataType := by
  have hmax : ∀ best, argMaxRow ds column = some best ↔ FirstBest .gt idx field.dataType ds.rows best := by
    intro best
    rw [← argLoop_iff (Or.inl rfl) htyped, argMaxRow, hidx, Option.map_some, Option.some.injEq]
  have hmin : ∀ best, argMinRow ds column = some best ↔ FirstBest .lt idx field.dataType ds.rows best := by
    intro best
    rw [← argLoop_iff (Or.inr rfl) htyped, argMinRow, hidx, Option.map_some, Option.some.injEq]
  have hnone : ∀ wanted, FirstBest wanted idx field.dataType ds.rows none ↔
      ∀ row ∈ ds.rows, ∀ v, row[idx]? = some v → v = .null := fun _ => rowKeys_eq_none htyped
  refine ⟨fun r cell => (hmax _).trans firstBest_gt, (hmax _).trans (hnone _), fun r cell => (hmin _).trans firstBest_lt,
    (hmin _).trans (hnone _), ?_, ?_⟩
  · intro hint best hbest
    have hloop := (argLoop_iff (Or.inl rfl) htyped best).2 ((hmax best).1 hbest)
    rw [hint] at htyped
    rw [reduce_typed R hidx hfield (Or.inr (Or.inr rfl)), hint, argLoop_best_int64 (Or.inl ⟨rfl, rfl⟩) R htyped, hloop]
  · intro hint best hbest
    have hloop := (argLoop_iff (Or.inr rfl) htyped best).2 ((hmin best).1 hbest)
    rw [hint] at htyped
    rw [reduce_typed R hidx hfield (Or.inr (Or.inl rfl)), hint, argLoop_best_int64 (Or.inr ⟨rfl, rfl⟩) R htyped, hloop]

/-- a column of texts with a null, a short row and a tie -/
theorem tie_first_extremum :
    ArgRows wrappingBuild ⟨⟨[⟨"name", .utf8⟩]⟩, [[.null], [.utf8 "b"], [], [.utf8 "b"], [.utf8 "a"]]⟩ "name" 0 .utf8 :=
  @argRow_first_extremum wrappingBuild _ "name" 0 ⟨"name", .utf8⟩ rfl rfl (by decide)

end

end RustDataProcessing.Processing
