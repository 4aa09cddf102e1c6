/-
Reductions of one column, in memory (`src/processing/reduce.rs`).

Every reduction is one loop over the rows. A cell takes part if it has the column's type (`cells`), so that nulls, short
rows and values of another type are passed over. `Welford` is generic in the numbers it runs over.

- `reduceNumericTyped_sum`, `reduceNumericTyped_best_int64`: what the loops of Sum, Min and Max end with;
- `sumSquares_addedUp`: the sum of squares is one way of adding up the squares;
- `reduce_null`: a numeric reduction of a column without numbers is a null, never a zero.

`Runtime` has what the source leaves to the build and to the standard library.
-/
import Mathlib.Tactic
import RustDataProcessing.Lib.Arithmetic64
import RustDataProcessing.Error

namespace RustDataProcessing.Processing

open Reduction

inductive VarianceKind where
  | population
  | sample
deriving DecidableEq, Repr

inductive ReduceOp where
  | count
  | sum
  | min
  | max
  | mean
  | variance (kind : VarianceKind)
  | stdDev (kind : VarianceKind)
  | sumSquares
  | l2Norm
  | countDistinctNonNull
  | median
deriving DecidableEq, Repr

structure Runtime where
  /-- whether an integer addition that overflows panics, or wraps -/
  overflowChecks : Bool
  /-- `sort_by`, which may panic when the comparison is not a total order -/
  sortBy : (Binary64 → Binary64 → Ordering) → List Binary64 → Option (List Binary64)

/-- a build without overflow checks -/
def wrappingBuild : Runtime := ⟨false, fun compare xs => some (xs.mergeSort fun a b => compare a b ≠ .gt)⟩

/-! ## Cells -/

def int64Cell : Value → Option Int64
  | .int64 v => some v
  | _ => none

def float64Cell : Value → Option Binary64
  | .float64 v => some v
  | _ => none

def boolCell : Value → Option Bool
  | .bool v => some v
  | _ => none

def utf8Cell : Value → Option String
  | .utf8 v => some v
  | _ => none

/-- the number of a cell as a float, in a column of integers or of floats -/
def floatCell (isInt : Bool) : Value → Option Binary64
  | .int64 v => if isInt then some (.ofInt v.toInt) else none
  | .float64 v => if isInt then none else some v
  | _ => none

section Loops

variable {α β : Type}

/-- the cells that take part -/
def cells (read : Value → Option α) (idx : ℕ) (rows : List Row) : List α :=
  rows.filterMap fun row => row[idx]?.bind read

theorem mem_cells {read : Value → Option α} {idx : ℕ} {rows : List Row} {x : α} :
    x ∈ cells read idx rows ↔ ∃ row ∈ rows, ∃ v, row[idx]? = some v ∧ read v = some x := by
  simp only [cells, List.mem_filterMap, Option.bind_eq_some_iff]

/-- the members, for a type with one cell for each member -/
theorem mem_cells_of_cell {read : Value → Option α} {cell : α → Value} (h : ∀ v x, read v = some x ↔ v = cell x) {idx : ℕ}
    {rows : List Row} {x : α} : x ∈ cells read idx rows ↔ ∃ row ∈ rows, row[idx]? = some (cell x) := by
  simp only [mem_cells, h, exists_eq_right]

/-- a row loop that may panic -/
def tryLoop (read : Value → Option α) (next : β → α → IngestionResult β) (idx : ℕ) : β → List Row → IngestionResult β
  | acc, [] => .ok acc
  | acc, row :: rows => match row[idx]?.bind read with
    | none => tryLoop read next idx acc rows
    | some v => do
      let acc ← next acc v
      tryLoop read next idx acc rows

def loop (read : Value → Option α) (next : β → α → β) (idx : ℕ) (acc : β) (rows : List Row) : β :=
  rows.foldl (fun acc row => match row[idx]?.bind read with
    | some v => next acc v
    | none => acc) acc

theorem loop_eq (read : Value → Option α) (next : β → α → β) (idx : ℕ) (acc : β) (rows : List Row) :
    loop read next idx acc rows = (cells read idx rows).foldl next acc := by
  unfold loop cells
  rw [List.foldl_filterMap]
  rfl

/-- the same loop over the cells -/
theorem tryLoop_eq (read : Value → Option α) (next : β → α → IngestionResult β) (idx : ℕ) (acc : β) (rows : List Row) :
    tryLoop read next idx acc rows = (cells read idx rows).foldlM next acc := by
  induction rows generalizing acc with
  | nil => rfl
  | cons row rows ih =>
    unfold tryLoop cells
    rw [List.filterMap_cons]
    rcases row[idx]?.bind read with - | v
    · exact ih acc
    · rw [List.foldlM_cons]
      exact congrArg _ (funext ih)

end Loops

/-! ## Sum, Min and Max -/

/-- `a + v` on `i64` -/
def Runtime.addI64 (R : Runtime) (a v : Int64) : IngestionResult Int64 :=
  if R.overflowChecks && (Polars.TextRules.int64OfInt (a.toInt + v.toInt)).isNone then .error .panic else .ok (a + v)

def minI64 (a v : Int64) : Int64 := if v.toInt < a.toInt then v else a

def maxI64 (a v : Int64) : Int64 := if a.toInt < v.toInt then v else a

/-- the `(op, acc)` match -/
def combine {α : Type} (add : α → α → IngestionResult α) (min max : α → α → α) (op : ReduceOp) (acc : Option α) (v : α) :
    IngestionResult (Option α) :=
  match op, acc with
  | .sum, some a => (add a v).map some
  | .sum, none => .ok (some v)
  | .min, some a => .ok (some (min a v))
  | .min, none => .ok (some v)
  | .max, some a => .ok (some (max a v))
  | .max, none => .ok (some v)
  | _, _ => .error .panic

def reduceNumericTyped (R : Runtime) (ds : DataSet) (idx : ℕ) (dataType : DataType) (op : ReduceOp) :
    IngestionResult (Option Value) :=
  match dataType with
  | .int64 => do
    let acc ← tryLoop int64Cell (combine R.addI64 minI64 maxI64 op) idx none ds.rows
    pure (some (acc.elim .null .int64))
  | .float64 => do
    let acc ← tryLoop float64Cell (combine (fun a v => .ok (a + v)) Binary64.min Binary64.max op) idx none ds.rows
    pure (some (acc.elim .null .float64))
  | _ => .ok (some .null)

/-! ## Statistics -/

structure Welford (K : Type) where
  n : ℕ
  mean : K
  m2 : K
deriving DecidableEq, Repr

namespace Welford

variable {K : Type} [Zero K] [Add K] [Sub K] [Mul K] [Div K] [NatCast K]

def default : Welford K := ⟨0, 0, 0⟩

def observe (w : Welford K) (x : K) : Welford K :=
  let n := w.n + 1
  let delta := x - w.mean
  let mean := w.mean + delta / (n : K)
  let delta2 := x - mean
  ⟨n, mean, w.m2 + delta * delta2⟩

def meanOf (w : Welford K) : Option K := if 0 < w.n then some w.mean else none

def varianceOf (w : Welford K) (kind : VarianceKind) : Option K :=
  if w.n = 0 then none
  else match kind with
    | .population => some (w.m2 / (w.n : K))
    | .sample => if w.n < 2 then none else some (w.m2 / ((w.n - 1 : ℕ) : K))

end Welford

/-- `w`, `sum_squares` and `any` -/
structure FloatStats (K : Type) where
  w : Welford K
  sumSquares : K
  any : Bool

namespace FloatStats

variable {K : Type} [Zero K] [Add K] [Sub K] [Mul K] [Div K] [NatCast K]

def start : FloatStats K := ⟨.default, 0, false⟩

def observe (s : FloatStats K) (x : K) : FloatStats K := ⟨s.w.observe x, s.sumSquares + x * x, true⟩

end FloatStats

def reduceNumericFloatStats (ds : DataSet) (idx : ℕ) (dataType : DataType) (op : ReduceOp) :
    IngestionResult (Option Value) :=
  if dataType = .int64 ∨ dataType = .float64 then
    let isInt := dataType = .int64
    let s := loop (floatCell isInt) FloatStats.observe idx .start ds.rows
    if !s.any then .ok (some .null)
    else match op with
      | .mean => match s.w.meanOf with
        | some v => .ok (some (.float64 v))
        | none => .error .panic
      | .variance kind => .ok (some ((s.w.varianceOf kind).elim .null .float64))
      | .stdDev kind => .ok (some ((s.w.varianceOf kind).elim .null fun v => .float64 v.sqrt))
      | .sumSquares => .ok (some (.float64 s.sumSquares))
      | .l2Norm => .ok (some (.float64 s.sumSquares.sqrt))
      | _ => .error .panic
  else .ok (some .null)

def reduceMedian (R : Runtime) (ds : DataSet) (idx : ℕ) : IngestionResult (Option Value) :=
  match ds.schema.fields[idx]? with
  | none => .ok none
  | some field =>
    if field.dataType = .int64 ∨ field.dataType = .float64 then
      let isInt := field.dataType = .int64
      let xs := loop (floatCell isInt) (fun xs x => xs ++ [x]) idx [] ds.rows
      if xs.isEmpty then .ok (some .null)
      else match R.sortBy (fun a b => (a.partialCmp b).getD .eq) xs with
        | none => .error .panic
        | some xs => do
          let n := xs.length
          let med ← if n % 2 = 1 then index xs (n / 2) else do
            let a ← index xs (n / 2 - 1)
            let b ← index xs (n / 2)
            pure ((a + b) / .ofInt 2)
          pure (some (.float64 med))
    else .ok (some .null)

/-! ## Distinct values -/

/-- the hash set of the cells -/
def distinct {α : Type} [DecidableEq α] (read : Value → Option α) (idx : ℕ) (rows : List Row) : Finset α :=
  loop read (fun set v => insert v set) idx ∅ rows

def reduceCountDistinctNonNull (ds : DataSet) (idx : ℕ) (dataType : DataType) : IngestionResult (Option Value) :=
  let n := match dataType with
    | .int64 => (distinct int64Cell idx ds.rows).card
    | .float64 => (distinct (fun v => (float64Cell v).map Binary64.bits) idx ds.rows).card
    | .bool => (distinct boolCell idx ds.rows).card
    | .utf8 => (distinct utf8Cell idx ds.rows).card
  .ok (some (.int64 (Int64.ofNat n)))

/-! ## The entry point -/

def reduce (R : Runtime) (ds : DataSet) (column : String) (op : ReduceOp) : IngestionResult (Option Value) :=
  match ds.schema.indexOf column with
  | none => .ok none
  | some idx => match op with
    | .count => .ok (some (.int64 (Int64.ofNat ds.rowCount)))
    | .countDistinctNonNull => match ds.schema.fields[idx]? with
      | some field => reduceCountDistinctNonNull ds idx field.dataType
      | none => .ok none
    | .sum | .min | .max => match ds.schema.fields[idx]? with
      | some field => reduceNumericTyped R ds idx field.dataType op
      | none => .ok none
    | .mean | .variance _ | .stdDev _ | .sumSquares | .l2Norm => match ds.schema.fields[idx]? with
      | some field => reduceNumericFloatStats ds idx field.dataType op
      | none => .ok none
    | .median => reduceMedian R ds idx

theorem reduce_typed (R : Runtime) {ds : DataSet} {column : String} {idx : ℕ} {field : Field}
    (hidx : ds.schema.indexOf column = some idx) (hfield : ds.schema.fields[idx]? = some field) {op : ReduceOp}
    (hop : op = .sum ∨ op = .min ∨ op = .max) :
    reduce R ds column op = reduceNumericTyped R ds idx field.dataType op := by
  rcases hop with rfl | rfl | rfl <;> simp only [reduce, hidx, hfield]

/-! ## What the loops end with -/

/-- no partial sum overflows -/
def PartialSumsFit (xs : List Int64) : Prop :=
  ∀ p, p <+: xs → RustStd.i64Min ≤ (p.map Int64.toInt).sum ∧ (p.map Int64.toInt).sum ≤ RustStd.i64Max

theorem int64OfInt_of_fits {n : ℤ} (h : RustStd.i64Min ≤ n ∧ n ≤ RustStd.i64Max) :
    Polars.TextRules.int64OfInt n = some (.ofInt n) := if_pos h

theorem toInt_ofInt_of_fits {n : ℤ} (h : RustStd.i64Min ≤ n ∧ n ≤ RustStd.i64Max) : (Int64.ofInt n).toInt = n :=
  Polars.TextRules.int64OfInt_toInt (int64OfInt_of_fits h)

theorem addI64_ok (R : Runtime) {a v : Int64} (h : RustStd.i64Min ≤ a.toInt + v.toInt ∧ a.toInt + v.toInt ≤ RustStd.i64Max) :
    R.addI64 a v = .ok (.ofInt (a.toInt + v.toInt)) := by
  have hadd : a + v = .ofInt (a.toInt + v.toInt) := by
    rw [Int64.ofInt_add, Int64.ofInt_toInt, Int64.ofInt_toInt]
  rw [Runtime.addI64, int64OfInt_of_fits h, hadd, Option.isNone_some, Bool.and_false, if_neg Bool.false_ne_true]

/-- the checked loop, from the sum of the cells before -/
theorem sumLoop_ok (R : Runtime) {xs : List Int64} (done : List Int64) {a : Int64} (hfit : PartialSumsFit (done ++ xs))
    (ha : a.toInt = (done.map Int64.toInt).sum) :
    xs.foldlM (combine R.addI64 minI64 maxI64 .sum) (some a) =
      .ok (some (.ofInt ((done ++ xs).map Int64.toInt).sum)) := by
  induction xs generalizing done a with
  | nil =>
    rw [List.append_nil, ← ha, Int64.ofInt_toInt]
    rfl
  | cons x xs ih =>
    have hsum : a.toInt + x.toInt = ((done ++ [x]).map Int64.toInt).sum := by simp [ha]
    have hfits := hfit (done ++ [x]) ⟨xs, by simp⟩
    rw [← hsum] at hfits
    have hstep : combine R.addI64 minI64 maxI64 .sum (some a) x = .ok (some (.ofInt (a.toInt + x.toInt))) := by
      simp [combine, addI64_ok R hfits, Except.map]
    have hrest := ih (done ++ [x]) (by simpa using hfit) ((toInt_ofInt_of_fits hfits).trans hsum)
    rw [List.append_assoc, List.singleton_append] at hrest
    rw [List.foldlM_cons, hstep]
    exact hrest

/-- **Sum of integers**: the exact sum of the cells -/
theorem reduceNumericTyped_sum (R : Runtime) (ds : DataSet) (idx : ℕ) (hfit : PartialSumsFit (cells int64Cell idx ds.rows))
    (hne : cells int64Cell idx ds.rows ≠ []) :
    reduceNumericTyped R ds idx .int64 .sum =
      .ok (some (.int64 (.ofInt ((cells int64Cell idx ds.rows).map Int64.toInt).sum))) := by
  unfold reduceNumericTyped
  simp only [tryLoop_eq]
  generalize cells int64Cell idx ds.rows = xs at hfit hne ⊢
  rcases xs with - | ⟨x, xs⟩
  · exact absurd rfl hne
  · have hloop := sumLoop_ok R [x] (a := x) hfit (by simp)
    rw [List.singleton_append] at hloop
    have hfirst : combine R.addI64 minI64 maxI64 .sum none x = .ok (some x) := rfl
    rw [List.foldlM_cons, hfirst]
    simp only [bind, Except.bind] at hloop ⊢
    rw [hloop]
    rfl

/-- a loop that cannot panic -/
theorem foldlM_step {α : Type} {next : Option α → α → IngestionResult (Option α)} {f : α → α → α}
    (h : ∀ acc v, next acc v = .ok (reduceStep f acc v)) (acc : Option α) (xs : List α) :
    xs.foldlM next acc = .ok (xs.foldl (reduceStep f) acc) := by
  induction xs generalizing acc with
  | nil => rfl
  | cons x xs ih =>
    rw [List.foldlM_cons, h]
    exact ih _

theorem combine_sum {α : Type} (add min max : α → α → α) (acc : Option α) (v : α) :
    combine (fun a v => .ok (add a v)) min max .sum acc v = .ok (reduceStep add acc v) := by
  rcases acc with - | a <;> rfl

theorem combine_min {α : Type} (add : α → α → IngestionResult α) (min max : α → α → α) (acc : Option α) (v : α) :
    combine add min max .min acc v = .ok (reduceStep min acc v) := by
  rcases acc with - | a <;> rfl

theorem combine_max {α : Type} (add : α → α → IngestionResult α) (min max : α → α → α) (acc : Option α) (v : α) :
    combine add min max .max acc v = .ok (reduceStep max acc v) := by
  rcases acc with - | a <;> rfl

/-- **Sum of floats**: one way of adding up the cells -/
theorem reduceNumericTyped_addedUp (R : Runtime) (ds : DataSet) (idx : ℕ) (hne : cells float64Cell idx ds.rows ≠ []) :
    ∃ s, Reduction.AddedUp Binary64.add Binary64.isZero (cells float64Cell idx ds.rows) s ∧
      reduceNumericTyped R ds idx .float64 .sum = .ok (some (.float64 s)) := by
  unfold reduceNumericTyped
  simp only [tryLoop_eq, foldlM_step (combine_sum _ _ _)]
  generalize cells float64Cell idx ds.rows = xs at hne ⊢
  rcases xs with - | ⟨x, xs⟩
  · exact absurd rfl hne
  · have hsum := (@AddedUp.one _ Binary64.add Binary64.isZero x).foldl xs
    rw [Multiset.singleton_add, Multiset.cons_coe] at hsum
    refine ⟨_, hsum, ?_⟩
    rw [List.foldl_cons]
    change Except.ok (some (Option.elim (xs.foldl (reduceStep (· + ·)) (some x)) _ _)) = _
    rw [foldl_reduceStep]
    rfl

/-- the key with the least value at the extremum -/
def extremeKey (op : ReduceOp) (k : ℤ) : ℤ := if op = .max then -k else k

/-- **Min and Max of integers** -/
theorem reduceNumericTyped_best_int64 (R : Runtime) (ds : DataSet) (idx : ℕ) {op : ReduceOp}
    (hop : op = .min ∨ op = .max) :
    ∃ o, Best (fun v => extremeKey op v.toInt) (cells int64Cell idx ds.rows) o ∧
      reduceNumericTyped R ds idx .int64 op = .ok (some (o.elim .null .int64)) := by
  unfold reduceNumericTyped
  rcases hop with rfl | rfl
  · simp only [tryLoop_eq, foldlM_step (combine_min _ _ _)]
    refine ⟨_, best_foldl (S := fun _ => True) ?_ ?_ fun _ _ => trivial, rfl⟩
    · intro a b
      unfold minI64
      split_ifs <;> simp
    · intro a b _ _
      simp only [extremeKey, minI64, reduceCtorEq, if_false]
      split_ifs <;> omega
  · simp only [tryLoop_eq, foldlM_step (combine_max _ _ _)]
    refine ⟨_, best_foldl (S := fun _ => True) ?_ ?_ fun _ _ => trivial, rfl⟩
    · intro a b
      unfold maxI64
      split_ifs <;> simp
    · intro a b _ _
      simp only [extremeKey, maxI64, if_true]
      split_ifs <;> omega

/-- **Min and Max of floats** that are not NaN -/
theorem reduceNumericTyped_best_float64 (R : Runtime) (ds : DataSet) (idx : ℕ) {op : ReduceOp}
    (hop : op = .min ∨ op = .max) (hnan : ∀ x ∈ cells float64Cell idx ds.rows, x.isNaN = false) :
    ∃ o, Best (fun v => extremeKey op v.orderKey) (cells float64Cell idx ds.rows) o ∧
      reduceNumericTyped R ds idx .float64 op = .ok (some (o.elim .null .float64)) := by
  unfold reduceNumericTyped
  rcases hop with rfl | rfl
  · simp only [tryLoop_eq, foldlM_step (combine_min _ _ _)]
    refine ⟨_, best_foldl ?_ ?_ hnan, rfl⟩
    · intro a b
      unfold Binary64.min
      split_ifs <;> simp
    · intro a b ha hb
      simp only [extremeKey, Binary64.min, ha, hb, reduceCtorEq, Bool.false_eq_true, if_false]
      split_ifs <;> omega
  · simp only [tryLoop_eq, foldlM_step (combine_max _ _ _)]
    refine ⟨_, best_foldl ?_ ?_ hnan, rfl⟩
    · intro a b
      unfold Binary64.max
      split_ifs <;> simp
    · intro a b ha hb
      simp only [extremeKey, Binary64.max, ha, hb, Bool.false_eq_true, if_false, if_true]
      split_ifs <;> omega

/-- the three parts are computed by themselves -/
theorem FloatStats.foldl_observe {K : Type} [Zero K] [Add K] [Sub K] [Mul K] [Div K] [NatCast K] (xs : List K)
    (s : FloatStats K) : xs.foldl FloatStats.observe s =
      ⟨xs.foldl Welford.observe s.w, (xs.map fun x => x * x).foldl (· + ·) s.sumSquares, s.any || !xs.isEmpty⟩ := by
  induction xs generalizing s with
  | nil => simp
  | cons x xs ih =>
    rw [List.foldl_cons, ih]
    simp [FloatStats.observe]

/-- **Sum of squares**: one way of adding up the squares of the numbers -/
theorem sumSquares_addedUp (ds : DataSet) (idx : ℕ) {dataType : DataType}
    (hnum : dataType = .int64 ∨ dataType = .float64)
    (hne : cells (floatCell (dataType = .int64)) idx ds.rows ≠ []) :
    ∃ s, AddedUp Binary64.add Binary64.isZero
        ((cells (floatCell (dataType = .int64)) idx ds.rows).map fun x => x.mul x) s ∧
      reduceNumericFloatStats ds idx dataType .sumSquares = .ok (some (.float64 s)) := by
  unfold reduceNumericFloatStats
  simp only [if_pos hnum, loop_eq]
  generalize cells (floatCell (dataType = .int64)) idx ds.rows = xs at hne ⊢
  have hadded := (@AddedUp.zero _ Binary64.add _ _ (Binary64.isZero_zero false)).foldl (xs.map fun x => x.mul x)
  rw [zero_add] at hadded
  refine ⟨_, hadded, ?_⟩
  rw [FloatStats.foldl_observe]
  simp [FloatStats.start, hne]
  rfl

/-- **Distinct values** -/
theorem distinct_eq {α : Type} [DecidableEq α] (read : Value → Option α) (idx : ℕ) (rows : List Row) :
    distinct read idx rows = (cells read idx rows).toFinset := by
  unfold distinct
  rw [loop_eq]
  have hfold : ∀ (xs : List α) (s : Finset α), xs.foldl (fun set v => insert v set) s = s ∪ xs.toFinset := by
    intro xs
    induction xs with
    | nil => intro s; simp
    | cons x xs ih =>
      intro s
      rw [List.foldl_cons, ih, List.toFinset_cons, Finset.insert_union, Finset.union_insert]
  rw [hfold, Finset.empty_union]

/-- the bit patterns tell the floats apart -/
theorem distinct_bits (idx : ℕ) (rows : List Row) :
    (distinct (fun v => (float64Cell v).map Binary64.bits) idx rows).card =
      (cells float64Cell idx rows).toFinset.card := by
  have hinj : Function.Injective Binary64.bits := by
    rintro ⟨x⟩ ⟨y⟩ rfl
    rfl
  have hcells : cells (fun v => (float64Cell v).map Binary64.bits) idx rows =
      (cells float64Cell idx rows).map Binary64.bits := by
    rw [cells, cells, List.map_filterMap]
    refine List.filterMap_congr fun row _ => ?_
    rw [Option.map_bind]
    rfl
  rw [distinct_eq, hcells, ← Finset.card_image_of_injective _ hinj]
  congr 1
  ext b
  simp

/-! ## The order of the rows -/

theorem cells_perm {α : Type} (read : Value → Option α) (idx : ℕ) {rows rows' : List Row} (h : rows'.Perm rows) :
    (cells read idx rows').Perm (cells read idx rows) := h.filterMap _

theorem cells_of_first {α : Type} {read : Value → Option α} {idx : ℕ} {before behind : List Row} {row : Row} {x : α}
    (hbefore : ∀ r ∈ before, r[idx]?.bind read = none) (hx : row[idx]?.bind read = some x) :
    cells read idx (before ++ row :: behind) = x :: cells read idx behind :=
  List.filterMap_eq_cons_iff.2 ⟨before, row, behind, rfl, hbefore, hx, rfl⟩

/-- every order of the cells is the order of the cells of some order of the rows -/
theorem exists_rows_of_perm {α : Type} (read : Value → Option α) (idx : ℕ) {rows : List Row} {xs : List α}
    (h : xs.Perm (cells read idx rows)) : ∃ rows' : List Row, rows'.Perm rows ∧ cells read idx rows' = xs := by
  have hlift : ∀ {ys zs : List α}, ys.Perm zs → ∀ rows : List Row, cells read idx rows = ys →
      ∃ rows' : List Row, rows'.Perm rows ∧ cells read idx rows' = zs := by
    intro ys zs hperm
    induction hperm with
    | nil => exact fun rows h => ⟨rows, .refl _, h⟩
    | cons x _ ih =>
      intro rows h
      obtain ⟨before, row, behind, rfl, hbefore, hx, hbehind⟩ := List.filterMap_eq_cons_iff.1 h
      obtain ⟨behind', hperm, hcells⟩ := ih behind hbehind
      exact ⟨before ++ row :: behind', (hperm.cons row).append_left before, by rw [cells_of_first hbefore hx, hcells]⟩
    | swap x y xs =>
      intro rows h
      obtain ⟨before, row, behind, rfl, hbefore, hy, hbehind⟩ := List.filterMap_eq_cons_iff.1 h
      obtain ⟨between, row', behind, rfl, hbetween, hx, hbehind⟩ := List.filterMap_eq_cons_iff.1 hbehind
      refine ⟨before ++ row' :: (between ++ row :: behind), ?_, ?_⟩
      · apply List.Perm.append_left
        exact (List.perm_middle.cons row').trans ((List.Perm.swap row row' _).trans (List.perm_middle.symm.cons row))
      · rw [cells_of_first hbefore hx, cells_of_first hbetween hy, ← hbehind]
        rfl
    | trans _ _ ih ih' =>
      intro rows h
      obtain ⟨rows', hperm, hcells⟩ := ih rows h
      obtain ⟨rows'', hperm', hcells'⟩ := ih' rows' hcells
      exact ⟨rows'', hperm'.trans hperm, hcells'⟩
  exact hlift h.symm rows rfl

/-! ## Columns without numbers -/

theorem cells_eq_nil {α : Type} {read : Value → Option α} {idx : ℕ} {rows : List Row} :
    cells read idx rows = [] ↔ ∀ row ∈ rows, ∀ v, row[idx]? = some v → read v = none := by
  rw [cells, List.filterMap_eq_nil_iff]
  refine forall₂_congr fun row _ => ?_
  rcases row[idx]? with - | v <;> simp

theorem floatCell_eq_none {dt : DataType} {v : Value} (hdt : dt = .int64 ∨ dt = .float64) :
    floatCell (dt = .int64) v = none ↔ v.hasType dt = false := by
  rcases hdt with rfl | rfl <;> cases v <;> simp [floatCell, Value.hasType]

section NoNumbers

variable {ds : DataSet} {idx : ℕ} {dt : DataType}

theorem reduceNumericTyped_null (R : Runtime) (hnone : ∀ row ∈ ds.rows, ∀ v, row[idx]? = some v → v.hasType dt = false)
    (op : ReduceOp) : reduceNumericTyped R ds idx dt op = .ok (some .null) := by
  unfold reduceNumericTyped
  rcases dt with - | - | - | -
  · have hcells : cells int64Cell idx ds.rows = [] := cells_eq_nil.2 fun row hrow v hv => by
      have := hnone row hrow v hv
      cases v <;> first | rfl | cases this
    simp only [tryLoop_eq, hcells]
    rfl
  · have hcells : cells float64Cell idx ds.rows = [] := cells_eq_nil.2 fun row hrow v hv => by
      have := hnone row hrow v hv
      cases v <;> first | rfl | cases this
    simp only [tryLoop_eq, hcells]
    rfl
  · rfl
  · rfl

theorem floatCells_eq_nil (hnone : ∀ row ∈ ds.rows, ∀ v, row[idx]? = some v → v.hasType dt = false)
    (hdt : dt = .int64 ∨ dt = .float64) : cells (floatCell (dt = .int64)) idx ds.rows = [] :=
  cells_eq_nil.2 fun row hrow v hv => (floatCell_eq_none hdt).2 (hnone row hrow v hv)

theorem reduceNumericFloatStats_null (hnone : ∀ row ∈ ds.rows, ∀ v, row[idx]? = some v → v.hasType dt = false)
    (op : ReduceOp) : reduceNumericFloatStats ds idx dt op = .ok (some .null) := by
  unfold reduceNumericFloatStats
  by_cases hnum : dt = .int64 ∨ dt = .float64
  · simp only [if_pos hnum, loop_eq, floatCells_eq_nil hnone hnum]
    rfl
  · rw [if_neg hnum]

theorem reduceMedian_null (R : Runtime) {field : Field} (hfield : ds.schema.fields[idx]? = some field)
    (hnone : ∀ row ∈ ds.rows, ∀ v, row[idx]? = some v → v.hasType field.dataType = false) :
    reduceMedian R ds idx = .ok (some .null) := by
  unfold reduceMedian
  simp only [hfield]
  by_cases hnum : field.dataType = .int64 ∨ field.dataType = .float64
  · simp only [if_pos hnum, loop_eq, floatCells_eq_nil hnone hnum]
    rfl
  · rw [if_neg hnum]

end NoNumbers

/-- **No numbers, no value**: every numeric reduction of such a column is a null -/
theorem reduce_null (R : Runtime) {ds : DataSet} {column : String} {idx : ℕ} {field : Field} {op : ReduceOp}
    (hidx : ds.schema.indexOf column = some idx) (hfield : ds.schema.fields[idx]? = some field)
    (hnone : ∀ row ∈ ds.rows, ∀ v, row[idx]? = some v → v.hasType field.dataType = false)
    (hop : op ≠ .count ∧ op ≠ .countDistinctNonNull) : reduce R ds column op = .ok (some .null) := by
  unfold reduce
  simp only [hidx, hfield]
  rcases op with - | - | - | - | - | kind | kind | - | - | - | -
  · exact absurd rfl hop.1
  · exact reduceNumericTyped_null R hnone _
  · exact reduceNumericTyped_null R hnone _
  · exact reduceNumericTyped_null R hnone _
  · exact reduceNumericFloatStats_null hnone _
  · exact reduceNumericFloatStats_null hnone _
  · exact reduceNumericFloatStats_null hnone _
  · exact reduceNumericFloatStats_null hnone _
  · exact reduceNumericFloatStats_null hnone _
  · exact absurd rfl hop.2
  · exact reduceMedian_null R hfield hnone

end RustDataProcessing.Processing
