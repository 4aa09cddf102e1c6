/-
Profiling (`src/profiling/mod.rs`). One selection computes every metric of every column, each under a name built from
the column's name and the metric's; a second loop reads the metrics back by these names. The name of a quantile is its
percentage, rounded to a whole number.

- `label_inj`: two names are the same only for the same column and the same metric.
- `profileFrame_quantiles`: what a report says of a quantile was computed for that quantile.
- `profile_quantiles_iff`: the names are distinct, so that the engine takes the selection, exactly when no two quantiles
  round to one percentage or no column is numeric.
- `close_quantiles_collide`: the quantiles 0.991 and 0.994 are both p99.
-/
import Mathlib.Tactic
import RustDataProcessing.Lib.Arithmetic64
import RustDataProcessing.Lib.Display
import RustDataProcessing.Query

namespace RustDataProcessing.Profiling

open Polars (Engine Expr LazyFrame PType AnyValue Series PolarsError)
open Query (boxed)
open RustStd (displayF64 displayI64)

/-! ## The source -/

inductive SamplingMode where
  | full
  | head (n : ℕ)
deriving DecidableEq, Repr

structure ProfileOptions where
  sampling : SamplingMode
  quantiles : List Binary64

/-- `Default` -/
def ProfileOptions.default : ProfileOptions := ⟨.full, [.ofRatio false 1 2, .ofRatio false 95 100]⟩

structure NumericProfile where
  min : Option Binary64
  max : Option Binary64
  mean : Option Binary64
  quantiles : List (Binary64 × Option Binary64)

structure ColumnProfile where
  name : String
  dataType : DataType
  nullCount : ℕ
  distinctCount : ℕ
  numeric : Option NumericProfile

structure ProfileReport where
  sampling : SamplingMode
  rowCount : ℕ
  columns : List ColumnProfile

/-- the type reported, and whether it is numeric -/
def polarsDtypeToProfileDtype : PType → DataType × Bool
  | .boolean => (.bool, false)
  | .string => (.utf8, false)
  | .int8 | .int16 | .int32 | .int64 | .uint8 | .uint16 | .uint32 | .uint64 => (.int64, true)
  | .float32 | .float64 => (.float64, true)
  | _ => (.utf8, false)

def anyToUsize (E : Engine) (s : Series) (idx : ℕ) : IngestionResult (Option ℕ) := do
  let av ← (s.get idx).mapError fun e => .error (boxed "failed to read profile value" e)
  match av with
  | .null => pure none
  | .int64 v => pure (some (max v.toInt 0).toNat)
  | .uint64 v => pure (some v.toNat)
  | .int32 v => pure (some (max v.toInt 0).toNat)
  | .uint32 v => pure (some v.toNat)
  | .int16 v => pure (some (max v.toInt 0).toNat)
  | .uint16 v => pure (some v.toNat)
  | .int8 v => pure (some (max v.toInt 0).toNat)
  | .uint8 v => pure (some v.toNat)
  | other => .error (.schemaMismatch s!"expected integer-like profile value, got {E.display other}")

def anyToF64 (E : Engine) (s : Series) (idx : ℕ) : IngestionResult (Option Binary64) := do
  let av ← (s.get idx).mapError fun e => .error (boxed "failed to read profile value" e)
  match av with
  | .null => pure none
  | .float64 v => pure (some v)
  | .float32 v => pure (some v)
  | .int64 v => pure (some (.ofInt v.toInt))
  | .uint64 v => pure (some (.ofInt v.toNat))
  | .int32 v => pure (some (.ofInt v.toInt))
  | .uint32 v => pure (some (.ofInt v.toNat))
  | other => .error (.schemaMismatch s!"expected numeric profile value, got {E.display other}")

/-- `a <= b` on floats -/
def le (a b : Binary64) : Bool := (a.partialCmp b).any fun o => o ≠ .gt

/-- `(0.0..=1.0).contains(q)` -/
def inUnit (q : Binary64) : Bool := le (.zero false) q && le q (.ofInt 1)

/-- `f64::round`: the nearest integer, halves away from zero -/
def round (x : Binary64) : ℤ :=
  let n : ℤ := ((2 * x.scaled + Binary64.unit) / (2 * Binary64.unit) : ℕ)
  if x.isNegative then -n else n

/-- `pct`, for a quantile that has passed the check -/
def pct (q : Binary64) : Int64 := RustStd.saturateI64 (round (q.mul (.ofInt 100)))

/-- the name of a metric of a column -/
def label (name metric : String) : String := s!"{name}__{metric}"

def quantileMetric (q : Binary64) : String := s!"p{displayI64 (pct q)}"

def quantileOf (name : String) (q : Binary64) : Expr := (Expr.col name).quantile (Polars.lit .float64 (.float64 q))

/-- one quantile of the first loop -/
def quantileExpr (name : String) (q : Binary64) : IngestionResult Expr :=
  if inUnit q then .ok (.alias (quantileOf name q) (label name (quantileMetric q)))
  else .error (.schemaMismatch s!"invalid quantile {displayF64 q}; expected value in [0.0, 1.0]")

/-- one column of the first loop -/
def columnExprs (quantiles : List Binary64) (name : String) (isNumeric : Bool) : IngestionResult (List Expr) := do
  let counts : List Expr :=
    [.alias (Expr.col name).nullCount (label name "nulls"),
      .alias (Expr.col name).dropNulls.nUnique (label name "distinct")]
  if isNumeric then do
    let bounds : List Expr :=
      [.alias (Expr.col name).min (label name "min"), .alias (Expr.col name).max (label name "max"),
        .alias (Expr.col name).mean (label name "mean")]
    let qs ← quantiles.mapM (quantileExpr name)
    pure (counts ++ bounds ++ qs)
  else pure counts

abbrev Column := String × DataType × Bool

def profileColumns (schema : List (String × PType)) : List Column :=
  schema.map fun f => (f.1, polarsDtypeToProfileDtype f.2)

def profileExprs (quantiles : List Binary64) (cols : List Column) : IngestionResult (List Expr) := do
  let exprs ← cols.mapM fun c => columnExprs quantiles c.1 c.2.2
  pure (.alias .len "__rows" :: exprs.flatten)

/-- a metric read back: `agg.column(name)` -/
def metric (agg : Polars.DataFrame) (name action : String) : IngestionResult Series :=
  (agg.column name).mapError fun e => .error (polarsErrorToIngestion action e)

/-- one quantile of the second loop -/
def readQuantile (E : Engine) (agg : Polars.DataFrame) (name : String) (q : Binary64) :
    IngestionResult (Binary64 × Option Binary64) := do
  let col ← metric agg (label name (quantileMetric q)) "profiling missing quantile"
  let v ← anyToF64 E col 0
  pure (q, v)

def readNumeric (E : Engine) (agg : Polars.DataFrame) (quantiles : List Binary64) (name : String) :
    IngestionResult NumericProfile := do
  let min ← anyToF64 E (← metric agg (label name "min") "profiling missing min") 0
  let max ← anyToF64 E (← metric agg (label name "max") "profiling missing max") 0
  let mean ← anyToF64 E (← metric agg (label name "mean") "profiling missing mean") 0
  let qs ← quantiles.mapM (readQuantile E agg name)
  pure ⟨min, max, mean, qs⟩

/-- one column of the second loop -/
def readColumn (E : Engine) (agg : Polars.DataFrame) (quantiles : List Binary64) (c : Column) :
    IngestionResult ColumnProfile := do
  let (name, dt, isNumeric) := c
  let nulls ← metric agg (label name "nulls") s!"profiling missing null_count for '{name}'"
  let nullCount ← anyToUsize E nulls 0
  let distinct ← metric agg (label name "distinct") s!"profiling missing distinct_count for '{name}'"
  let distinctCount ← anyToUsize E distinct 0
  let numeric ← (if isNumeric then (readNumeric E agg quantiles name).map some else pure none)
  pure ⟨name, dt, nullCount.getD 0, distinctCount.getD 0, numeric⟩

/-- the plan that is profiled -/
def sampled (df : LazyFrame) : SamplingMode → LazyFrame
  | .full => df
  | .head n => df.limit n

def profileFrame (E : Engine) (df : LazyFrame) (options : ProfileOptions) : IngestionResult ProfileReport := do
  let lf := sampled df options.sampling
  let schema ← lf.schema.mapError fun e => .error (polarsErrorToIngestion "failed to collect schema" e)
  let cols := profileColumns schema
  if cols.isEmpty then pure ⟨options.sampling, 0, []⟩
  else do
    let exprs ← profileExprs options.quantiles cols
    let agg ← (lf.frame >>= fun frame => Polars.select E frame exprs).mapError
      fun e => .error (polarsErrorToIngestion "failed to compute profile" e)
    let rowCountCol ← metric agg "__rows" "profiling missing __rows column"
    let rowCount ← anyToUsize E rowCountCol 0
    let outCols ← cols.mapM (readColumn E agg options.quantiles)
    pure ⟨options.sampling, rowCount.getD 0, outCols⟩

def profileDataset (E : Engine) (ds : DataSet) (options : ProfileOptions) : IngestionResult ProfileReport := do
  let df ← Pipeline.DataFrame.fromDataset E ds
  profileFrame E df options

/-! ## The expressions -/

def countExprs (name : String) : List Expr :=
  [.alias (Expr.col name).nullCount (label name "nulls"),
    .alias (Expr.col name).dropNulls.nUnique (label name "distinct")]

def numericExprs (quantiles : List Binary64) (name : String) : List Expr :=
  [.alias (Expr.col name).min (label name "min"), .alias (Expr.col name).max (label name "max"),
    .alias (Expr.col name).mean (label name "mean")] ++
  quantiles.map fun q => .alias (quantileOf name q) (label name (quantileMetric q))

/-- the expressions of valid quantiles -/
def exprList (quantiles : List Binary64) (cols : List Column) : List Expr :=
  .alias .len "__rows" ::
    cols.flatMap fun c => countExprs c.1 ++ if c.2.2 then numericExprs quantiles c.1 else []

theorem columnExprs_ok {quantiles : List Binary64} (hq : ∀ q ∈ quantiles, inUnit q) (name : String) (isNumeric : Bool) :
    columnExprs quantiles name isNumeric =
      .ok (countExprs name ++ if isNumeric then numericExprs quantiles name else []) := by
  have hqs : quantiles.mapM (quantileExpr name) =
      .ok (quantiles.map fun q => .alias (quantileOf name q) (label name (quantileMetric q))) := by
    refine Traverse.mapM_ok (List.forall₂_map_right_iff.2 (List.forall₂_same.2 fun q hmem => ?_))
    exact if_pos (hq q hmem)
  cases isNumeric with
  | false => rfl
  | true =>
    unfold columnExprs
    rw [hqs]
    simp [countExprs, numericExprs, bind, Except.bind, pure, Except.pure]

theorem profileExprs_ok {quantiles : List Binary64} (hq : ∀ q ∈ quantiles, inUnit q) (cols : List Column) :
    profileExprs quantiles cols = .ok (exprList quantiles cols) := by
  have hcols : cols.mapM (fun c => columnExprs quantiles c.1 c.2.2) =
      .ok (cols.map fun c => countExprs c.1 ++ if c.2.2 then numericExprs quantiles c.1 else []) :=
    Traverse.mapM_ok (List.forall₂_map_right_iff.2 (List.forall₂_same.2 fun c _ => columnExprs_ok hq c.1 c.2.2))
  unfold profileExprs
  rw [hcols, exprList, List.flatMap]
  rfl

theorem exprList_alias (quantiles : List Binary64) (cols : List Column) :
    ∀ e ∈ exprList quantiles cols, ∃ e' name, e = .alias e' name := by
  intro e he
  rcases List.mem_cons.1 he with rfl | he
  · exact ⟨_, _, rfl⟩
  · obtain ⟨c, -, he⟩ := List.mem_flatMap.1 he
    rcases List.mem_append.1 he with he | he
    · simp only [countExprs, List.mem_cons, List.not_mem_nil, or_false] at he
      rcases he with rfl | rfl <;> exact ⟨_, _, rfl⟩
    · split_ifs at he
      · rcases List.mem_append.1 he with he | he
        · simp only [List.mem_cons, List.not_mem_nil, or_false] at he
          rcases he with rfl | rfl | rfl <;> exact ⟨_, _, rfl⟩
        · obtain ⟨q, -, rfl⟩ := List.mem_map.1 he
          exact ⟨_, _, rfl⟩
      · cases he

/-! ## The names -/

/-- **A name is read in one way**: the metric stands after the last underscore -/
theorem label_inj {name name' metric metric' : String} (hm : '_' ∉ metric.toList) (hm' : '_' ∉ metric'.toList)
    (h : label name metric = label name' metric') : name = name' ∧ metric = metric' := by
  have hchars : ∀ n m : String, (label n m).toList.reverse = m.toList.reverse ++ '_' :: '_' :: n.toList.reverse := by
    intro n m
    have : label n m = n ++ "__" ++ m := rfl
    rw [this, String.toList_append, String.toList_append]
    simp
  have hrev := congrArg (fun s => s.toList.reverse) h
  simp only [hchars] at hrev
  obtain ⟨hmetric, hname⟩ := RustStd.cut_unique (by simpa using hm) (by simpa using hm') hrev
  obtain ⟨-, hname⟩ := List.cons.inj hname
  exact ⟨String.toList_inj.1 (List.reverse_injective hname), String.toList_inj.1 (List.reverse_injective hmetric)⟩

theorem underscore_not_mem_displayI64 (n : Int64) : '_' ∉ (displayI64 n).toList := by
  have hdigits : ∀ m, '_' ∉ Nat.toDigits 10 m := fun m h =>
    absurd (RustStd.isDigit_of_mem_toDigits h) (by decide)
  unfold displayI64
  rcases n.toInt with m | m
  · have hstr : (toString (Int.ofNat m)).toList = Nat.toDigits 10 m := Nat.toList_repr
    rw [hstr]
    exact hdigits m
  · have hneg : Int.negSucc m = -((m + 1 : ℕ) : ℤ) := rfl
    rw [hneg, RustStd.toString_neg, List.mem_cons, not_or]
    exact ⟨by decide, hdigits _⟩

theorem quantileMetric_toList (q : Binary64) : (quantileMetric q).toList = 'p' :: (displayI64 (pct q)).toList := by
  have : quantileMetric q = "p" ++ displayI64 (pct q) := rfl
  rw [this, String.toList_append]
  rfl

theorem quantileMetric_inj {q r : Binary64} : quantileMetric q = quantileMetric r ↔ pct q = pct r := by
  constructor
  · intro h
    have hlist := congrArg String.toList h
    rw [quantileMetric_toList, quantileMetric_toList] at hlist
    exact RustStd.displayI64_injective (String.toList_inj.1 (List.cons.inj hlist).2)
  · intro h
    rw [quantileMetric, quantileMetric, h]

/-- the metrics of a column -/
def metrics (quantiles : List Binary64) (isNumeric : Bool) : List String :=
  ["nulls", "distinct"] ++ if isNumeric then ["min", "max", "mean"] ++ quantiles.map quantileMetric else []

theorem metrics_cases {quantiles : List Binary64} {isNumeric : Bool} {m : String} (h : m ∈ metrics quantiles isNumeric) :
    m ∈ ["nulls", "distinct", "min", "max", "mean"] ∨ ∃ q ∈ quantiles, m = quantileMetric q := by
  rcases List.mem_append.1 h with h | h
  · exact Or.inl (List.mem_append_left ["min", "max", "mean"] h)
  · split_ifs at h
    · rcases List.mem_append.1 h with h | h
      · exact Or.inl (List.mem_append_right ["nulls", "distinct"] h)
      · obtain ⟨q, hq, rfl⟩ := List.mem_map.1 h
        exact Or.inr ⟨q, hq, rfl⟩
    · cases h

/-- a quantile's metric is none of the others -/
theorem quantileMetric_not_mem (q : Binary64) : quantileMetric q ∉ ["rows", "nulls", "distinct", "min", "max", "mean"] := by
  intro h
  have hhead : (quantileMetric q).toList.head? = some 'p' := by rw [quantileMetric_toList]; rfl
  have hall : ∀ m ∈ ["rows", "nulls", "distinct", "min", "max", "mean"], m.toList.head? ≠ some 'p' := by decide
  exact hall _ h hhead

theorem underscore_not_mem_metrics {quantiles : List Binary64} {isNumeric : Bool} {m : String}
    (h : m ∈ metrics quantiles isNumeric) : '_' ∉ m.toList := by
  rcases metrics_cases h with h | ⟨q, -, rfl⟩
  · have hall : ∀ m ∈ ["nulls", "distinct", "min", "max", "mean"], '_' ∉ m.toList := by decide
    exact hall m h
  · rw [quantileMetric_toList, List.mem_cons, not_or]
    exact ⟨by decide, underscore_not_mem_displayI64 _⟩

theorem rows_not_mem_metrics (quantiles : List Binary64) (isNumeric : Bool) : "rows" ∉ metrics quantiles isNumeric := by
  intro h
  rcases metrics_cases h with h | ⟨q, -, heq⟩
  · exact absurd h (by decide)
  · exact quantileMetric_not_mem q (heq ▸ List.mem_cons_self)

theorem nodup_metrics_iff (quantiles : List Binary64) (isNumeric : Bool) :
    (metrics quantiles isNumeric).Nodup ↔ isNumeric = false ∨ (quantiles.map pct).Nodup := by
  cases isNumeric with
  | false => simp [metrics]
  | true =>
    have hsplit : metrics quantiles true = ["nulls", "distinct", "min", "max", "mean"] ++ quantiles.map quantileMetric := rfl
    have hdisjoint : List.Disjoint ["nulls", "distinct", "min", "max", "mean"] (quantiles.map quantileMetric) := by
      intro m hm hq
      obtain ⟨q, -, rfl⟩ := List.mem_map.1 hq
      exact quantileMetric_not_mem q (List.mem_cons_of_mem _ hm)
    have hpct : (quantiles.map quantileMetric).Nodup ↔ (quantiles.map pct).Nodup := by
      rw [List.Nodup, List.Nodup, List.pairwise_map, List.pairwise_map]
      simp only [ne_eq, quantileMetric_inj]
    rw [hsplit, List.nodup_append', hpct]
    simp only [Bool.true_eq_false, false_or]
    exact ⟨fun h => h.2.1, fun h => ⟨by decide, h, hdisjoint⟩⟩

/-- the column and the metric of every expression -/
def labels (quantiles : List Binary64) (cols : List Column) : List (String × String) :=
  ("", "rows") :: cols.flatMap fun c => (metrics quantiles c.2.2).map (Prod.mk c.1)

theorem exprList_names (quantiles : List Binary64) (cols : List Column) :
    (exprList quantiles cols).map Expr.outputName = (labels quantiles cols).map fun l => label l.1 l.2 := by
  rw [exprList, labels, List.map_cons, List.map_cons, List.map_flatMap, List.map_flatMap]
  refine congrArg₂ List.cons rfl ?_
  congr 1
  funext ⟨name, dt, isNumeric⟩
  cases isNumeric with
  | false => rfl
  | true => simp [metrics, countExprs, numericExprs, Expr.outputName, Function.comp_def]

theorem underscore_not_mem_labels {quantiles : List Binary64} {cols : List Column} {l : String × String}
    (h : l ∈ labels quantiles cols) : '_' ∉ l.2.toList := by
  rcases List.mem_cons.1 h with rfl | h
  · decide
  · obtain ⟨c, -, h⟩ := List.mem_flatMap.1 h
    obtain ⟨m, hm, rfl⟩ := List.mem_map.1 h
    exact underscore_not_mem_metrics hm

theorem nodup_names_iff {quantiles : List Binary64} {cols : List Column} (hnames : (cols.map Prod.fst).Nodup) :
    ((exprList quantiles cols).map Expr.outputName).Nodup ↔
      (∀ c ∈ cols, c.2.2 = false) ∨ (quantiles.map pct).Nodup := by
  have hlabels : ((exprList quantiles cols).map Expr.outputName).Nodup ↔ (labels quantiles cols).Nodup := by
    rw [exprList_names]
    refine ⟨List.Nodup.of_map _, fun h => h.map_on fun l hl l' hl' heq => ?_⟩
    obtain ⟨hname, hmetric⟩ := label_inj (underscore_not_mem_labels hl) (underscore_not_mem_labels hl') heq
    exact Prod.ext hname hmetric
  have hrows : ("", "rows") ∉ cols.flatMap fun c => (metrics quantiles c.2.2).map (Prod.mk c.1) := by
    intro h
    obtain ⟨c, -, h⟩ := List.mem_flatMap.1 h
    obtain ⟨m, hm, heq⟩ := List.mem_map.1 h
    exact rows_not_mem_metrics quantiles c.2.2 ((Prod.mk.inj heq).2 ▸ hm)
  -- columns of distinct names have no label in common
  have hapart : cols.Pairwise fun c d => List.Disjoint ((metrics quantiles c.2.2).map (Prod.mk c.1))
      ((metrics quantiles d.2.2).map (Prod.mk d.1)) := by
    refine (List.pairwise_map.1 hnames).imp fun {c d} hne l hc hd => ?_
    obtain ⟨m, -, rfl⟩ := List.mem_map.1 hc
    obtain ⟨m', -, heq⟩ := List.mem_map.1 hd
    exact hne (Prod.mk.inj heq).1.symm
  have hcolumn : ∀ c : Column, ((metrics quantiles c.2.2).map (Prod.mk c.1)).Nodup ↔
      c.2.2 = false ∨ (quantiles.map pct).Nodup := fun c => by
    rw [List.nodup_map_iff (Prod.mk_right_injective c.1), nodup_metrics_iff]
  rw [hlabels, labels, List.nodup_cons, List.nodup_flatMap, and_iff_right hrows, and_iff_left hapart]
  simp only [hcolumn]
  by_cases hpct : (quantiles.map pct).Nodup
  · simp [hpct]
  · simp [hpct]

/-! ## What a report says -/

section Report

variable {E : Engine} {df : LazyFrame} {options : ProfileOptions} {report : ProfileReport}

theorem profileFrame_ok (h : profileFrame E df options = .ok report) :
    ∃ schema, (sampled df options.sampling).schema = .ok schema ∧
      (schema = [] ∧ report.columns = [] ∨ ∃ exprs frame agg,
        profileExprs options.quantiles (profileColumns schema) = .ok exprs ∧
        (sampled df options.sampling).frame = .ok frame ∧ Polars.select E frame exprs = .ok agg ∧
        (profileColumns schema).mapM (readColumn E agg options.quantiles) = .ok report.columns) := by
  obtain ⟨schema, hschema, h⟩ := Traverse.bind_eq_ok h
  refine ⟨schema, Traverse.ok_of_mapError hschema, ?_⟩
  dsimp only at h
  split_ifs at h with hempty
  · refine Or.inl ⟨by simpa [profileColumns] using hempty, ?_⟩
    obtain rfl := Except.ok.inj h
    rfl
  · obtain ⟨exprs, hexprs, h⟩ := Traverse.bind_eq_ok h
    obtain ⟨agg, hagg, h⟩ := Traverse.bind_eq_ok h
    obtain ⟨frame, hframe, hselect⟩ := Traverse.bind_eq_ok (Traverse.ok_of_mapError hagg)
    obtain ⟨_, _, h⟩ := Traverse.bind_eq_ok h
    obtain ⟨_, _, h⟩ := Traverse.bind_eq_ok h
    obtain ⟨outCols, hcols, h⟩ := Traverse.bind_eq_ok h
    obtain rfl := Except.ok.inj h
    exact Or.inr ⟨exprs, frame, agg, hexprs, hframe, hselect, hcols⟩

theorem readNumeric_ok {agg : Polars.DataFrame} {quantiles : List Binary64} {name : String} {n : NumericProfile}
    (h : readNumeric E agg quantiles name = .ok n) : quantiles.mapM (readQuantile E agg name) = .ok n.quantiles := by
  obtain ⟨_, _, h⟩ := Traverse.bind_eq_ok h
  obtain ⟨_, _, h⟩ := Traverse.bind_eq_ok h
  obtain ⟨_, _, h⟩ := Traverse.bind_eq_ok h
  obtain ⟨_, _, h⟩ := Traverse.bind_eq_ok h
  obtain ⟨_, _, h⟩ := Traverse.bind_eq_ok h
  obtain ⟨_, _, h⟩ := Traverse.bind_eq_ok h
  obtain ⟨qs, hqs, h⟩ := Traverse.bind_eq_ok h
  obtain rfl := Except.ok.inj h
  exact hqs

/-- the numbers of a numeric column are read from the aggregation -/
theorem readColumn_ok {agg : Polars.DataFrame} {quantiles : List Binary64} {c : Column} {p : ColumnProfile}
    (h : readColumn E agg quantiles c = .ok p) :
    p.name = c.1 ∧ p.dataType = c.2.1 ∧ ∀ n, p.numeric = some n → c.2.2 = true ∧
      quantiles.mapM (readQuantile E agg c.1) = .ok n.quantiles := by
  obtain ⟨_, _, h⟩ := Traverse.bind_eq_ok h
  obtain ⟨_, _, h⟩ := Traverse.bind_eq_ok h
  obtain ⟨_, _, h⟩ := Traverse.bind_eq_ok h
  obtain ⟨_, _, h⟩ := Traverse.bind_eq_ok h
  obtain ⟨numeric, hnumeric, h⟩ := Traverse.bind_eq_ok h
  obtain rfl := Except.ok.inj h
  refine ⟨rfl, rfl, fun n hn => ?_⟩
  obtain rfl : numeric = some n := hn
  obtain ⟨name, dt, isNumeric⟩ := c
  cases isNumeric with
  | false => cases hnumeric
  | true =>
    refine ⟨rfl, ?_⟩
    cases hread : readNumeric E agg quantiles name with
    | error e => simp [hread, Except.map] at hnumeric
    | ok n' =>
      obtain rfl : n' = n := by simpa [hread, Except.map] using hnumeric
      exact readNumeric_ok hread

/-- the value of a quantile of a column, as the engine computes it for that quantile alone -/
def Computed (E : Engine) (df : LazyFrame) (name : String) (q : Binary64) (v : Option Binary64) : Prop :=
  ∃ frame s, df.frame = .ok frame ∧ (quantileOf name q).eval E frame = .ok s ∧ anyToF64 E s 0 = .ok v

/-- the selection has an expression for every quantile of a numeric column -/
theorem quantile_mem {quantiles : List Binary64} {cols : List Column} {exprs : List Expr}
    (h : profileExprs quantiles cols = .ok exprs) {c : Column} (hc : c ∈ cols) (hnumeric : c.2.2 = true) {q : Binary64}
    (hq : q ∈ quantiles) : .alias (quantileOf c.1 q) (label c.1 (quantileMetric q)) ∈ exprs := by
  obtain ⟨perColumn, hcols, h⟩ := Traverse.bind_eq_ok h
  obtain rfl := Except.ok.inj h
  obtain ⟨es, hes, hcolumn⟩ := Traverse.exists_of_mem (Traverse.mapM_eq_ok_iff.1 hcols) hc
  unfold columnExprs at hcolumn
  rw [hnumeric] at hcolumn
  obtain ⟨qs, hqs, hcolumn⟩ := Traverse.bind_eq_ok hcolumn
  obtain rfl := Except.ok.inj hcolumn
  obtain ⟨e, he, hexpr⟩ := Traverse.exists_of_mem (Traverse.mapM_eq_ok_iff.1 hqs) hq
  unfold quantileExpr at hexpr
  split_ifs at hexpr
  obtain rfl := Except.ok.inj hexpr
  exact List.mem_cons_of_mem _ (List.mem_flatten.2 ⟨_, hes, List.mem_append_right _ he⟩)

/-- what is read for a quantile is the value of its own expression -/
theorem readQuantile_computed {frame agg : Polars.DataFrame} (hframe : df.frame = .ok frame) {exprs : List Expr}
    (hselect : Polars.select E frame exprs = .ok agg) {name : String} {q : Binary64} {r : Binary64 × Option Binary64}
    (hmem : .alias (quantileOf name q) (label name (quantileMetric q)) ∈ exprs) (h : readQuantile E agg name q = .ok r) :
    r.1 = q ∧ Computed E df name q r.2 := by
  obtain ⟨col, hcol, h⟩ := Traverse.bind_eq_ok h
  obtain ⟨v, hv, h⟩ := Traverse.bind_eq_ok h
  obtain rfl := Except.ok.inj h
  obtain ⟨s, hs, hcolumn⟩ := Polars.select_column hselect hmem
  rw [Traverse.ok_of_mapError hcol] at hcolumn
  obtain rfl := Except.ok.inj hcolumn
  exact ⟨rfl, frame, s, hframe, hs, hv⟩

/-- **What a report says of a quantile** was computed for that quantile -/
theorem profileFrame_quantiles (h : profileFrame E df options = .ok report) :
    ∀ c ∈ report.columns, ∀ n, c.numeric = some n →
      List.Forall₂ (fun q r => r.1 = q ∧ Computed E (sampled df options.sampling) c.name q r.2) options.quantiles
        n.quantiles := by
  intro p hp n hn
  obtain ⟨schema, -, ⟨-, hnone⟩ | ⟨exprs, frame, agg, hexprs, hframe, hselect, hcols⟩⟩ := profileFrame_ok h
  · rw [hnone] at hp
    cases hp
  · obtain ⟨c, hc, hread⟩ := Traverse.exists_of_mem (Traverse.mapM_eq_ok_iff.1 hcols).flip hp
    obtain ⟨hname, -, hnumeric⟩ := readColumn_ok hread
    obtain ⟨htrue, hqs⟩ := hnumeric n hn
    rw [hname]
    have hread := (List.forall₂_and_left _ _).2
      ⟨fun q hq => quantile_mem hexprs hc htrue hq, Traverse.mapM_eq_ok_iff.1 hqs⟩
    exact hread.imp fun q r ⟨hmem, hq⟩ => readQuantile_computed hframe hselect hmem hq

end Report

/-- profiling serves the quantiles: the names are distinct, the engine takes the selection when it can compute each of its
cells, and every quantile is read back from its own expression -/
structure ServesQuantiles (schema : List (String × PType)) (quantiles : List Binary64) : Prop where
  names : ∃ exprs, profileExprs quantiles (profileColumns schema) = .ok exprs ∧ (exprs.map Expr.outputName).Nodup
  accepted : ∀ exprs, profileExprs quantiles (profileColumns schema) = .ok exprs → ∀ (E : Engine) (frame : Polars.DataFrame),
    (∀ e ∈ exprs, ∃ s, e.eval E frame = .ok s ∧ s.cells.length = 1) → ∃ agg, Polars.select E frame exprs = .ok agg
  readBack : ∀ (E : Engine) (df : LazyFrame) (sampling : SamplingMode) (report : ProfileReport),
    (sampled df sampling).schema = .ok schema → profileFrame E df ⟨sampling, quantiles⟩ = .ok report →
    ∀ c ∈ report.columns, ∀ n, c.numeric = some n →
      List.Forall₂ (fun q r => r.1 = q ∧ Computed E (sampled df sampling) c.name q r.2) quantiles n.quantiles

/-- **When profiling serves valid quantiles**: no two of them round to one percentage, or no column is numeric -/
theorem profile_quantiles_iff (schema : List (String × PType)) (quantiles : List Binary64)
    (hnames : (schema.map Prod.fst).Nodup) (hq : ∀ q ∈ quantiles, inUnit q) :
    ServesQuantiles schema quantiles ↔
      (∀ f ∈ schema, (polarsDtypeToProfileDtype f.2).2 = false) ∨ (quantiles.map pct).Nodup := by
  have hexprs := profileExprs_ok hq (profileColumns schema)
  have hcols : ((profileColumns schema).map Prod.fst).Nodup := by
    rw [profileColumns, List.map_map]
    exact hnames
  have hnumeric : (∀ c ∈ profileColumns schema, c.2.2 = false) ↔
      ∀ f ∈ schema, (polarsDtypeToProfileDtype f.2).2 = false := by
    rw [profileColumns, List.forall_mem_map]
  have hiff : ((exprList quantiles (profileColumns schema)).map Expr.outputName).Nodup ↔ _ := nodup_names_iff hcols
  rw [hnumeric] at hiff
  constructor
  · rintro ⟨⟨exprs, hok, hnodup⟩, -, -⟩
    obtain rfl := Except.ok.inj (hexprs.symm.trans hok)
    exact hiff.1 hnodup
  · intro h
    refine ⟨⟨_, hexprs, hiff.2 h⟩, fun exprs hok E frame hcells => ?_, fun E df sampling report _ hreport => ?_⟩
    · obtain rfl := Except.ok.inj (hexprs.symm.trans hok)
      exact Polars.select_cells (exprList_alias _ _) (hiff.2 h) hcells
    · exact profileFrame_quantiles hreport

theorem default_quantiles_serve : ServesQuantiles [("score", .float64)] ProfileOptions.default.quantiles :=
  (profile_quantiles_iff _ _ (by decide) (by decide +kernel)).2 (Or.inr (by decide +kernel))

/-- **Close quantiles collide**: 0.991 and 0.994 are distinct, valid, and both p99, so the selection is refused -/
theorem close_quantiles_collide :
    [Binary64.ofRatio false 991 1000, .ofRatio false 994 1000].Nodup ∧
    (∀ q ∈ [Binary64.ofRatio false 991 1000, .ofRatio false 994 1000], inUnit q = true) ∧
    ¬ServesQuantiles [("score", .float64)] [.ofRatio false 991 1000, .ofRatio false 994 1000] := by
  have hvalid : ∀ q ∈ [Binary64.ofRatio false 991 1000, .ofRatio false 994 1000], inUnit q = true := by decide +kernel
  have hpct : pct (.ofRatio false 991 1000) = pct (.ofRatio false 994 1000) := by decide +kernel
  refine ⟨by decide +kernel, hvalid, fun h => ?_⟩
  obtain ⟨exprs, hok, hnodup⟩ := h.names
  obtain rfl := Except.ok.inj ((profileExprs_ok hvalid _).symm.trans hok)
  rcases (nodup_names_iff (by decide)).1 hnodup with hnone | hdistinct
  · exact absurd (hnone _ List.mem_cons_self) (by decide)
  · rw [List.map_cons, List.map_cons, hpct] at hdistinct
    exact absurd hdistinct (by simp)

end RustDataProcessing.Profiling
