/-
A validation report, against what the rows say (`validate_dataset` in `src/validation/mod.rs`).

The checks are compiled to expressions, all counts are computed by one selection, and the examples by one query a check.
Here the report is put beside the one that looks at the rows one after the other (`reference`). As in `Validation`, the
column names are no patterns of the engine's.

- `validate_is_reference`: where every check suits its column, the two reports are the same: counts, examples, messages
  and summary. A column that is checked for duplicates suits when it holds no NaN and no -0 (`Suits`), which the engine may
  tell apart otherwise than their bits do; the limit of the examples is passed on as 32 bits (`maxExamples % 2 ^ 32`).
-/
import Mathlib.Tactic
import RustDataProcessing.Pipeline.Steps
import RustDataProcessing.Processing.Frequency
import RustDataProcessing.Validation
import RustDataProcessing.Validation.Operators

namespace RustDataProcessing.Validation

open Polars (Engine Expr LazyFrame AnyValue Series PolarsError)
open Query (checkingEngine comparable membership number totLt lengthOf matching isNumeric PlainCell)
open Pipeline (optionCells)
open Ingestion (toAnyValue targetType rowCell datasetFrame Loadable)

/-! ## The reference -/

def Check.column : Check → String
  | .notNull column _ => column
  | .rangeF64 column _ _ _ => column
  | .regexMatch column _ _ _ => column
  | .inSet column _ _ => column
  | .unique column _ => column
  | .utf8LenCharsBetween column _ _ _ => column

/-- the cells of a column, row by row -/
def cellsOf (ds : DataSet) (column : String) : List Value :=
  (ds.schema.indexOf column).elim [] fun idx => ds.rows.map (rowCell idx)

/-- a cell as a text -/
def textOf (E : Engine) (v : Value) : Option String := E.stringOf (toAnyValue v)

/-- a row fails a check by its cell; a duplicate is not a matter of one row -/
def fails (E : Engine) (compile : String → Option (String → Bool)) : Check → Value → Bool
  | .notNull _ _, v => v = .null
  | .rangeF64 _ min max _, v => (number v).any fun x => totLt x min || totLt max x
  | .regexMatch _ pattern _ _, v => (textOf E v).any fun t => (compile pattern).any fun m => !m t
  | .inSet _ values _, v => outside (members values) v
  | .unique _ _, _ => false
  | .utf8LenCharsBetween _ minChars maxChars _, v =>
    let n := (textOf E v).elim 0 lengthOf
    decide (n < minChars) || decide (maxChars < n)

/-- the values beyond the first of their kind -/
def duplicates (cells : List Value) : ℕ :=
  let vs := cells.filter (· ≠ .null)
  vs.length - vs.toFinset.card

def failedCountOf (E : Engine) (compile : String → Option (String → Bool)) (chk : Check) (cells : List Value) : ℕ :=
  match chk with
  | .unique _ _ => duplicates cells
  | chk => cells.countP (fails E compile chk)

def resultOf (E : Engine) (compile : String → Option (String → Bool)) (maxExamples : ℕ) (ds : DataSet) (chk : Check) :
    CheckResult :=
  let cells := cellsOf ds chk.column
  let n := failedCountOf E compile chk cells
  ⟨chk, n, (cells.filter (fails E compile chk)).take (maxExamples % 2 ^ 32), defaultMessage chk n⟩

instance : Max Severity := ⟨Severity.max⟩

def summaryOf (results : List CheckResult) : ValidationSummary where
  totalChecks := results.length
  failedChecks := results.countP fun r => 0 < r.failedCount
  maxSeverity := ((results.filter fun r => 0 < r.failedCount).map fun r => severityOf r.check).max?

def reference (E : Engine) (compile : String → Option (String → Bool)) (ds : DataSet) (spec : ValidationSpec) :
    ValidationReport :=
  let results := spec.checks.map (resultOf E compile spec.maxExamples ds)
  ⟨results, summaryOf results⟩

/-- what a check asks of its column; duplicates are counted where equal cells have equal bits -/
def Suits (compile : String → Option (String → Bool)) (dt : DataType) (cells : List Value) : Check → Prop
  | .rangeF64 _ _ _ _ => isNumeric dt
  | .regexMatch _ pattern _ strict => (compile pattern).isSome ∨ strict = false
  | .inSet _ values _ => comparable dt (listType values)
  | .unique _ _ => ∀ v ∈ cells, PlainCell v
  | _ => True

/-- the column is there, and the check suits it -/
def Checkable (compile : String → Option (String → Bool)) (ds : DataSet) (chk : Check) : Prop :=
  ∃ idx field, ds.schema.indexOf chk.column = some idx ∧ ds.schema.fields[idx]? = some field ∧
    Suits compile field.dataType (ds.rows.map (rowCell idx)) chk

/-! ## One check on one column -/

/-- the cell of a check's predicate -/
def mask (E : Engine) (compile : String → Option (String → Bool)) : Check → Value → Option Bool
  | .notNull _ _, v => some (v = .null)
  | .rangeF64 _ min max _, v => (number v).map fun x => totLt x min || totLt max x
  | .regexMatch _ pattern _ _, v => (matching (compile pattern) (textOf E v)).map Bool.not
  | .inSet _ values _, v => (membership (members values) v).map Bool.not
  | .unique _ _, _ => none
  | .utf8LenCharsBetween _ minChars maxChars _, v =>
    let n := (textOf E v).elim 0 lengthOf
    some (decide (n < minChars) || decide (maxChars < n))

theorem mask_eq_true (E : Engine) (compile : String → Option (String → Bool)) (chk : Check) (v : Value) :
    mask E compile chk v = some true ↔ fails E compile chk v = true := by
  cases chk with
  | notNull => simp [mask, fails]
  | rangeF64 column min max => cases h : number v <;> simp [mask, fails, h]
  | regexMatch column pattern =>
    cases ht : textOf E v <;> cases hm : compile pattern <;> simp [mask, fails, matching, ht, hm]
  | inSet column values =>
    by_cases hv : v = .null <;> simp [mask, fails, membership, outside, hv]
  | unique => simp [mask, fails]
  | utf8LenCharsBetween => simp [mask, fails]

theorem toAnyValue_isNull (v : Value) : (toAnyValue v).isNull = decide (v = .null) := by cases v <;> rfl

theorem toAnyValue_isScalar (v : Value) : (toAnyValue v).isScalar = true := by cases v <;> rfl

theorem optionCells_map {α β : Type} (mk : β → AnyValue) (f : α → Option β) (xs : List α) :
    optionCells mk (xs.map f) = xs.map fun a => (f a).elim .null mk := List.map_map

section Column

variable {E : Engine} {compile : String → Option (String → Bool)} (hE : Query.Checking E compile) {df : Polars.DataFrame}
  {column name : String} {dt : DataType} {cells : List Value}
  (hcol : (Expr.col column).eval E df = .ok ⟨name, targetType dt, cells.map toAnyValue⟩)
  (hcells : ∀ v ∈ cells, v.fits dt)
include hE hcol

/-- the column as texts -/
theorem eval_text : ((Expr.col column).cast .string).eval E df =
    .ok ⟨name, .string, optionCells .string (cells.map (textOf E))⟩ := by
  have hcell : ∀ v : Value, E.castCell .string (toAnyValue v) = (textOf E v).elim .null .string := fun v => by
    obtain ⟨o, ho, hscalar⟩ := hE.nonStrict.to_string (toAnyValue v)
    rw [ho, hscalar (toAnyValue_isScalar v), textOf]
  refine (Expr.eval_unary hcol _).trans ?_
  change E.cast _ _ = _
  rw [Polars.Engine.cast, if_pos (hE.castText dt), List.map_map, optionCells_map]
  congr 2
  exact List.map_congr_left fun v _ => hcell v

/-- the lengths of the column's texts; a null has none, and counts as empty -/
theorem eval_lengths : (((Expr.col column).cast .string).lenChars.fillNull (Polars.lit .uint32 (.uint32 0))).eval E df =
    .ok ⟨name, .uint32, (cells.map fun v => (textOf E v).elim 0 lengthOf).map .uint32⟩ := by
  have hlengths := (Expr.eval_unary (eval_text hE hcol) .lenChars).trans (hE.lenChars _ _)
  refine (Expr.eval_binary hlengths (Query.eval_lit _ _ _ _) _).trans ((hE.fillLength _ _ _).trans ?_)
  rw [List.map_map, List.map_map, List.map_map]
  congr 2
  refine List.map_congr_left fun v _ => ?_
  cases h : textOf E v <;> simp [h]

include hcells

/-- **The predicate of a check**, cell by cell -/
theorem eval_predicate {chk : Check} {predicate : Expr} (hchk : examplePredicate chk = some (column, predicate))
    (hsuits : Suits compile dt cells chk) :
    predicate.eval E df = .ok ⟨name, .boolean, optionCells .boolean (cells.map (mask E compile chk))⟩ := by
  cases chk with
  | notNull _ severity =>
    cases hchk
    refine (Expr.eval_unary hcol .isNull).trans ?_
    change Except.ok (Series.mk name _ _) = _
    rw [List.map_map, optionCells_map]
    congr 2
    exact List.map_congr_left fun v _ => congrArg AnyValue.boolean (toAnyValue_isNull v)
  | rangeF64 _ min max severity =>
    cases hchk
    have hless := (Expr.eval_binary hcol (Query.eval_lit _ _ _ _) .lt).trans
      (hE.less name dt cells min hsuits hcells)
    have hgreater := (Expr.eval_binary hcol (Query.eval_lit _ _ _ _) .gt).trans
      (hE.greater name dt cells max hsuits hcells)
    refine (Expr.eval_binary hless hgreater .or).trans ((hE.or _ _ _ _ (by simp)).trans ?_)
    rw [List.zipWith_map, List.zipWith_self]
    congr 3
    refine List.map_congr_left fun v _ => ?_
    cases h : number v with
    | none => simp [mask, h, Query.kleeneOr]
    | some x => cases hmin : totLt x min <;> cases hmax : totLt max x <;> simp [mask, h, hmin, hmax, Query.kleeneOr]
  | regexMatch _ pattern severity strict =>
    cases hchk
    have hcontains := (Expr.eval_binary (eval_text hE hcol) (Query.eval_lit _ _ _ _) (.contains strict)).trans
      (hE.contains _ pattern strict _ hsuits)
    refine (Expr.eval_unary hcontains .not).trans ((hE.not _ _).trans ?_)
    rw [List.map_map, List.map_map]
    rfl
  | inSet _ values severity =>
    cases hchk
    have hset : ∀ v ∈ members values, v.hasType (listType values) = true := fun v hv => hasType_of_mem_members hv
    have hlit : (Expr.lit (valuesToSeries values)).eval E df =
        .ok ⟨"set", targetType (listType values), (members values).map toAnyValue⟩ := by
      rw [valuesToSeries_eq]
      rfl
    have hisIn := (Expr.eval_binary hcol hlit (.isIn false)).trans
      (hE.isIn name "set" dt _ cells _ (listType_ne values) hsuits hcells hset)
    refine (Expr.eval_unary hisIn .not).trans ((hE.not _ _).trans ?_)
    rw [List.map_map]
    rfl
  | unique => cases hchk
  | utf8LenCharsBetween _ minChars maxChars severity =>
    cases hchk
    have hlengths := eval_lengths hE hcol
    have hshorter := (Expr.eval_binary hlengths (Query.eval_lit _ _ _ _) .lt).trans (hE.shorter _ _ minChars)
    have hlonger := (Expr.eval_binary hlengths (Query.eval_lit _ _ _ _) .gt).trans (hE.longer _ _ maxChars)
    refine (Expr.eval_binary hshorter hlonger .or).trans ((hE.or _ _ _ _ (by simp)).trans ?_)
    rw [List.map_map, List.map_map, List.zipWith_map, List.zipWith_self]
    congr 3
    refine List.map_congr_left fun v _ => ?_
    by_cases hmin : (textOf E v).elim 0 lengthOf < minChars <;>
      by_cases hmax : maxChars < (textOf E v).elim 0 lengthOf <;> simp [mask, hmin, hmax, Query.kleeneOr]

/-- the duplicates of a column: the rows with a value less the distinct values -/
theorem eval_duplicates (hplain : ∀ v ∈ cells, PlainCell v) (hrows : cells.length ≤ E.maxRows) : ∃ t,
    ((Expr.col column).isNotNull.sum.sub (Expr.col column).dropNulls.nUnique).eval E df =
      .ok ⟨name, t, [E.idxSize (duplicates cells)]⟩ := by
  let vs := cells.filter (· ≠ .null)
  have hvs : ∀ v ∈ vs, v ∈ cells ∧ v ≠ Value.null := fun v hv => by simpa using List.mem_filter.1 hv
  -- the rows with a value
  obtain ⟨t, hsum⟩ := hE.sumBoolean (cells.map fun v => some (decide (v ≠ Value.null)))
  have hcount : (cells.map fun v => some (decide (v ≠ Value.null))).count (some true) = vs.length := by
    rw [List.count, List.countP_map, List.countP_eq_length_filter]
    congr 1
    exact List.filter_congr fun v _ => by simp
  rw [hcount] at hsum
  have hpresent : (Expr.col column).isNotNull.eval E df =
      .ok ⟨name, .boolean, optionCells .boolean (cells.map fun v => some (decide (v ≠ Value.null)))⟩ := by
    refine (Expr.eval_unary hcol .isNotNull).trans ?_
    change Except.ok (Series.mk name _ _) = _
    rw [List.map_map, optionCells_map]
    congr 2
    exact List.map_congr_left fun v _ => by simp [toAnyValue_isNull]
  -- and their distinct values
  obtain ⟨t', hdistinct⟩ := hE.distinct (fun v hv => ((hcells v (hvs v hv).1).resolve_left (hvs v hv).2))
    fun v hv => hplain v (hvs v hv).1
  have hdrop : (Expr.col column).dropNulls.eval E df = .ok ⟨name, targetType dt, vs.map toAnyValue⟩ := by
    refine (Expr.eval_unary hcol .dropNulls).trans ?_
    change Except.ok (Series.mk name _ _) = _
    rw [List.filter_map]
    congr 3
    exact List.filter_congr fun v _ => by simp [toAnyValue_isNull]
  have hle : vs.length ≤ E.maxRows := (List.length_filter_le _ _).trans hrows
  exact ⟨t, (Expr.eval_binary (Expr.eval_aggregate hpresent hsum) (Expr.eval_aggregate hdrop hdistinct) .sub).trans
    (hE.subRows name name t t' _ _ (List.toFinset_card_le vs) hle)⟩

end Column

/-! ## One check in the report -/

theorem examplePredicate_eq_none {chk : Check} (h : examplePredicate chk = none) :
    ∃ column severity, chk = .unique column severity := by
  cases chk <;> first | exact ⟨_, _, rfl⟩ | cases h

theorem examplePredicate_column {chk : Check} {colName : String} {predicate : Expr}
    (h : examplePredicate chk = some (colName, predicate)) : colName = chk.column := by
  cases chk <;> cases h <;> rfl

/-- but for the check of duplicates, the rows that fail are counted -/
theorem failedCountOf_eq {E : Engine} {compile : String → Option (String → Bool)} {chk : Check}
    {p : String × Expr} (h : examplePredicate chk = some p) (cells : List Value) :
    failedCountOf E compile chk cells = cells.countP (fails E compile chk) := by
  cases chk <;> first | rfl | cases h

/-- without a failed row there are no examples -/
theorem none_fails {E : Engine} {compile : String → Option (String → Bool)} {chk : Check} {cells : List Value}
    (h : failedCountOf E compile chk cells = 0) : cells.filter (fails E compile chk) = [] := by
  cases hpred : examplePredicate chk with
  | some p =>
    rw [failedCountOf_eq hpred, List.countP_eq_length_filter] at h
    exact List.eq_nil_of_length_eq_zero h
  | none =>
    obtain ⟨column, severity, rfl⟩ := examplePredicate_eq_none hpred
    simp [fails]

theorem count_mask (E : Engine) (compile : String → Option (String → Bool)) (chk : Check) (cells : List Value) :
    (cells.map (mask E compile chk)).count (some true) = cells.countP (fails E compile chk) := by
  rw [List.count, List.countP_map]
  refine List.countP_congr fun v _ => ?_
  rw [Function.comp_apply, beq_iff_eq, mask_eq_true]

theorem failedCountOf_le (E : Engine) (compile : String → Option (String → Bool)) (chk : Check) (cells : List Value) :
    failedCountOf E compile chk cells ≤ cells.length := by
  cases h : examplePredicate chk with
  | some p => exact (failedCountOf_eq h cells).trans_le List.countP_le_length
  | none =>
    obtain ⟨column, severity, rfl⟩ := examplePredicate_eq_none h
    exact (Nat.sub_le _ _).trans (List.length_filter_le _ _)

/-- the rows a predicate keeps are those that fail -/
theorem keep_mask (E : Engine) (compile : String → Option (String → Bool)) (chk : Check) (cells : List Value) :
    Polars.keep (optionCells .boolean (cells.map (mask E compile chk))) (cells.map toAnyValue) =
      (cells.filter (fails E compile chk)).map toAnyValue := by
  induction cells with
  | nil => rfl
  | cons v cells ih =>
    by_cases hv : fails E compile chk v
    · rw [List.filter_cons_of_pos hv, List.map_cons, List.map_cons, List.map_cons, optionCells, List.map_cons,
        (mask_eq_true E compile chk v).2 hv]
      exact congrArg (List.cons (toAnyValue v)) ih
    · rw [List.filter_cons_of_neg hv, ← ih]
      have hmask := mt (mask_eq_true E compile chk v).1 hv
      rcases hm : mask E compile chk v with - | b
      · simp [optionCells, hm, Polars.keep]
      · cases b with
        | false => simp [optionCells, hm, Polars.keep]
        | true => exact absurd hm hmask

section Column

variable {E : Engine} {compile : String → Option (String → Bool)} (hE : Query.Checking E compile) {df : Polars.DataFrame}
  {name : String} {dt : DataType} {cells : List Value} {chk : Check}
  (hcol : (Expr.col chk.column).eval E df = .ok ⟨name, targetType dt, cells.map toAnyValue⟩)
  (hcells : ∀ v ∈ cells, v.fits dt) (hsuits : Suits compile dt cells chk)
include hE hcol hcells hsuits

/-- **The count of a check** is the one of the rows -/
theorem eval_failCount (hrows : cells.length ≤ E.maxRows) : ∃ name' t,
    (failCountExpr chk).eval E df = .ok ⟨name', t, [E.idxSize (failedCountOf E compile chk cells)]⟩ := by
  cases hpred : examplePredicate chk with
  | some p =>
    obtain ⟨colName, predicate⟩ := p
    obtain rfl := examplePredicate_column hpred
    obtain ⟨t, hsum⟩ := hE.sumBoolean (cells.map (mask E compile chk))
    rw [count_mask, ← failedCountOf_eq hpred] at hsum
    rw [examples_are_failures hpred]
    exact ⟨name, t, Expr.eval_aggregate (eval_predicate hE hcol hcells hpred hsuits) hsum⟩
  | none =>
    obtain ⟨column, severity, rfl⟩ := examplePredicate_eq_none hpred
    obtain ⟨t, hsub⟩ := eval_duplicates hE hcol hcells hsuits hrows
    exact ⟨"__dup", t, Expr.eval_alias hsub "__dup"⟩

end Column

/-! ## The examples -/

/-- a column of a frame whose columns have been shortened alike -/
theorem column_mapCells {df df' : Polars.DataFrame} {f : List AnyValue → List AnyValue}
    (hcols : df'.columns = df.columns.map fun c => { c with cells := f c.cells }) {name : String} {s : Series}
    (h : df.column name = .ok s) : df'.column name = .ok { s with cells := f s.cells } := by
  unfold Polars.DataFrame.column at h ⊢
  rw [hcols, List.find?_map]
  cases hfind : df.columns.find? (fun c => c.name = name) with
  | none =>
    rw [hfind] at h
    cases h
  | some c =>
    rw [hfind] at h
    obtain rfl := Except.ok.inj h
    have hsame : df.columns.find? ((fun c => decide (c.name = name)) ∘ fun c : Series => { c with cells := f c.cells }) =
        some c := hfind
    rw [hsame]
    rfl

/-- a column of the rows that a predicate keeps -/
theorem filter_column {E : Engine} {df : Polars.DataFrame} {predicate : Expr} {name column : String} {kept : List AnyValue}
    {s : Series} (hmask : predicate.eval E df = .ok ⟨name, .boolean, kept⟩) (hlength : kept.length = df.height)
    (hcol : df.column column = .ok s) : ∃ failing, Polars.filter E df predicate = .ok failing ∧
      failing.column column = .ok { s with cells := Polars.keep kept s.cells } := by
  obtain ⟨failing, hfilter, hcolumns⟩ : ∃ failing, Polars.filter E df predicate = .ok failing ∧
      failing.columns = df.columns.map fun c => { c with cells := Polars.keep kept c.cells } := by
    rw [Polars.filter, hmask]
    exact ⟨_, dif_pos hlength, rfl⟩
  exact ⟨failing, hfilter, column_mapCells hcolumns hcol⟩

/-- a column by itself, and the first of it -/
theorem first_of_column (E : Engine) {df : Polars.DataFrame} {column : String} {s : Series}
    (hcol : df.column column = .ok s) (n : ℕ) : ∃ alone, Polars.select E df [.col column] = .ok alone ∧
      (Polars.limit alone n).column column = .ok { s with cells := s.cells.take (n % 2 ^ 32) } := by
  have hname : s.name = column := (Polars.DataFrame.column_mem hcol).2
  let alone : Polars.DataFrame := ⟨s.cells.length, [s], Pipeline.lone_column_height s⟩
  have halone : alone.column column = .ok s := by
    simp [alone, hname, Polars.DataFrame.column]
  refine ⟨alone, ?_, column_mapCells rfl halone⟩
  change ([Expr.col column].mapM (Expr.eval E df) >>= _) = _
  rw [List.mapM_cons, Expr.eval, hcol]
  exact Polars.DataFrame.new_eq (Pipeline.lone_column_height s) (List.nodup_singleton _)

/-- the cells of a column, read one after the other -/
theorem readAll (s : Series) (f : PolarsError → Fault) (g : AnyValue → Value) :
    ((List.range s.cells.length).mapM fun i => do
      let v ← (s.get i).mapError f
      pure (g v)) = .ok (s.cells.map g) := by
  refine Traverse.mapM_ok (List.forall₂_iff_get.2 ⟨by simp, fun i hi hi' => ?_⟩)
  have hlt : i < s.cells.length := by simpa using hi
  have hget : s.get i = .ok s.cells[i] := by
    unfold Series.get
    rw [List.getElem?_eq_getElem hlt]
  simp [hget, Except.mapError, bind, Except.bind, pure, Except.pure]

theorem anyToValue_toAnyValue (E : Engine) (v : Value) : anyToValue E (toAnyValue v) = v := by cases v <;> rfl

section Dataset

variable {E : Engine} {compile : String → Option (String → Bool)} (hE : Query.Checking E compile) {ds : DataSet}
  (hload : Loadable E.maxRows ds) {chk : Check} (hcheck : Checkable compile ds chk)
include hload hcheck

/-- the column of a check, and what it asks of it -/
theorem column_of_checkable : ∃ name dt, (Expr.col chk.column).eval E (datasetFrame ds) =
      .ok ⟨name, targetType dt, (cellsOf ds chk.column).map toAnyValue⟩ ∧ (∀ v ∈ cellsOf ds chk.column, v.fits dt) ∧
      Suits compile dt (cellsOf ds chk.column) chk ∧ (cellsOf ds chk.column).length = ds.rowCount ∧
      ds.schema.fields ≠ [] := by
  obtain ⟨idx, field, hidx, hfield, hsuits⟩ := hcheck
  have hcells : cellsOf ds chk.column = ds.rows.map (rowCell idx) := by rw [cellsOf, hidx]; rfl
  rw [hcells]
  refine ⟨field.name, field.dataType, ?_, ?_, hsuits, List.length_map _, List.ne_nil_of_mem (List.mem_of_getElem? hfield)⟩
  · rw [List.map_map]
    exact Ingestion.datasetFrame_column hidx hfield
  · exact List.forall_mem_map.2 (hload.typed idx field hfield)

include hE

/-- **The examples of a check** are the first of the rows that fail it -/
theorem collectExamples_eq (maxExamples : ℕ) : collectExamples E (.ofFrame (datasetFrame ds)) chk maxExamples =
    .ok (((cellsOf ds chk.column).filter (fails E compile chk)).take (maxExamples % 2 ^ 32)) := by
  cases hpred : examplePredicate chk with
  | none =>
    obtain ⟨column, severity, rfl⟩ := examplePredicate_eq_none hpred
    simp [collectExamples, hpred, fails]
  | some p =>
    obtain ⟨colName, predicate⟩ := p
    obtain rfl := examplePredicate_column hpred
    obtain ⟨name, dt, hcol, hcells, hsuits, hlength, -⟩ := column_of_checkable hload hcheck
    have hmask := eval_predicate hE hcol hcells hpred hsuits
    let s : Series := ⟨name, targetType dt, ((cellsOf ds chk.column).filter (fails E compile chk)).map toAnyValue⟩
    obtain ⟨failing, hfilter, hfailing⟩ := filter_column hmask (by simp [optionCells, hlength]; rfl) hcol
    rw [keep_mask] at hfailing
    obtain ⟨alone, hselect, hlimit⟩ := @first_of_column E failing chk.column s hfailing maxExamples
    have hread := readAll { s with cells := s.cells.take (maxExamples % 2 ^ 32) }
      (fun e => .error (Query.boxed "failed to read validation example" e)) (anyToValue E)
    -- the cast to `IdxSize` takes no more than is asked for
    have hmin : min maxExamples (s.cells.take (maxExamples % 2 ^ 32)).length =
        (s.cells.take (maxExamples % 2 ^ 32)).length := by
      have := Nat.mod_le maxExamples (2 ^ 32)
      rw [List.length_take]
      omega
    have hvalues : (s.cells.take (maxExamples % 2 ^ 32)).map (anyToValue E) =
        ((cellsOf ds chk.column).filter (fails E compile chk)).take (maxExamples % 2 ^ 32) := by
      rw [List.map_take, List.map_map]
      exact congrArg _ ((List.map_congr_left fun v _ => anyToValue_toAnyValue E v).trans (List.map_id _))
    rw [collectExamples, hpred]
    dsimp only [LazyFrame.ofFrame]
    rw [← hvalues, ← hread]
    simp only [hfilter, hselect, hlimit, hmin, bind, Except.bind, pure, Except.pure, Except.mapError]

end Dataset

/-! ## The report -/

theorem max?_push (o : Option Severity) (s : Severity) (rest : List Severity) :
    ((some (o.elim s fun t => t.max s)).toList ++ rest).max? = (o.toList ++ s :: rest).max? := by
  cases o <;> rfl

/-- what the loop has when it is over -/
theorem foldl_push (rs : List CheckResult) (p : Progress) : rs.foldl Progress.push p =
    ⟨p.results ++ rs, p.failedChecks + rs.countP fun r => 0 < r.failedCount,
      (p.maxSev.toList ++ (rs.filter fun r => 0 < r.failedCount).map fun r => severityOf r.check).max?⟩ := by
  induction rs generalizing p with
  | nil =>
    obtain ⟨results, failed, maxSev⟩ := p
    cases maxSev <;> simp
  | cons r rs ih =>
    rw [List.foldl_cons, ih, Progress.push]
    by_cases hr : 0 < r.failedCount
    · simp only [hr, if_true, List.append_assoc, List.singleton_append, List.countP_cons, List.filter_cons, decide_true,
        List.map_cons, max?_push]
      congr 1
      omega
    · simp [hr]

theorem runChecks_eq {E : Engine} {df : LazyFrame} {maxExamples : ℕ} {agg : Polars.DataFrame}
    {result : Check → CheckResult} {cs : List (Check × ℕ)}
    (h : ∀ c ∈ cs, checkResult E df maxExamples agg c = .ok (result c.1)) (p : Progress) :
    runChecks E df maxExamples agg cs p = .ok ((cs.map fun c => result c.1).foldl Progress.push p) := by
  induction cs generalizing p with
  | nil => rfl
  | cons c cs ih =>
    rw [runChecks, h c List.mem_cons_self]
    exact ih (fun c' hc' => h c' (List.mem_cons_of_mem _ hc')) _

theorem failCountColName_injective {i j : ℕ} (h : failCountColName i = failCountColName j) : i = j := by
  have hlist := congrArg String.toList h
  simp only [failCountColName, String.toList_append, List.append_cancel_left_eq] at hlist
  exact Processing.toString_nat_injective (String.toList_inj.1 hlist)

section Report

variable {E : Engine} {compile : String → Option (String → Bool)} (hE : Query.Checking E compile) {ds : DataSet}
  (hload : Loadable E.maxRows ds) {spec : ValidationSpec} (hchecks : ∀ chk ∈ spec.checks, Checkable compile ds chk)
include hE hload hchecks

/-- the counts are computed, each under the name of its check -/
theorem select_counts : ∃ agg, Polars.select E (datasetFrame ds) (countExprs spec) = .ok agg ∧
    ∀ chk i, spec.checks[i]? = some chk → ∃ t, agg.column (failCountColName i) =
      .ok ⟨failCountColName i, t, [E.idxSize (failedCountOf E compile chk (cellsOf ds chk.column))]⟩ := by
  have heval : ∀ chk ∈ spec.checks, ∃ name t, (failCountExpr chk).eval E (datasetFrame ds) =
      .ok ⟨name, t, [E.idxSize (failedCountOf E compile chk (cellsOf ds chk.column))]⟩ := by
    intro chk hchk
    obtain ⟨name, dt, hcol, hcells, hsuits, hlength, hne⟩ := column_of_checkable hload (hchecks chk hchk)
    exact eval_failCount hE hcol hcells hsuits (hlength.trans_le (hload.fewRows hne))
  have hnames : ((countExprs spec).map Expr.outputName).Nodup := by
    have hmap : (countExprs spec).map Expr.outputName = (spec.checks.zipIdx.map Prod.snd).map failCountColName := by
      rw [countExprs, List.map_map, List.map_map]
      rfl
    rw [hmap, List.zipIdx_map_snd]
    exact List.Nodup.map (fun _ _ => failCountColName_injective) List.nodup_range'
  obtain ⟨agg, hagg⟩ := @Polars.select_cells E (datasetFrame ds) (countExprs spec)
    (List.forall_mem_map.2 fun c _ => ⟨_, _, rfl⟩) hnames (List.forall_mem_map.2 fun c hc => by
      obtain ⟨name, t, h⟩ := heval c.1 (List.mem_of_getElem? (List.mem_zipIdx_iff_getElem?.1 hc))
      exact ⟨_, Expr.eval_alias h _, rfl⟩)
  refine ⟨agg, hagg, fun chk i hi => ?_⟩
  obtain ⟨name, t, h⟩ := heval chk (List.mem_of_getElem? hi)
  obtain ⟨s, hs, hcolumn⟩ := Polars.select_column hagg
    (List.mem_map.2 ⟨(chk, i), List.mem_zipIdx_iff_getElem?.2 hi, rfl⟩)
  rw [h] at hs
  obtain rfl := Except.ok.inj hs
  exact ⟨t, hcolumn⟩

/-- **A report is the reference report**: where the dataset can be loaded and every check suits its column -/
theorem validate_is_reference : validateDataset E ds spec = .ok (reference E compile ds spec) := by
  have hdf : Pipeline.DataFrame.fromDataset E ds = .ok (.ofFrame (datasetFrame ds)) := by
    rw [Pipeline.DataFrame.fromDataset, (Ingestion.datasetToDataframe_returns E.maxRows ds).eq_ok hload]
    rfl
  rw [validateDataset, hdf]
  change validateFrame E _ spec = _
  by_cases hnil : spec.checks = []
  · simp [validateFrame, reference, summaryOf, hnil]
  obtain ⟨agg, hagg, hcolumn⟩ := select_counts hE hload hchecks
  have hresult : ∀ c ∈ spec.checks.zipIdx, checkResult E (.ofFrame (datasetFrame ds)) spec.maxExamples agg c =
      .ok (resultOf E compile spec.maxExamples ds c.1) := by
    rintro ⟨chk, i⟩ hc
    have hi := List.mem_zipIdx_iff_getElem?.1 hc
    have hcheck := hchecks chk (List.mem_of_getElem? hi)
    obtain ⟨t, hcol⟩ := hcolumn chk i hi
    obtain ⟨-, -, -, -, -, hlength, hne⟩ := column_of_checkable hload hcheck
    have hrows := (failedCountOf_le E compile chk (cellsOf ds chk.column)).trans
      (hlength.trans_le (hload.fewRows hne))
    have husize := seriesToUsize_idxSize hE.toQuery hrows (failCountColName i) t
    have hexamples : (if 0 < failedCountOf E compile chk (cellsOf ds chk.column) ∧ 0 < spec.maxExamples then
          unwrapOrDefault (collectExamples E (.ofFrame (datasetFrame ds)) chk spec.maxExamples)
        else pure []) = .ok (resultOf E compile spec.maxExamples ds chk).examples := by
      split_ifs with hsome
      · rw [collectExamples_eq hE hload hcheck]
        rfl
      · rw [not_and_or, Nat.pos_iff_ne_zero, Nat.pos_iff_ne_zero, not_not, not_not] at hsome
        rcases hsome with hzero | hzero
        · simp [resultOf, none_fails hzero, pure, Except.pure]
        · simp [resultOf, hzero, pure, Except.pure]
    simp only [checkResult, hcol, husize, Except.mapError, bind, Except.bind, Option.getD_some] at hexamples ⊢
    rw [hexamples]
    rfl
  have hrun := runChecks_eq hresult .start
  have hresults : (spec.checks.zipIdx.map fun c => resultOf E compile spec.maxExamples ds c.1) =
      spec.checks.map (resultOf E compile spec.maxExamples ds) := by
    conv_rhs => rw [← List.zipIdx_map_fst 0 spec.checks, List.map_map]
    rfl
  rw [hresults, foldl_push] at hrun
  rw [validateFrame, if_neg (by simpa using hnil)]
  change (Except.mapError _ (Polars.select E (datasetFrame ds) _) >>= _) = _
  rw [hagg]
  change (runChecks E _ spec.maxExamples agg spec.checks.zipIdx .start >>= _) = _
  rw [hrun]
  simp [reference, summaryOf, Progress.start, bind, Except.bind, pure, Except.pure]

end Report

/-! ## A report -/

def people : DataSet := ⟨⟨[⟨"name", .utf8⟩, ⟨"age", .int64⟩]⟩,
  [[.utf8 "Ada", .int64 36], [.utf8 "Bob", .int64 200], [.null, .int64 17], [.utf8 "Ada", .null]]⟩

/-- one check of each kind -/
def peopleChecks : ValidationSpec := ⟨[.notNull "name" .error, .rangeF64 "age" (.ofInt 0) (.ofInt 150) .warn,
  .regexMatch "name" "da" .info true, .inSet "name" [.utf8 "Ada"] .warn, .unique "name" .error,
  .utf8LenCharsBetween "age" 1 2 .info], 1⟩

theorem loadable_people : Loadable checkingEngine.maxRows people where
  distinct := by decide
  fewRows _ := by decide
  typed i f hf := by
    rcases i with - | - | i
    · obtain rfl := Option.some.inj hf
      decide
    · obtain rfl := Option.some.inj hf
      decide
    · cases hf

theorem checkable_people : ∀ chk ∈ peopleChecks.checks, Checkable Query.findText people chk := by
  have hplain : ∀ v ∈ people.rows.map (rowCell 0), PlainCell v := by
    have hall : ∀ v ∈ people.rows.map (rowCell 0), ∀ x, v ≠ .float64 x := by simp [people, rowCell]
    exact fun v hv x hx => absurd hx (hall v hv x)
  simp only [peopleChecks, List.forall_mem_cons]
  exact ⟨⟨0, _, rfl, rfl, trivial⟩, ⟨1, _, rfl, rfl, rfl⟩, ⟨0, _, rfl, rfl, Or.inl rfl⟩, ⟨0, _, rfl, rfl, rfl⟩,
    ⟨0, _, rfl, rfl, hplain⟩, ⟨1, _, rfl, rfl, trivial⟩, List.forall_mem_nil _⟩

/-- a null, an age of 200, and a name that is there twice -/
theorem validate_people :
    validateDataset checkingEngine people peopleChecks = .ok (reference checkingEngine Query.findText people peopleChecks) ∧
    (reference checkingEngine Query.findText people peopleChecks).results.map
      (fun r => (r.failedCount, r.examples)) =
        [(1, [.null]), (1, [.int64 200]), (1, [.utf8 "Bob"]), (1, [.utf8 "Bob"]), (1, []), (2, [.int64 200])] :=
  ⟨validate_is_reference Query.checkingEngine_checks loadable_people checkable_people, by decide +kernel⟩

end RustDataProcessing.Validation
