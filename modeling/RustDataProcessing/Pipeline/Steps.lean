/-
The steps of a plan (`DataFrame` in `src/pipeline/mod.rs`: `select`, `drop`, `rename`, `cast_with_mode`, `fill_null`,
`with_literal`, `with_mul_f64` and `with_add_f64`).

A step adds an operation to the lazy plan. Its errors show when the plan is collected; only a null literal is refused at
once. A new column replaces the column of its name, or comes last. Where a step reads a column, `*` stands for all
columns and `^...$` for those that match; `drop`, `rename` and the names of new columns are literal.

The engine need not carry out a cast when nothing looks at its column. It then has a column of the type, whose cells
nobody sees, and no error.
-/
import Mathlib.Tactic
import RustDataProcessing.Pipeline.Collect

namespace RustDataProcessing.Pipeline

open Polars (Engine Expr PType AnyValue Series PolarsError lit)
open Ingestion (targetType toAnyValue)

/-- the engine with its two operators on a column and a literal, how it prints a type, and how it reads a pattern -/
structure ArithmeticEngine extends Engine where
  mul : Series → Series → Except PolarsError Series
  add : Series → Series → Except PolarsError Series
  typeText : PType → String
  /-- the names that match -/
  regex : String → Except PolarsError (String → Bool)

/-! ## Names -/

/-- `^...$` -/
def isRegex (name : String) : Bool := name.toList.head? = some '^' && name.toList.getLast? = some '$'

/-- a name that `col` does not take literally -/
def isPattern (name : String) : Bool := name = "*" || isRegex name

/-- the columns that `col(name)` stands for -/
def columnsOf (E : ArithmeticEngine) (columns : List String) (name : String) : Except PolarsError (List String) :=
  if name = "*" then .ok columns
  else if isRegex name then (E.regex name).map fun pattern => columns.filter pattern
  else .ok [name]

/-- whether a column is among them -/
def standsFor (E : ArithmeticEngine) (name column : String) : Bool :=
  ((columnsOf E [column] name).toOption.getD []).contains column

theorem columnsOf_literal (E : ArithmeticEngine) (columns : List String) {name : String} (h : isPattern name = false) :
    columnsOf E columns name = .ok [name] := by
  obtain ⟨hstar, hregex⟩ := Bool.or_eq_false_iff.1 h
  rw [columnsOf, if_neg (of_decide_eq_false hstar), hregex]
  rfl

/-! ## Frames -/

def requireNames (df : Polars.DataFrame) (names : List String) : Except PolarsError Unit :=
  names.forM fun name => (df.column name).map fun _ => ()

/-- all columns but these, which must exist -/
def dropColumns (E : Engine) (df : Polars.DataFrame) (names : List String) : Except PolarsError Polars.DataFrame := do
  requireNames df names
  Polars.select E df ((df.columns.filter fun c => c.name ∉ names).map fun c => .col c.name)

/-- the new name of a column: the last pair counts -/
def renamed (pairs : List (String × String)) (name : String) : String := (pairs.reverse.lookup name).getD name

/-- pairs of equal names are not looked at -/
def renameColumns (df : Polars.DataFrame) (pairs : List (String × String)) : Except PolarsError Polars.DataFrame := do
  let pairs := pairs.filter fun p => p.1 ≠ p.2
  requireNames df (pairs.map Prod.fst)
  Polars.DataFrame.new df.height (df.columns.map fun c => { c with name := renamed pairs c.name })

/-- a single cell is repeated -/
def broadcast (height : ℕ) (cells : List AnyValue) : Option (List AnyValue) :=
  if cells.length = height then some cells
  else match cells with
    | [v] => some (List.replicate height v)
    | _ => none

/-- a column in the place of that of its name, or at the end -/
def putColumn {α : Type} (name : α → String) (columns : List α) (c : α) : List α :=
  if columns.any (name · = name c) then columns.map fun d => if name d = name c then c else d else columns ++ [c]

theorem lone_column_height (s : Series) : ∀ c ∈ [s], c.cells.length = s.cells.length :=
  fun _ h => congrArg (fun d : Series => d.cells.length) (List.mem_singleton.1 h)

/-- a frame without columns takes the height of its first -/
def withColumn (df : Polars.DataFrame) (s : Series) : Except PolarsError Polars.DataFrame :=
  if df.columns.isEmpty then .ok ⟨s.cells.length, [s], lone_column_height s⟩
  else (broadcast df.height s.cells).elim (.error (.other "lengths don't match" [])) fun cells =>
    Polars.DataFrame.new df.height (putColumn Series.name df.columns { s with cells := cells })

/-! ## Plans -/

/-- the plan with an operation more; the columns it promises are looked at by none of the steps -/
def DataFrame.andThen (lf : DataFrame) (f : Polars.DataFrame → Except PolarsError Polars.DataFrame) : DataFrame where
  schema := (lf.frame >>= f).map fun df => df.columns.map fun c => (c.name, c.dtype)
  frame := lf.frame >>= f

/-- `with_columns([e.alias(name)])` -/
def DataFrame.withColumns (lf : DataFrame) (name : String) (e : Polars.DataFrame → Except PolarsError Series) :
    DataFrame :=
  lf.andThen fun df => do
    let s ← e df
    withColumn df { s with name := name }

/-- `with_columns([e(col(source)).alias(name)])`: without a column there is nothing to add, and two of one name are
refused -/
def DataFrame.withColumnsOf (E : ArithmeticEngine) (lf : DataFrame) (name source : String)
    (e : String → Polars.DataFrame → Except PolarsError Series) : DataFrame :=
  lf.andThen fun df => do
    match ← columnsOf E (df.columns.map Series.name) source with
    | [] => pure df
    | [column] => do
      let s ← e column df
      withColumn df { s with name := name }
    | _ => .error (.other "duplicate column name" [])

inductive CastMode where
  | strict
  | lossy
deriving DecidableEq, Repr

def valueToLitExpr : Value → IngestionResult Expr
  | .null => .error (.schemaMismatch
      "Value::Null is not supported as a literal expression; use fill_null or cast/collect to materialize")
  | .int64 v => .ok (lit .int64 (.int64 v))
  | .float64 v => .ok (lit .float64 (.float64 v))
  | .bool v => .ok (lit .boolean (.boolean v))
  | .utf8 v => .ok (lit .string (.string v))

/-- a cast of a column; one that is not carried out leaves cells that nobody sees -/
def castColumn (E : Engine) (carried : Bool) (target : PType) (mode : CastMode) (s : Series) :
    Except PolarsError Series :=
  if carried then
    match mode with
    | .strict => Polars.strictCast E s target
    | .lossy => E.cast s target
  else .ok ⟨s.name, target, s.cells.map fun _ => .null⟩

namespace DataFrame

def select (E : ArithmeticEngine) (lf : DataFrame) (columns : List String) : DataFrame :=
  lf.andThen fun df => do
    let names ← columns.mapM (columnsOf E (df.columns.map Series.name))
    Polars.select E.toEngine df (names.flatten.map .col)

def drop (E : Engine) (lf : DataFrame) (columns : List String) : DataFrame :=
  lf.andThen fun df => dropColumns E df columns

def rename (lf : DataFrame) (pairs : List (String × String)) : DataFrame :=
  lf.andThen fun df => renameColumns df pairs

def castWithMode (E : ArithmeticEngine) (carried : Bool) (lf : DataFrame) (column : String) (target : DataType)
    (mode : CastMode) : DataFrame :=
  lf.withColumnsOf E column column fun column df => do
    let s ← df.column column
    castColumn E.toEngine carried (targetType target) mode s

def fillNull (E : ArithmeticEngine) (lf : DataFrame) (column : String) (value : Value) : IngestionResult DataFrame := do
  let litExpr ← valueToLitExpr value
  pure (lf.withColumnsOf E column column fun column df => (Expr.fillNull (.col column) litExpr).eval E.toEngine df)

def withLiteral (E : Engine) (lf : DataFrame) (name : String) (value : Value) : IngestionResult DataFrame := do
  let litExpr ← valueToLitExpr value
  pure (lf.withColumns name (litExpr.eval E))

def withMulF64 (E : ArithmeticEngine) (lf : DataFrame) (name source : String) (factor : Binary64) : DataFrame :=
  lf.withColumnsOf E name source fun column df => do
    let s ← df.column column
    E.mul s ⟨"literal", .float64, [.float64 factor]⟩

def withAddF64 (E : ArithmeticEngine) (lf : DataFrame) (name source : String) (delta : Binary64) : DataFrame :=
  lf.withColumnsOf E name source fun column df => do
    let s ← df.column column
    E.add s ⟨"literal", .float64, [.float64 delta]⟩

end DataFrame

end RustDataProcessing.Pipeline
