/-
Transformation specs (`TransformSpec::apply` in `src/transform.rs`).

A spec is a list of steps and the schema of the result. Most steps are planned and run when the plan is collected; a step
on the texts of a column collects the plan so far, changes the dataset in place, and starts a new plan from it.

The engine plans a whole collection at once. A cast is carried out when its column, or one computed from it, is still
there at the collection (`lookedAt`); any other cast may be left out with its error, as the engine decides from the
plan (`Build.runsUnused`).
-/
import Mathlib.Tactic
import RustDataProcessing.Pipeline.Steps
import RustDataProcessing.Truncation

namespace RustDataProcessing.Transform

open Pipeline (ArithmeticEngine CastMode DataFrame standsFor renamed)
open Redaction (utf8FieldIndex utf8RedactMiddleDataset)
open Truncation (utf8TruncateDataset)

inductive TransformStep where
  | select (columns : List String)
  | drop (columns : List String)
  | rename (pairs : List (String × String))
  | cast (column : String) (target : DataType) (mode : CastMode)
  | fillNull (column : String) (value : Value)
  | withLiteral (name : String) (value : Value)
  | deriveMulF64 (name source : String) (factor : Binary64)
  | deriveAddF64 (name source : String) (delta : Binary64)
  | utf8Truncate (column : String) (maxChars : UInt64)
  | utf8Sha256Hex (column : String)
  | utf8RedactMiddle (column : String) (keepLeft keepRight : UInt64) (redaction : String)
deriving DecidableEq, Repr

structure TransformSpec where
  outputSchema : Schema
  steps : List TransformStep
deriving DecidableEq, Repr

/-- the build and the crates it uses: the column engine, `Sha256`, and whether sums of machine words are checked -/
structure Build extends ArithmeticEngine where
  sha256 : ByteArray → List UInt8
  overflowChecks : Bool
  /-- whether the engine carries out the cast at this place of a spec when nothing looks at its column -/
  runsUnused : Schema → List TransformStep → ℕ → Bool

/-! ## Columns that are looked at -/

/-- the columns computed from `names` when the column `name` is computed from `source` -/
def computedFrom (E : ArithmeticEngine) (names : List String) (name source : String) : List String :=
  if names.any (standsFor E source) then name :: names.filter (· ≠ name) else names.filter (· ≠ name)

/-- the columns computed from `names` after a step; none where the step collects them -/
def TransformStep.passesOn (E : ArithmeticEngine) (names : List String) : TransformStep → Option (List String)
  | .select columns => some (names.filter fun name => columns.any (standsFor E · name))
  | .drop columns => some (names.filter (· ∉ columns))
  | .rename pairs => some (names.map (renamed (pairs.filter fun p => p.1 ≠ p.2)))
  | .cast column _ _ => some (computedFrom E names column column)
  | .fillNull column _ => some (computedFrom E names column column)
  | .withLiteral name _ => some (names.filter (· ≠ name))
  | .deriveMulF64 name source _ => some (computedFrom E names name source)
  | .deriveAddF64 name source _ => some (computedFrom E names name source)
  | .utf8Truncate .. | .utf8Sha256Hex .. | .utf8RedactMiddle .. => none

/-- whether one of the columns, or one computed from them, is collected -/
def lookedAt (E : ArithmeticEngine) : List String → List TransformStep → Bool
  | names, [] => !names.isEmpty
  | names, s :: steps => match s.passesOn E names with
    | none => !names.isEmpty
    | some names => lookedAt E names steps

/-- the column of a cast -/
def TransformStep.castColumn : TransformStep → List String
  | .cast column _ _ => [column]
  | _ => []

/-- the steps, each with whether a cast there is carried out -/
def carriedOut (B : Build) (schema : Schema) (steps : List TransformStep) : List (TransformStep × Bool) :=
  steps.zipIdx.map fun s =>
    (s.1, lookedAt B.toArithmeticEngine s.1.castColumn (steps.drop (s.2 + 1)) || B.runsUnused schema steps s.2)

theorem carriedOut_steps (B : Build) (schema : Schema) (steps : List TransformStep) :
    (carriedOut B schema steps).map Prod.fst = steps := by
  rw [carriedOut, List.map_map]
  exact List.zipIdx_map_fst 0 steps

/-! ## Texts -/

/-- `{b:02x}` -/
def hexByte (b : UInt8) : List Char := [(b.toNat / 16).digitChar, (b.toNat % 16).digitChar]

def sha256Hex (sha256 : ByteArray → List UInt8) (s : String) : String :=
  String.ofList ((sha256 s.toUTF8).flatMap hexByte)

/-- the body of the loop -/
def sha256Row (sha256 : ByteArray → List UInt8) (idx : ℕ) (row : Row) : IngestionResult Row := do
  match ← index row idx with
  | .utf8 s => pure (row.set idx (.utf8 (sha256Hex sha256 s)))
  | _ => pure row

def utf8Sha256Dataset (sha256 : ByteArray → List UInt8) (ds : DataSet) (column : String) : IngestionResult DataSet := do
  let idx ← utf8FieldIndex ds column
  let rows ← ds.rows.mapM (sha256Row sha256 idx)
  pure ⟨ds.schema, rows⟩

/-- a step in place: the dataset is dropped on an error -/
def inPlace (f : Attempt DataSet Fault Unit) (ds : DataSet) : IngestionResult DataSet := (f ds).2.map fun _ => (f ds).1

/-! ## Steps -/

def applyUtf8DatasetStep (E : ArithmeticEngine) (lf : DataFrame) (f : DataSet → IngestionResult DataSet) :
    IngestionResult DataFrame := do
  let ds ← lf.collect E.toEngine E.typeText
  let ds ← f ds
  DataFrame.fromDataset E.toEngine ds

def TransformStep.run (B : Build) (carried : Bool) (lf : DataFrame) : TransformStep → IngestionResult DataFrame
  | .select columns => pure (DataFrame.select B.toArithmeticEngine lf columns)
  | .drop columns => pure (DataFrame.drop B.toEngine lf columns)
  | .rename pairs => pure (DataFrame.rename lf pairs)
  | .cast column target mode => pure (DataFrame.castWithMode B.toArithmeticEngine carried lf column target mode)
  | .fillNull column value => DataFrame.fillNull B.toArithmeticEngine lf column value
  | .withLiteral name value => DataFrame.withLiteral B.toEngine lf name value
  | .deriveMulF64 name source factor => pure (DataFrame.withMulF64 B.toArithmeticEngine lf name source factor)
  | .deriveAddF64 name source delta => pure (DataFrame.withAddF64 B.toArithmeticEngine lf name source delta)
  | .utf8Truncate column maxChars =>
    applyUtf8DatasetStep B.toArithmeticEngine lf (inPlace (utf8TruncateDataset column maxChars.toNat))
  | .utf8Sha256Hex column => applyUtf8DatasetStep B.toArithmeticEngine lf (utf8Sha256Dataset B.sha256 · column)
  | .utf8RedactMiddle column keepLeft keepRight redaction =>
    applyUtf8DatasetStep B.toArithmeticEngine lf
      (utf8RedactMiddleDataset B.overflowChecks keepLeft keepRight redaction · column)

def runStep (B : Build) (lf : DataFrame) (s : TransformStep × Bool) : IngestionResult DataFrame := s.1.run B s.2 lf

def TransformSpec.apply (B : Build) (spec : TransformSpec) (input : DataSet) : IngestionResult DataSet := do
  let df ← DataFrame.fromDataset B.toEngine input
  let df ← (carriedOut B input.schema spec.steps).foldlM (runStep B) df
  df.collectWithSchema B.toEngine spec.outputSchema

end RustDataProcessing.Transform
