/-
The two JSON readers (`src/ingestion/json.rs`).

`ingestJsonFromStr` parses the text (an array of objects, one object, or one object a line), walks every record to each
field's dotted path, and converts the value found there. `ingestJsonFromPath` has the engine read the file into one
column for each key, projects the dotted paths out of struct columns, and converts the frame.

The JSON parser and the engine are parameters. The engine infers one type for each key over all records
(`JsonRules.inferType`); what it makes of values of mixed kinds is left open.
-/
import Mathlib.Tactic
import RustDataProcessing.Ingestion.PolarsBridge
import RustDataProcessing.Polars.Lazy

namespace RustDataProcessing.Ingestion

open Polars

/-! ## Records -/

/-- the members of a JSON object -/
abbrev Record := List (String × Json)

/-- `serde_json::from_str`; the error is its text. White space around a document is not part of it, and no document is
empty -/
structure JsonParser where
  fromStr : String → Except String Json
  fromStr_trim : ∀ s j, fromStr s = .ok j → fromStr (RustStd.trim s) = .ok j
  fromStr_empty : ∀ j, fromStr "" ≠ .ok j

/-- the segment loop of `get_by_dot_path` -/
def walk : Json → List String → Option Json
  | current, [] => some current
  | .object members, segment :: rest => (Json.get members segment).bind (walk · rest)
  | _, _ :: _ => none

def getByDotPath (root : Record) (path : String) : Option Json := do
  let segments := RustStd.split path '.'
  let current ← Json.get root (segments.headD path)
  if ¬ RustStd.contains path '.' then some current else walk current (segments.drop 1)

def convertJsonValue (row : ℕ) (column : String) (dataType : DataType) (v : Json) : IngestionResult Value :=
  let fail (message : String) : IngestionResult Value := .error (.parseError row column (.json v) message)
  if v.isNull then .ok .null
  else match dataType with
    | .utf8 => match v.asStr with
      | some s => .ok (.utf8 s)
      | none => fail "expected string"
    | .bool => match v.asBool with
      | some b => .ok (.bool b)
      | none => fail "expected bool"
    | .int64 => match v.asI64 with
      | some n => .ok (.int64 n)
      | none => match v.asU64 with
        | some n => if n.toNat < 2 ^ 63 then .ok (.int64 (Int64.ofNat n.toNat)) else fail "u64 out of range for i64"
        | none => fail "expected integer number"
    | .float64 => match v.asF64 with
      | some x => .ok (.float64 x)
      | none => fail "expected number"

/-! ## From text -/

def recordValue (rowNum : ℕ) (obj : Record) (field : Field) : IngestionResult Value :=
  match getByDotPath obj field.name with
  | none => .error (.schemaMismatch s!"row {rowNum} missing required field '{field.name}'")
  | some jv => convertJsonValue rowNum field.name field.dataType jv

def ingestJsonValues (values : List Json) (schema : Schema) : IngestionResult DataSet := do
  let rows ← values.zipIdx.mapM fun (v, idx0) =>
    let rowNum := idx0 + 1
    match v.asObject with
    | none => .error (.schemaMismatch s!"row {rowNum} is not a json object")
    | some obj => schema.fields.mapM (recordValue rowNum obj)
  pure ⟨schema, rows⟩

/-- the line loop: blank lines are skipped -/
def parseLines (P : JsonParser) (trimmed : String) : IngestionResult (List Json) :=
  ((RustStd.lines trimmed).zipIdx.filter fun p => RustStd.trim p.1 ≠ "").mapM fun (line, i) =>
    match P.fromStr (RustStd.trim line) with
    | .ok v => .ok v
    | .error e => .error (.schemaMismatch s!"invalid ndjson at line {i + 1}: {e}")

def ingestJsonFromStr (P : JsonParser) (input : String) (schema : Schema) : IngestionResult DataSet :=
  let trimmed := RustStd.trim input
  if trimmed = "" then .error (.schemaMismatch "json input is empty")
  else match P.fromStr trimmed with
    | .ok (.array items) => ingestJsonValues items schema
    | .ok (.object members) => ingestJsonValues [.object members] schema
    | .ok _ => .error (.schemaMismatch "json must be an object, an array of objects, or NDJSON")
    | .error _ => do
      let values ← parseLines P trimmed
      ingestJsonValues values schema

/-! ## What the text reader computes -/

/-- the value of a type that a JSON value is -/
def typedJson (dt : DataType) (j : Json) : Option Value :=
  match dt with
  | .int64 => j.asI64.map .int64
  | .float64 => j.asF64.map .float64
  | .bool => j.asBool.map .bool
  | .utf8 => j.asStr.map .utf8

/-- a null, or a value of the type -/
def Converts (dt : DataType) (j : Json) : Prop := j.isNull ∨ (typedJson dt j).isSome

def jsonValue (dt : DataType) (j : Json) : Value := if j.isNull then .null else (typedJson dt j).getD .null

/-- an unsigned integer that is no `i64` is out of range, so the `as_u64` arm never returns a value -/
theorem asU64_of_asI64_none {j : Json} (h : j.asI64 = none) {n : UInt64} (hn : j.asU64 = some n) :
    ¬ n.toNat < 2 ^ 63 := by
  cases j with
  | number k =>
    cases k with
    | posInt m =>
      cases hn
      simpa [Json.asI64] using h
    | negInt m => cases hn
    | float x => cases hn
  | _ => cases hn

theorem convertJsonValue_returns (row : ℕ) (column : String) (dt : DataType) (j : Json) :
    Traverse.Returns (convertJsonValue row column dt j) (Converts dt j) (jsonValue dt j) := by
  unfold convertJsonValue Converts jsonValue Traverse.Returns
  by_cases hnull : j.isNull
  · simp [hnull]
  · simp only [hnull, Bool.false_eq_true, if_false, false_or]
    cases dt with
    | utf8 => cases h : j.asStr <;> simp [typedJson, h]
    | bool => cases h : j.asBool <;> simp [typedJson, h]
    | float64 => cases h : j.asF64 <;> simp [typedJson, h]
    | int64 =>
      cases h : j.asI64 with
      | some n => simp [typedJson, h]
      | none =>
        cases hu : j.asU64 with
        | none => simp [typedJson, h]
        | some n => exact Or.inr ⟨by simp [typedJson, h], _, if_neg (asU64_of_asI64_none h hu)⟩

/-- a dotted path is walked segment by segment -/
theorem getByDotPath_eq (root : Record) (path : String) :
    getByDotPath root path = walk (.object root) (RustStd.split path '.') := by
  unfold getByDotPath
  obtain ⟨seg, rest, hsplit⟩ := RustStd.split_eq_cons path '.'
  simp only [hsplit, List.headD_cons, List.drop_succ_cons, List.drop_zero, walk]
  by_cases hdot : RustStd.contains path '.' = true
  · simp only [hdot, not_true_eq_false, if_false]
    rfl
  · have hrest : rest = [] := by
      have := RustStd.split_of_not_contains (Bool.not_eq_true _ ▸ hdot)
      rw [hsplit] at this
      exact (List.cons.inj this).2
    subst hrest
    simp only [hdot, Bool.false_eq_true, not_false_eq_true, if_true]
    rfl

/-- the texts the reader accepts: every record has every field's path, with a null or a value of the field's type -/
def TextAccepts (records : List Record) (schema : Schema) : Prop :=
  ∀ f ∈ schema.fields, ∀ record ∈ records, ∃ j, getByDotPath record f.name = some j ∧ Converts f.dataType j

def textRows (records : List Record) (schema : Schema) : List Row :=
  records.map fun record => schema.fields.map fun f => jsonValue f.dataType ((getByDotPath record f.name).getD .null)

theorem recordValue_returns (rowNum : ℕ) (record : Record) (f : Field) :
    Traverse.Returns (recordValue rowNum record f) (∃ j, getByDotPath record f.name = some j ∧ Converts f.dataType j)
      (jsonValue f.dataType ((getByDotPath record f.name).getD .null)) := by
  unfold recordValue
  cases getByDotPath record f.name with
  | none => exact Or.inr ⟨by simp, _, rfl⟩
  | some j => exact (convertJsonValue_returns rowNum f.name f.dataType j).congr (by simp) rfl

theorem ingestJsonValues_returns (records : List Record) (schema : Schema) :
    Traverse.Returns (ingestJsonValues (records.map .object) schema) (TextAccepts records schema)
      ⟨schema, textRows records schema⟩ := by
  have hrows := Traverse.Returns.mapM fun (p : Record × ℕ) (_ : p ∈ records.zipIdx) =>
    Traverse.Returns.mapM fun f (_ : f ∈ schema.fields) => recordValue_returns (p.2 + 1) p.1 f
  have hvalues : (records.zipIdx.map fun p => schema.fields.map fun f =>
      jsonValue f.dataType ((getByDotPath p.1 f.name).getD .null)) = textRows records schema := by
    rw [textRows]
    conv_rhs => rw [← List.zipIdx_map_fst 0 records, List.map_map]
    rfl
  have haccepts : (∀ p ∈ records.zipIdx, ∀ f ∈ schema.fields,
      ∃ j, getByDotPath p.1 f.name = some j ∧ Converts f.dataType j) ↔ TextAccepts records schema := by
    rw [TextAccepts]
    conv_rhs => rw [← List.zipIdx_map_fst 0 records]
    simp only [List.forall_mem_map]
    exact ⟨fun h f hf p hp => h p hp f hf, fun h p hp f hf => h f hf p hp⟩
  simp only [ingestJsonValues, List.zipIdx_map, List.mapM_map, Function.comp_def, Prod.map, id_eq, Json.asObject]
  refine Traverse.Returns.congr (Traverse.Returns.bind (hrows.congr haccepts hvalues) fun _ =>
    Traverse.Returns.ok (DataSet.mk schema (textRows records schema))) (by simp) rfl

/-- **What the text reader computes** on an array of objects -/
theorem ingestJsonFromStr_returns {P : JsonParser} {text : String} {records : List Record}
    (htext : P.fromStr text = .ok (.array (records.map .object))) (schema : Schema) :
    Traverse.Returns (ingestJsonFromStr P text schema) (TextAccepts records schema)
      ⟨schema, textRows records schema⟩ := by
  have htrim := P.fromStr_trim _ _ htext
  have hne : RustStd.trim text ≠ "" := fun h => P.fromStr_empty _ (h ▸ htrim)
  simp only [ingestJsonFromStr, hne, if_false, htrim]
  exact ingestJsonValues_returns records schema

/-! ## From a path -/

inductive JsonFormat where
  | json
  | jsonLines
deriving DecidableEq, Repr

def jsonPolarsError (action : String) : PolarsError → IngestionError
  | .columnNotFound name _ => .schemaMismatch s!"missing required field '{name}'"
  | other => polarsErrorToIngestion action other

/-- `?` after `map_err` -/
def jsonResult {α : Type} (action : String) : Except PolarsError α → IngestionResult α
  | .ok a => .ok a
  | .error e => .error (.error (jsonPolarsError action e))

def exprForDotPath (path : String) : Expr :=
  let segments := RustStd.split path '.'
  .alias ((segments.drop 1).foldl Expr.fieldByName (.col (segments.headD path))) path

/-- `JsonReader::finish`, and `with_columns`, `select` and `collect` of a lazy frame -/
structure JsonBackend extends Engine where
  finish : JsonFormat → String → Except PolarsError DataFrame
  project : DataFrame → List Expr → List Expr → Except PolarsError DataFrame

def derivedColumns (schema : Schema) : List Expr :=
  (schema.fields.filter fun f => RustStd.contains f.name '.').map fun f => exprForDotPath f.name

/-- `file` is what `File::open` gives: the file's text, or an error -/
def ingestJsonFromPath (E : JsonBackend) (path : String) (file : Except IoError String) (schema : Schema) :
    IngestionResult DataSet := do
  let ext := (RustStd.extension path).getD ""
  let jsonFormat := if RustStd.toAsciiLowercase ext = "ndjson" then JsonFormat.jsonLines else .json
  let text ← match file with
    | .ok text => (.ok text : IngestionResult String)
    | .error e => .error (.error (.io e))
  let df ← jsonResult "failed to read json with polars" (E.finish jsonFormat text)
  schema.fields.forM fun field => match RustStd.contains field.name '.', df.column field.name with
    | false, .error _ => .error (missingRequired "field" field)
    | _, _ => .ok ()
  let projected ← jsonResult "failed to project json fields"
    (E.project df (derivedColumns schema) (schema.fields.map fun f => .col f.name))
  dataframeToDataset E.toEngine projected schema "field" 1

end RustDataProcessing.Ingestion
