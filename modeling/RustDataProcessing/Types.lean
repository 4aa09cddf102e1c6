/-
The data model (`src/types.rs`): a dataset is a schema and a list of rows of typed cells.

The struct carries no invariant of its own: a row may be shorter or longer than the schema and a cell may be of another
type. What the readers promise is `DataSet.Conforms`: every row has the schema's length and every cell is null or a
value of its field's type. `Row.Conforms.cell` is what the row-wise operations use of it.

Integers are `Int64`, doubles are `Binary64` bit patterns, text is `String`. A panic is `none`.
-/
import Mathlib.Tactic
import RustDataProcessing.Lib.Binary64

namespace RustDataProcessing

inductive DataType where
  | int64
  | float64
  | bool
  | utf8
deriving DecidableEq, Repr

/-- `{:?}` -/
def DataType.debug : DataType → String
  | .int64 => "Int64"
  | .float64 => "Float64"
  | .bool => "Bool"
  | .utf8 => "Utf8"

structure Field where
  name : String
  dataType : DataType
deriving DecidableEq, Repr

structure Schema where
  fields : List Field
deriving DecidableEq, Repr

inductive Value where
  | null
  | int64 (v : Int64)
  | float64 (v : Binary64)
  | bool (v : Bool)
  | utf8 (v : String)
deriving DecidableEq, Repr

abbrev Row := List Value

structure DataSet where
  schema : Schema
  rows : List Row
deriving DecidableEq, Repr

namespace Schema

def fieldNames (s : Schema) : List String := s.fields.map Field.name

def indexOf (s : Schema) (name : String) : Option ℕ := s.fields.findIdx? (fun f => f.name = name)

theorem indexOf_some {s : Schema} {name : String} {i : ℕ} (h : s.indexOf name = some i) :
    ∃ hi : i < s.fields.length, s.fields[i].name = name := by
  obtain ⟨hi, hp, -⟩ := List.findIdx?_eq_some_iff_getElem.1 h
  exact ⟨hi, by simpa using hp⟩

/-- a field is found by its name where it stands -/
theorem indexOf_of_nodup {schema : Schema} (h : schema.fieldNames.Nodup) {i : ℕ} {f : Field}
    (hf : schema.fields[i]? = some f) : schema.indexOf f.name = some i := by
  obtain ⟨hi, rfl⟩ := List.getElem?_eq_some_iff.1 hf
  refine List.findIdx?_eq_some_iff_getElem.2 ⟨hi, by simp, ?_⟩
  intro j hj
  rw [decide_eq_true_eq]
  intro heq
  have hlen : j < schema.fieldNames.length := by
    rw [fieldNames, List.length_map]
    omega
  have hname : schema.fieldNames[j]? = schema.fieldNames[i]? := by
    simp [fieldNames, hi, hj.trans hi, heq]
  have hij := (List.getElem?_inj hlen h).1 hname
  omega

end Schema

namespace DataSet

def rowCount (ds : DataSet) : ℕ := ds.rows.length

def filterRows (ds : DataSet) (predicate : Row → Bool) : DataSet := ⟨ds.schema, ds.rows.filter predicate⟩

/-- one row of `map_rows`: none is the panic on a row of the wrong length -/
def mapRow (expectedLen : ℕ) (mapper : Row → Row) (row : Row) : Option Row :=
  let out := mapper row
  if out.length = expectedLen then some out else none

def mapRows (ds : DataSet) (mapper : Row → Row) : Option DataSet :=
  (ds.rows.mapM (mapRow ds.schema.fields.length mapper)).map fun rows => ⟨ds.schema, rows⟩

def reduceRows {A : Type} (ds : DataSet) (init : A) (reducer : A → Row → A) : A := ds.rows.foldl reducer init

/-- `map_rows` does not panic when the mapper keeps the row length -/
theorem mapRows_of_length {ds : DataSet} {mapper : Row → Row}
    (h : ∀ row ∈ ds.rows, (mapper row).length = ds.schema.fields.length) :
    ds.mapRows mapper = some ⟨ds.schema, ds.rows.map mapper⟩ := by
  have hm : ds.rows.mapM (mapRow ds.schema.fields.length mapper) = some (ds.rows.map mapper) := by
    have : ∀ rows : List Row, (∀ row ∈ rows, (mapper row).length = ds.schema.fields.length) →
        rows.mapM (mapRow ds.schema.fields.length mapper) = some (rows.map mapper) := by
      intro rows
      induction rows with
      | nil => intro _; rfl
      | cons row rows ih =>
        intro hr
        have h1 : mapRow ds.schema.fields.length mapper row = some (mapper row) := by
          simp [mapRow, hr row List.mem_cons_self]
        rw [List.mapM_cons, h1, ih fun r hm => hr r (List.mem_cons_of_mem _ hm)]
        rfl
    exact this _ h
  simp [mapRows, hm]

end DataSet

/-! ## Conformance -/

/-- a value of the type: not null -/
def Value.hasType : Value → DataType → Bool
  | .int64 _, .int64 => true
  | .float64 _, .float64 => true
  | .bool _, .bool => true
  | .utf8 _, .utf8 => true
  | _, _ => false

def Value.fits (v : Value) (dt : DataType) : Prop := v = .null ∨ v.hasType dt = true

instance (v : Value) (dt : DataType) : Decidable (v.fits dt) := inferInstanceAs (Decidable (_ ∨ _))

def Row.Conforms (row : Row) (schema : Schema) : Prop :=
  List.Forall₂ (fun v (f : Field) => v.fits f.dataType) row schema.fields

instance (row : Row) (schema : Schema) : Decidable (Row.Conforms row schema) :=
  inferInstanceAs (Decidable (List.Forall₂ _ _ _))

structure DataSet.Conforms (ds : DataSet) (schema : Schema) : Prop where
  schema_eq : ds.schema = schema
  rows : ∀ row ∈ ds.rows, Row.Conforms row schema

theorem Row.Conforms.length {row : Row} {schema : Schema} (h : Row.Conforms row schema) :
    row.length = schema.fields.length := List.Forall₂.length_eq h

theorem Row.Conforms.cell {row : Row} {schema : Schema} (h : Row.Conforms row schema) {i : ℕ}
    (hi : i < schema.fields.length) : ∃ v, row[i]? = some v ∧ v.fits schema.fields[i].dataType := by
  have hr : i < row.length := by rw [h.length]; exact hi
  exact ⟨row[i], List.getElem?_eq_getElem hr, List.Forall₂.get h hr hi⟩

end RustDataProcessing
